import TestBench.Proofs.Child.Readers
/-!
# Schedules and arrivals

A capture takes what arrives piece by piece and makes whole lines of it at once. It comes to the
same texts as the readers at work do: each capture of arrivals that can come from two streams is
what some schedule takes, and the other way round.
-/
namespace TestBench.Child

variable {streams left : Stream → Bytes} {s t : Stream} {c c' : Readers} {k : Capture}
  {merged : List (Stream × List Char)} {raw xs : Bytes}

namespace Drain

theorem feed_append (d : Drain) (xs ys : Bytes) :
    d.feed (xs ++ ys) =
      (((d.feed xs).1.feed ys).1, (d.feed xs).2 ++ ((d.feed xs).1.feed ys).2) := by
  induction xs generalizing d with
  | nil => rfl
  | cons b xs ih => simp only [List.cons_append, feed, ih, List.append_assoc]

theorem feed_of_notMem (plain : lineFeed ∉ xs) (d : Drain) :
    d.feed xs = (⟨xs.reverse ++ d.held⟩, []) := by
  induction xs generalizing d with
  | nil => rfl
  | cons b xs ih =>
    have inside : b ≠ lineFeed := fun same => plain (same ▸ List.mem_cons_self)
    have later : lineFeed ∉ xs := fun hm => plain (List.mem_cons_of_mem b hm)
    simp only [feed, feedByte, if_neg inside, ih later, List.reverse_cons, List.append_assoc,
      List.singleton_append, List.nil_append]

theorem feed_line (plain : lineFeed ∉ xs) :
    start.feed (xs ++ [lineFeed]) = (start, [normalLine (xs ++ [lineFeed])]) := by
  rw [feed_append, feed_of_notMem plain]
  simp [feed, feedByte, start]

theorem finish_of_notMem (plain : lineFeed ∉ xs) (full : xs ≠ []) :
    (start.feed xs).1.finish = [normalLine xs] := by
  rw [feed_of_notMem plain]
  simp [finish, start, full]

end Drain

def Arrival.stream : Arrival → Stream
  | .bytes s _ => s
  | .ended s => s

/-- Arrivals that can come from two streams: the bytes of each in their order, and its end after all
of them, once. -/
def Orderly (left : Stream → Bytes) : List Arrival → Prop
  | [] => True
  | .bytes s piece :: as =>
    ∃ rest, left s = piece ++ rest ∧ Orderly (fun t => if t = s then rest else left t) as
  | .ended s :: as => left s = [] ∧ (∀ a ∈ as, a.stream ≠ s) ∧ Orderly left as

namespace Capture

@[simp] theorem drain_setDrain_self (k : Capture) (s : Stream) (d : Drain) :
    (k.setDrain s d).drain s = d := by
  cases s <;> rfl

theorem drain_setDrain_other (other : t ≠ s) (k : Capture) (d : Drain) :
    (k.setDrain s d).drain t = k.drain t := by
  cases s <;> cases t <;> first | exact absurd rfl other | rfl

@[simp] theorem setDrain_lines (k : Capture) (s : Stream) (d : Drain) :
    (k.setDrain s d).lines = k.lines := by
  cases s <;> rfl

theorem drain_lines (k : Capture) (ls : List (Stream × List Char)) (s : Stream) :
    ({ k with lines := ls } : Capture).drain s = k.drain s := by
  cases s <;> rfl

theorem foldl_cons (s : Stream) (ls : List (List Char)) (all : List (Stream × List Char)) :
    ls.foldl (fun all l => (s, l) :: all) all = (ls.map (s, ·)).reverse ++ all := by
  induction ls generalizing all with
  | nil => rfl
  | cons l ls ih =>
    rw [List.foldl_cons, ih, List.map_cons, List.reverse_cons, List.append_assoc,
      List.singleton_append]

theorem receive_bytes (k : Capture) (s : Stream) (piece : Bytes) :
    k.receive (.bytes s piece) = { k.setDrain s ((k.drain s).feed piece).1 with
      lines := (((k.drain s).feed piece).2.map (s, ·)).reverse ++ k.lines } := by
  simp only [receive, foldl_cons, setDrain_lines]

theorem receive_ended (k : Capture) (s : Stream) :
    k.receive (.ended s) = { k.setDrain s .start with
      lines := ((k.drain s).finish.map (s, ·)).reverse ++ k.lines } := by
  simp only [receive, foldl_cons, setDrain_lines]

theorem drain_receive_bytes (k : Capture) (s t : Stream) (piece : Bytes) :
    (k.receive (.bytes s piece)).drain t =
      if t = s then ((k.drain s).feed piece).1 else k.drain t := by
  rw [receive_bytes, drain_lines]
  by_cases same : t = s
  · rw [if_pos same, same, drain_setDrain_self]
  · rw [if_neg same, drain_setDrain_other same]

theorem drain_receive_ended (k : Capture) (s t : Stream) :
    (k.receive (.ended s)).drain t = if t = s then .start else k.drain t := by
  rw [receive_ended, drain_lines]
  by_cases same : t = s
  · rw [if_pos same, same, drain_setDrain_self]
  · rw [if_neg same, drain_setDrain_other same]

theorem receive_line (fresh : ∀ t, k.drain t = .start) (plain : lineFeed ∉ xs) :
    (∀ t, (k.receive (.bytes s (xs ++ [lineFeed]))).drain t = .start) ∧
      (k.receive (.bytes s (xs ++ [lineFeed]))).lines =
        (s, normalLine (xs ++ [lineFeed])) :: k.lines := by
  have fed := Drain.feed_line plain
  constructor
  · intro t
    rw [drain_receive_bytes, fresh s, fed, fresh t, ite_self]
  · rw [receive_bytes, fresh s, fed]
    rfl

/-- At the end of its stream a line is complete without a newline. -/
theorem receive_last (fresh : ∀ t, k.drain t = .start) (plain : lineFeed ∉ xs) (full : xs ≠ []) :
    (∀ t, ((k.receive (.bytes s xs)).receive (.ended s)).drain t = .start) ∧
      ((k.receive (.bytes s xs)).receive (.ended s)).lines = (s, normalLine xs) :: k.lines := by
  constructor
  · intro t
    rw [drain_receive_ended, drain_receive_bytes, fresh t]
    by_cases same : t = s
    · rw [if_pos same]
    · rw [if_neg same, if_neg same]
  · rw [receive_ended, drain_receive_bytes, if_pos rfl, fresh s,
      Drain.finish_of_notMem plain full, receive_bytes, fresh s, Drain.feed_of_notMem plain]
    rfl

end Capture

theorem joined_append (xs ys : List (Stream × List Char)) :
    joined (xs ++ ys) = joined xs ++ joined ys := List.flatMap_append

theorem joined_map (s : Stream) (ls : List (List Char)) : joined (ls.map (s, ·)) = ls.flatten := by
  rw [joined, List.flatMap_map, List.flatMap_id']

theorem linesOf_cons (s : Stream) (line : List Char) (merged : List (Stream × List Char)) :
    linesOf t ((s, line) :: merged) =
      if t = s then line :: linesOf t merged else linesOf t merged := by
  rw [show (s, line) :: merged = [(s, line)] ++ merged from rfl, linesOf_append]
  by_cases same : t = s
  · rw [if_pos same, same, linesOf_self]
    rfl
  · rw [if_neg same, linesOf_other (Ne.symm same)]
    rfl

/-- Lines of the streams in any order, as far as each stream gives them: they are what a capture
makes of some arrivals. -/
theorem exists_arrivals (le : ∀ s, linesOf s merged <+: lines (left s))
    (fresh : ∀ s, k.drain s = .start) :
    ∃ as, Orderly left as ∧ (∀ a ∈ as, linesOf a.stream merged ≠ []) ∧
      (k.receiveAll as).lines = merged.reverse ++ k.lines := by
  -- The first line is the first one of its stream, which is left without it.
  induction merged generalizing left k with
  | nil => exact ⟨[], trivial, fun a h => (by cases h), rfl⟩
  | cons l merged ih =>
    obtain ⟨s, line⟩ := l
    have own : linesOf s ((s, line) :: merged) = line :: linesOf s merged := by
      rw [linesOf_cons, if_pos rfl]
    have kept {t : Stream} (h : linesOf t merged ≠ []) : linesOf t ((s, line) :: merged) ≠ [] := by
      rw [linesOf_cons]
      split
      · exact List.cons_ne_nil _ _
      · exact h
    obtain ⟨more, all⟩ := le s
    rw [own, List.cons_append] at all
    have after (rest : Bytes) (next : linesOf s merged ++ more = lines rest) (t : Stream) :
        linesOf t merged <+: lines (if t = s then rest else left t) := by
      by_cases same : t = s
      · rw [if_pos same, same]
        exact ⟨more, next⟩
      · have other := le t
        rw [linesOf_cons, if_neg same] at other
        rwa [if_neg same]
    by_cases ended : lineFeed ∈ left s
    · obtain ⟨xs, rest, split, plain⟩ := List.eq_append_cons_of_mem ended
      rw [split, lines_append_cons plain] at all
      obtain ⟨rfl, next⟩ := List.cons.inj all
      obtain ⟨still, made⟩ := Capture.receive_line (s := s) fresh plain
      obtain ⟨as, orderly, along, received⟩ := ih (after rest next) still
      refine ⟨.bytes s (xs ++ [lineFeed]) :: as, ⟨rest, ?_, orderly⟩, ?_, ?_⟩
      · rw [split, List.append_assoc]
        rfl
      · intro a ha
        rcases List.mem_cons.mp ha with rfl | ha
        · exact own ▸ List.cons_ne_nil _ _
        · exact kept (along a ha)
      · rw [Capture.receiveAll] at received
        rw [Capture.receiveAll, List.foldl_cons, received, made, List.reverse_cons,
          List.append_assoc, List.singleton_append]
    · have full : left s ≠ [] := by
        intro none
        rw [none] at all
        cases all
      rw [lines_of_notMem ended full] at all
      obtain ⟨rfl, next⟩ := List.cons.inj all
      obtain ⟨still, made⟩ := Capture.receive_last (s := s) fresh ended full
      obtain ⟨as, orderly, along, received⟩ := ih (after [] next) still
      refine ⟨.bytes s (left s) :: .ended s :: as, ⟨[], ?_, ?_, ?_, orderly⟩, ?_, ?_⟩
      · rw [List.append_nil]
      · exact if_pos rfl
      · intro a ha same
        exact along a ha (same ▸ (List.append_eq_nil_iff.mp next).1)
      · intro a ha
        rcases List.mem_cons.mp ha with rfl | ha
        · exact own ▸ List.cons_ne_nil _ _
        rcases List.mem_cons.mp ha with rfl | ha
        · exact own ▸ List.cons_ne_nil _ _
        · exact kept (along a ha)
      · rw [Capture.receiveAll] at received
        rw [Capture.receiveAll, List.foldl_cons, List.foldl_cons, received, made,
          List.reverse_cons, List.append_assoc, List.singleton_append]

theorem exists_arrivals_of_lines (le : ∀ s, linesOf s merged <+: lines (streams s)) :
    ∃ as, Orderly streams as ∧ (Capture.start.receiveAll as).text = .ofList (joined merged) := by
  obtain ⟨as, orderly, _, received⟩ := exists_arrivals (k := .start) le fun s => by cases s <;> rfl
  refine ⟨as, orderly, ?_⟩
  rw [Capture.text, received, show Capture.start.lines = [] from rfl, List.append_nil,
    List.reverse_reverse]
  rfl

namespace Readers

theorem run_append (c : Readers) (xs ys : List Event) :
    c.run (xs ++ ys) = (c.run xs).bind (·.run ys) := by
  induction xs generalizing c with
  | nil => rfl
  | cons e xs ih =>
    rw [List.cons_append, run, run]
    cases c.step e with
    | none => rfl
    | some next => exact ih next

/-- One reader works until it is as it is in the end, and what it puts is put without a pause. -/
structure Works (s : Stream) (c c' : Readers) (r : Reader) (put : List Char) : Prop where
  run : ∃ es, c.run es = some c'
  own : c'.reader s = r
  others : ∀ t, t ≠ s → c'.reader t = c.reader t
  lock : c'.lock = c.lock
  text : c'.text = c.text ++ put
  phase : c'.phase = c.phase

variable {r r' : Reader} {put put' : List Char} {c'' : Readers}

theorem Works.refl (s : Stream) (c : Readers) : Works s c c (c.reader s) [] :=
  ⟨⟨[], rfl⟩, rfl, fun _ _ => rfl, rfl, (List.append_nil _).symm, rfl⟩

theorem Works.trans (h : Works s c c' r put) (g : Works s c' c'' r' put') :
    Works s c c'' r' (put ++ put') := by
  obtain ⟨first, begins⟩ := h.run
  obtain ⟨second, ends⟩ := g.run
  refine ⟨⟨first ++ second, ?_⟩, g.own, fun t other => ?_, g.lock.trans h.lock, ?_,
    g.phase.trans h.phase⟩
  · rw [run_append, begins, Option.bind_some, ends]
  · rw [g.others t other, h.others t other]
  · rw [g.text, h.text, List.append_assoc]

theorem works_move {m : Move} (moves : (c.reader s).move m = some r) :
    Works s c (c.setReader s r) r [] := by
  refine ⟨⟨[.move s m], ?_⟩, if_pos rfl, fun t other => if_neg other, rfl,
    (List.append_nil _).symm, rfl⟩
  simp only [run, step, moves, Option.map_some, Option.bind_some]

theorem setStage_own (c : Readers) (s : Stream) (stage : Stage) :
    (c.setStage s stage).reader s = { c.reader s with stage } := if_pos rfl

theorem setStage_other (other : t ≠ s) (c : Readers) (stage : Stage) :
    (c.setStage s stage).reader t = c.reader t := if_neg other

/-- A line that waits for the lock is put as a whole. -/
theorem exists_works_put (waits : (c.reader s).stage = .waiting raw) (free : c.lock = none) :
    ∃ c', Works s c c' { c.reader s with stage := .reading } (normalLine raw) := by
  let locked := { c with lock := some s }.setStage s (.holding raw)
  let begun := { locked with text := c.text ++ bareLine raw }.setStage s (.putting raw)
  let ended := { begun with text := begun.text ++ ['\n'], lock := none }.setStage s .reading
  have first : c.step (.lock s) = some locked := by simp only [step, waits, free, locked]
  have second : locked.step (.put s) = some begun := by
    have holds : (locked.reader s).stage = .holding raw := by rw [setStage_own]
    simp only [step, holds, begun]
    rfl
  have third : begun.step (.release s) = some ended := by
    have puts : (begun.reader s).stage = .putting raw := by rw [setStage_own]
    simp only [step, puts, ended]
  refine ⟨ended, ⟨[.lock s, .put s, .release s], ?_⟩, ?_, fun t other => ?_, free.symm, ?_, rfl⟩
  · simp only [run, first, second, third, Option.bind_some]
  · simp only [ended, begun, locked, setStage_own]
  · rw [setStage_other other]
    exact (setStage_other other _ _).trans (setStage_other other _ _)
  · exact List.append_assoc ..

/-- What a reader makes of a block is put line by line, if the other one does nothing. -/
theorem exists_works_block {unread bs : Bytes} {d : Drain} {aborted : Bool} (free : c.lock = none)
    (own : c.reader s = ⟨unread, bs, d, .reading, aborted⟩) :
    ∃ c', Works s c c' ⟨unread, [], (d.feed bs).1, .reading, aborted⟩ (d.feed bs).2.flatten := by
  induction bs generalizing c d with
  | nil => exact ⟨c, own ▸ .refl s c⟩
  | cons b bs ih =>
    by_cases feed : b = lineFeed
    · have moves : (c.reader s).move .scan =
          some ⟨unread, bs, .start, .waiting (b :: d.held).reverse, aborted⟩ := by
        simp only [Reader.move, own, if_pos feed, Drain.feedByte]
      have scanned := works_move moves
      obtain ⟨c₁, puts⟩ := exists_works_put (by rw [scanned.own]) (scanned.lock.trans free)
      have line := scanned.trans puts
      rw [scanned.own] at line
      obtain ⟨c₂, rest⟩ := ih (line.lock.trans free) line.own
      refine ⟨c₂, ?_⟩
      have all := line.trans rest
      simp only [Drain.feed, Drain.feedByte, if_pos feed, List.flatten_append,
        List.flatten_singleton]
      exact all
    · have moves : (c.reader s).move .scan =
          some ⟨unread, bs, ⟨b :: d.held⟩, .reading, aborted⟩ := by
        simp only [Reader.move, own, if_neg feed, Drain.feedByte]
      have scanned := works_move moves
      obtain ⟨c₂, rest⟩ := ih (scanned.lock.trans free) scanned.own
      refine ⟨c₂, ?_⟩
      simp only [Drain.feed, Drain.feedByte, if_neg feed, List.nil_append]
      exact scanned.trans rest

/-- A reader that waits for more of its stream, or is over and will get nothing. -/
inductive Ready (left : Stream → Bytes) (k : Capture) (as : List Arrival) (c : Readers)
    (s : Stream) : Prop where
  | reading (aborted : Bool) (own : c.reader s = ⟨left s, [], k.drain s, .reading, aborted⟩)
  | finished (finished : (c.reader s).stage.isFinished = true) (none : ∀ a ∈ as, a.stream ≠ s)

theorem Ready.of_other {left' : Stream → Bytes} {k' : Capture} {a : Arrival} {as : List Arrival}
    (ready : Ready left k (a :: as) c t) (rest : left' t = left t) (drain : k'.drain t = k.drain t)
    (still : c'.reader t = c.reader t) : Ready left' k' as c' t := by
  cases ready with
  | reading aborted own => exact .reading aborted (by rw [still, own, rest, drain])
  | finished finished none =>
    exact .finished (still ▸ finished) fun b hb => none b (List.mem_cons_of_mem a hb)

theorem joined_receive_bytes (k : Capture) (s : Stream) (piece : Bytes) :
    joined (k.receive (.bytes s piece)).lines.reverse =
      joined k.lines.reverse ++ ((k.drain s).feed piece).2.flatten := by
  rw [Capture.receive_bytes, List.reverse_append, List.reverse_reverse, joined_append, joined_map]

theorem joined_receive_ended (k : Capture) (s : Stream) :
    joined (k.receive (.ended s)).lines.reverse =
      joined k.lines.reverse ++ (k.drain s).finish.flatten := by
  rw [Capture.receive_ended, List.reverse_append, List.reverse_reverse, joined_append, joined_map]

/-- What arrives is taken by its reader, which puts the lines that a capture makes of it. -/
theorem exists_works_bytes {piece rest : Bytes} {d : Drain} {aborted : Bool} (free : c.lock = none)
    (own : c.reader s = ⟨piece ++ rest, [], d, .reading, aborted⟩) :
    ∃ c', Works s c c' ⟨rest, [], (d.feed piece).1, .reading, aborted⟩
      (d.feed piece).2.flatten := by
  by_cases full : piece = []
  · subst full
    exact exists_works_block free own
  · have moves : (c.reader s).move (.read piece.length) =
        some ⟨rest, piece, d, .reading, aborted⟩ := by
      have some : 0 < piece.length := List.length_pos_iff.mpr full
      simp [Reader.move, own, Reader.isIdle, some]
    have read := works_move moves
    obtain ⟨c', block⟩ := exists_works_block (read.lock.trans free) read.own
    exact ⟨c', read.trans block⟩

theorem exists_works_end {d : Drain} {aborted : Bool} (free : c.lock = none)
    (own : c.reader s = ⟨[], [], d, .reading, aborted⟩) :
    ∃ c' r, Works s c c' r d.finish.flatten ∧ r.stage.isFinished = true := by
  have closes (c : Readers) (own : c.reader s = ⟨[], [], .start, .reading, aborted⟩) :
      Works s c (c.setReader s ⟨[], [], .start, .finished true, aborted⟩)
        ⟨[], [], .start, .finished true, aborted⟩ [] := by
    apply works_move (m := .close)
    simp [Reader.move, own, Reader.isIdle, Drain.start]
  obtain ⟨held⟩ := d
  by_cases none : held = []
  · subst none
    exact ⟨_, ⟨[], [], .start, .finished true, aborted⟩, closes c own, rfl⟩
  · have moves : (c.reader s).move .close =
        some ⟨[], [], .start, .waiting held.reverse, aborted⟩ := by
      simp [Reader.move, own, Reader.isIdle, none]
    have closed := works_move moves
    obtain ⟨c₁, puts⟩ := exists_works_put (by rw [closed.own]) (closed.lock.trans free)
    rw [closed.own] at puts
    have all := (closed.trans puts).trans (closes c₁ puts.own)
    have put : [] ++ normalLine held.reverse ++ [] = (Drain.mk held).finish.flatten := by
      simp [Drain.finish, none]
    exact ⟨_, _, put ▸ all, rfl⟩

theorem exists_works_arrival {a : Arrival} {as : List Arrival} (free : c.lock = none)
    (ready : ∀ s, Ready left k (a :: as) c s) (orderly : Orderly left (a :: as)) :
    ∃ left' c' r put, Works a.stream c c' r put ∧ (∀ s, Ready left' (k.receive a) as c' s) ∧
      Orderly left' as ∧ joined (k.receive a).lines.reverse = joined k.lines.reverse ++ put := by
  cases a with
  | bytes s piece =>
    obtain ⟨rest, split, later⟩ := orderly
    cases ready s with
    | finished finished none => exact absurd rfl (none _ List.mem_cons_self)
    | reading aborted own =>
      obtain ⟨c', works⟩ := exists_works_bytes free (split ▸ own)
      refine ⟨_, c', _, _, works, fun t => ?_, later, joined_receive_bytes k s piece⟩
      by_cases same : t = s
      · refine .reading aborted ?_
        rw [same, works.own, if_pos rfl, Capture.drain_receive_bytes, if_pos rfl]
      · exact (ready t).of_other (if_neg same)
          (by rw [Capture.drain_receive_bytes, if_neg same]) (works.others t same)
  | ended s =>
    obtain ⟨none, last, later⟩ := orderly
    cases ready s with
    | finished finished none => exact absurd rfl (none _ List.mem_cons_self)
    | reading aborted own =>
      obtain ⟨c', r, works, finished⟩ := exists_works_end free (none ▸ own)
      refine ⟨left, c', r, _, works, fun t => ?_, later, joined_receive_ended k s⟩
      by_cases same : t = s
      · subst same
        exact .finished (works.own ▸ finished) last
      · exact (ready t).of_other rfl
          (by rw [Capture.drain_receive_ended, if_neg same]) (works.others t same)

theorem exists_works_cut
    (going : (c.reader s).isWaiting = true ∨ (c.reader s).stage.isFinished = true)
    (told : (c.reader s).aborted = true) :
    ∃ c' r, Works s c c' r [] ∧ r.stage.isFinished = true := by
  rcases going with waits | finished
  · refine ⟨_, { c.reader s with stage := .finished false }, works_move (m := .cut) ?_, rfl⟩
    simp [Reader.move, told, waits]
  · exact ⟨c, _, .refl s c, finished⟩

/-- When nothing more arrives, the bench can end the readers and take the text. -/
theorem exists_run_taken (free : c.lock = none) (running : c.phase = .running)
    (ready : ∀ s, (c.reader s).isWaiting = true ∨ (c.reader s).stage.isFinished = true) :
    ∃ es c', c.run es = some c' ∧ c'.phase = .taken (.ofList c.text) := by
  let told := { (c.abort .stdout).abort .stderr with phase := .joining .stdout }
  have left : c.step (.leave true) = some told := by
    simp only [step, running, if_true]
    rfl
  obtain ⟨c₁, r₁, first, finished₁⟩ := exists_works_cut (c := told) (s := .stdout)
    (ready .stdout) rfl
  have waits : (c₁.reader .stderr) = { c.reader .stderr with aborted := true } :=
    first.others .stderr (by decide)
  obtain ⟨c₂, r₂, second, finished₂⟩ := exists_works_cut (c := c₁) (s := .stderr)
    (waits ▸ ready .stderr) (waits ▸ rfl)
  obtain ⟨es, cuts⟩ := first.run
  obtain ⟨fs, cuts'⟩ := second.run
  have outFinished : (c₂.reader .stdout).stage.isFinished = true := by
    rw [second.others .stdout (by decide), first.own, finished₁]
  have errFinished : (c₂.reader .stderr).stage.isFinished = true := by rw [second.own, finished₂]
  have joining : c₂.phase = .joining .stdout := second.phase.trans first.phase
  have vacant : c₂.lock = none := (second.lock.trans first.lock).trans free
  have text : c₂.text = c.text := by
    rw [second.text, first.text, List.append_nil, List.append_nil]
    rfl
  have last : c₂.run [.join, .join, .take] = some { c₂ with phase := .taken (.ofList c.text) } := by
    simp [run, step, joining, outFinished, errFinished, Phase.after, vacant, text]
  refine ⟨.leave true :: (es ++ (fs ++ [.join, .join, .take])),
    { c₂ with phase := .taken (.ofList c.text) }, ?_, rfl⟩
  rw [run, left, Option.bind_some, run_append, cuts, Option.bind_some, run_append, cuts',
    Option.bind_some, last]

/-- Every capture of arrivals from the streams is what some schedule takes. -/
theorem exists_run_of_arrivals {as : List Arrival} (free : c.lock = none)
    (running : c.phase = .running) (text : c.text = joined k.lines.reverse)
    (ready : ∀ s, Ready left k as c s) (orderly : Orderly left as) :
    ∃ es c', c.run es = some c' ∧ c'.phase = .taken (k.receiveAll as).text := by
  induction as generalizing left k c with
  | nil =>
    obtain ⟨es, c', run, taken⟩ := exists_run_taken free running fun s => by
      cases ready s with
      | reading aborted own =>
        refine .inl ?_
        rw [own]
        rfl
      | finished finished none => exact .inr finished
    refine ⟨es, c', run, ?_⟩
    rw [taken, text]
    rfl
  | cons a as ih =>
    obtain ⟨left', c₁, r, put, works, ready', orderly', lines⟩ :=
      exists_works_arrival free ready orderly
    obtain ⟨es, c', run, taken⟩ := ih (works.lock.trans free) (works.phase.trans running)
      (by rw [works.text, text, lines]) ready' orderly'
    obtain ⟨first, begins⟩ := works.run
    refine ⟨first ++ es, c', ?_, taken⟩
    rw [run_append, begins, Option.bind_some, run]

/-- The texts that are taken from two streams are those that a capture makes of what can arrive. -/
theorem taken_iff_received (streams : Stream → Bytes) (text : String) :
    (∃ es c, (start streams).run es = some c ∧ c.phase = .taken text) ↔
      ∃ as, Orderly streams as ∧ text = (Capture.start.receiveAll as).text := by
  constructor
  · rintro ⟨es, c, run, taken⟩
    obtain ⟨merged, sound⟩ := exists_sound_of_run run
    obtain ⟨as, orderly, made⟩ := exists_arrivals_of_lines fun s => (sound.readers s).le
    exact ⟨as, orderly, by rw [made, sound.taken text taken, sound.text_of_taken taken]⟩
  · rintro ⟨as, orderly, rfl⟩
    exact exists_run_of_arrivals rfl rfl rfl
      (fun s => .reading false (by cases s <;> rfl)) orderly

end Readers

end TestBench.Child
