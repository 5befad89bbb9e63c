import Mathlib.Data.List.Basic
import TestBench.Proofs.Child.Arrivals
/-!
# Readers that are cut off

A reader that is aborted, or whose stream cannot be read on, leaves what it has in hand: the line
that it has made and not put, and what it has read and not made into a line. All the rest of its
stream is in the text that is taken. So the text holds everything exactly if no reader had anything
in hand, which after a last line without a newline it has.
-/
namespace TestBench.Child

variable {streams : Stream → Bytes} {s t : Stream} {stream : Bytes} {r r' : Reader}
  {c c' : Readers} {merged : List (Stream × List Char)} {e : Event} {es : List Event}
  {m : Move} {text : String}

namespace Reader

/-- The lines that a reader has still to put; one that is over puts none. -/
def remaining (r : Reader) : List (List Char) := if r.stage.isFinished then [] else r.ahead

theorem remaining_of_going (going : r.stage.isFinished = false) : r.remaining = r.ahead :=
  if_neg (by rw [going]; decide)

theorem remaining_of_finished (finished : r.stage.isFinished = true) : r.remaining = [] :=
  if_pos finished

end Reader

namespace Readers

def cutsOff (s : Stream) (e : Event) : Bool := e = .move s .cut || e = .move s .fail

/-- What a reader has in hand if an event cuts it off. -/
def lost (s : Stream) (c : Readers) (e : Event) : List (List Char) :=
  if cutsOff s e then (c.reader s).ahead else []

/-- What a reader has in hand when it is cut off in a run. -/
def lostIn (s : Stream) (c : Readers) : List Event → List (List Char)
  | [] => []
  | e :: es => (c.step e).elim [] (·.lostIn s es) ++ c.lost s e

/-- A reader that does nothing on its own keeps all that it has, and is over if it was. -/
structure Aside (r r' : Reader) : Prop where
  unread : r'.unread = r.unread
  block : r'.block = r.block
  drain : r'.drain = r.drain
  finished : r'.stage.isFinished = r.stage.isFinished

theorem Aside.refl (r : Reader) : Aside r r := ⟨rfl, rfl, rfl, rfl⟩

theorem aside_setStage {stage : Stage} (same : stage.isFinished = (c.reader t).stage.isFinished)
    (s : Stream) : Aside (c.reader s) ((c.setStage t stage).reader s) := by
  by_cases own : s = t
  · rw [own, setStage_own]
    exact ⟨rfl, rfl, rfl, same⟩
  · rw [setStage_other own]
    exact .refl _

theorem aside_abort (c : Readers) (s t : Stream) :
    Aside (c.reader s) ((c.abort t).reader s) := by
  by_cases own : s = t
  · rw [own, abort, setReader_own]
    exact ⟨rfl, rfl, rfl, rfl⟩
  · rw [abort, setReader_other own]
    exact .refl _

theorem Aside.trans {q : Reader} (h : Aside q r) (g : Aside r r') : Aside q r' :=
  ⟨g.unread.trans h.unread, g.block.trans h.block, g.drain.trans h.drain,
    g.finished.trans h.finished⟩

theorem aside_of_other (step : c.step e = some c') (other : ∀ m, e ≠ .move s m) :
    Aside (c.reader s) (c'.reader s) := by
  cases stepped_of_step step with
  | @move t m r moved =>
    rw [setReader_other fun same => other m (by rw [same])]
    exact .refl _
  | lock waits => exact aside_setStage (c := { c with lock := _ }) (by rw [waits]; rfl) s
  | put holds => exact aside_setStage (c := { c with text := _ }) (by rw [holds]; rfl) s
  | release puts =>
    exact aside_setStage (c := { c with text := _, lock := _ }) (by rw [puts]; rfl) s
  | killed => exact (aside_abort c s .stdout).trans (aside_abort _ s .stderr)
  | expire => exact aside_abort c s _
  | exited | join | take => exact .refl _

theorem moved_of_own (step : c.step (.move s m) = some c') :
    (c.reader s).Moved m (c'.reader s) := by
  cases stepped_of_step step with
  | move moved => rwa [setReader_own]

end Readers

namespace Reader

/-- A move leaves a reader going, or brings it to the end of its stream, or cuts it off. -/
theorem Moved.ends (h : Moved r m r') :
    (r'.stage.isFinished = false ∧ m ≠ .cut ∧ m ≠ .fail) ∨
      (m = .close ∧ r'.stage = .finished true) ∨
      ((m = .cut ∨ m = .fail) ∧ r'.stage = .finished false) := by
  cases h with
  | read size reading => exact .inl ⟨by rw [reading]; rfl, nofun, nofun⟩
  | byte | line | last => exact .inl ⟨rfl, nofun, nofun⟩
  | ended => exact .inr (.inl ⟨rfl, rfl⟩)
  | failed => exact .inr (.inr ⟨.inr rfl, rfl⟩)
  | cut => exact .inr (.inr ⟨.inl rfl, rfl⟩)

theorem Moved.waits (h : Moved r .cut r') : r.isWaiting = true := by
  cases h with
  | cut told waits => exact waits

end Reader

namespace Readers

theorem linesOf_ended_of_finished (step : c.step e = some c')
    (finished : (c.reader s).stage.isFinished = true) : linesOf s (c.ended e) = [] := by
  cases stepped_of_step step with
  | @release t raw puts =>
    have other : t ≠ s := fun same => by
      rw [← same, puts] at finished
      cases finished
    rw [ended, puts]
    exact linesOf_other other _
  | move | lock | put | exited | killed | expire | join | take => rfl

theorem lost_of_spared (spared : cutsOff s e = false) : c.lost s e = [] :=
  if_neg (by rw [spared]; decide)

/-- What a reader has still to put is put, stays to be put, or is lost. -/
theorem remaining_step (h : Sound streams merged c) (step : c.step e = some c') (s : Stream) :
    (c.reader s).remaining =
      linesOf s (c.ended e) ++ ((c'.reader s).remaining ++ c.lost s e) := by
  have sound := (h.step step).readers s
  rw [linesOf_append] at sound
  -- A reader that goes on, or comes to the end of its stream, has put what it has not to put now.
  have onward (going : (c.reader s).stage.isFinished = false)
      (all : linesOf s merged ++ linesOf s (c.ended e) ++ (c'.reader s).remaining =
        lines (streams s)) (spared : cutsOff s e = false) :
      (c.reader s).remaining =
        linesOf s (c.ended e) ++ ((c'.reader s).remaining ++ c.lost s e) := by
    obtain ⟨_, before⟩ := (h.readers s).of_going going
    rw [lost_of_spared spared, List.append_nil, Reader.remaining_of_going going]
    rw [List.append_assoc] at all
    exact List.append_cancel_left (before.trans all.symm)
  have stays (going : (c'.reader s).stage.isFinished = false) :
      linesOf s merged ++ linesOf s (c.ended e) ++ (c'.reader s).remaining = lines (streams s) := by
    rw [Reader.remaining_of_going going]
    exact (sound.of_going going).2
  by_cases own : ∃ m, e = .move s m
  · obtain ⟨m, rfl⟩ := own
    have moved := moved_of_own step
    have going := moved.unlocked.2.2
    rcases moved.ends with ⟨going', notCut, notFail⟩ | ⟨rfl, ends⟩ | ⟨cut, ends⟩
    · exact onward going (stays going') (by simp [cutsOff, notCut, notFail])
    · refine onward going ?_ (by simp [cutsOff])
      rw [Reader.remaining_of_finished (by rw [ends]; rfl), List.append_nil]
      exact sound.whole_of_finished ends
    · rw [Reader.remaining_of_finished (r := c'.reader s) (by rw [ends]; rfl), List.nil_append,
        Reader.remaining_of_going going, lost, if_pos (by simpa [cutsOff] using cut)]
      rfl
  · have other : ∀ m, e ≠ .move s m := fun m same => own ⟨m, same⟩
    have spared : cutsOff s e = false := by simp [cutsOff, other]
    have aside := (aside_of_other step other).finished
    cases finished : (c.reader s).stage.isFinished with
    | true =>
      rw [Reader.remaining_of_finished finished, linesOf_ended_of_finished step finished,
        Reader.remaining_of_finished (aside.trans finished), lost_of_spared spared]
      rfl
    | false => exact onward finished (stays (aside.trans finished)) spared

theorem remaining_run (h : Sound streams merged c) (run : c.run es = some c') (s : Stream) :
    (c.reader s).remaining =
      linesOf s (c.endedIn es) ++ ((c'.reader s).remaining ++ c.lostIn s es) := by
  induction es generalizing c merged with
  | nil =>
    obtain rfl := Option.some.inj run
    exact (List.append_nil _).symm
  | cons e es ih =>
    obtain ⟨next, first, rest⟩ := Option.bind_eq_some_iff.mp run
    rw [remaining_step h first s, ih (h.step first) rest, endedIn, lostIn, first, Option.elim_some,
      Option.elim_some, linesOf_append]
    simp only [List.append_assoc]

/-- The lines of a stream are those that are put and those that are lost. -/
theorem put_and_lost (run : (start streams).run es = some c)
    (finished : (c.reader s).stage.isFinished = true) :
    linesOf s ((start streams).endedIn es) ++ (start streams).lostIn s es = lines (streams s) := by
  have all := remaining_run (sound_start streams) run s
  rw [Reader.remaining_of_finished finished, List.nil_append] at all
  exact all.symm

end Readers

namespace Reader

/-- What has been made into lines is whole lines: it ends with a newline, or is nothing. -/
def Within (stream : Bytes) (r : Reader) : Prop :=
  ∃ front, stream = front ++ r.rest ∧ ∀ b ∈ front.getLast?, b = lineFeed

theorem within_start (stream : Bytes) : (start stream).Within stream := ⟨[], rfl, nofun⟩

theorem Within.of_rest (h : r.Within stream) (same : r'.rest = r.rest) : r'.Within stream := by
  obtain ⟨front, split, last⟩ := h
  exact ⟨front, same ▸ split, last⟩

theorem Within.moved (h : r.Within stream) (moved : Moved r m r') (going : m ≠ .close) :
    r'.Within stream := by
  cases moved with
  | read size reading looked =>
    exact h.of_rest (by simp only [rest, looked, List.take_append_drop, List.nil_append])
  | byte reading next =>
    exact h.of_rest (by simp only [rest, next, List.reverse_cons, List.append_assoc,
      List.cons_append, List.nil_append])
  | line reading next =>
    obtain ⟨front, split, _⟩ := h
    refine ⟨front ++ r.drain.held.reverse ++ [lineFeed], ?_, by simp⟩
    simp only [split, rest, next, Drain.start, List.reverse_nil, List.append_assoc,
      List.cons_append, List.nil_append]
  | last | ended => exact absurd rfl going
  | failed | cut => exact h.of_rest rfl

/-- A reader that has read its whole stream and has not seen the end of it has nothing in hand
exactly if it has looked through all of it and the stream ends with a newline. -/
theorem ahead_eq_nil_iff (within : r.Within stream) (plain : lineFeed ∉ r.drain.held)
    (waits : r.isWaiting = true) (read : r.unread = []) :
    r.ahead = [] ↔ r.isIdle = true ∧ ∀ b ∈ stream.getLast?, b = lineFeed := by
  obtain ⟨front, split, last⟩ := within
  constructor
  · intro none
    obtain ⟨line, others⟩ := List.append_eq_nil_iff.mp none
    rw [lines_eq_nil.mp others, List.append_nil] at split
    refine ⟨?_, split ▸ last⟩
    unfold isWaiting at waits
    split at waits
    · rename_i raw stage
      rw [stage] at line
      cases line
    · exact waits
  · rintro ⟨idle, newline⟩
    obtain ⟨reading, looked⟩ := isIdle_iff.mp idle
    have rest : r.rest = r.drain.held.reverse := by
      rw [rest, looked, read, List.append_nil, List.append_nil]
    have none : r.rest = [] := by
      rw [rest]
      by_contra full
      obtain ⟨bytes, b, tail⟩ := List.eq_nil_or_concat' r.drain.held.reverse |>.resolve_left full
      rw [split, rest, tail, ← List.append_assoc, List.getLast?_concat] at newline
      have held : b ∈ r.drain.held := List.mem_reverse.mp (tail ▸ by simp)
      exact plain (newline b rfl ▸ held)
    rw [ahead, none, reading]
    rfl

end Reader

namespace Readers

theorem within_step (h : (c.reader s).Within stream) (step : c.step e = some c')
    (going : e ≠ .move s .close) : (c'.reader s).Within stream := by
  by_cases own : ∃ m, e = .move s m
  · obtain ⟨m, rfl⟩ := own
    exact h.moved (moved_of_own step) fun same => going (by rw [same])
  · have aside := aside_of_other step fun m same => own ⟨m, same⟩
    exact h.of_rest (by rw [Reader.rest, Reader.rest, aside.drain, aside.block, aside.unread])

theorem spared_of_going (step : c.step e = some c')
    (going : (c'.reader s).stage.isFinished = false) : cutsOff s e = false := by
  cases cuts : cutsOff s e with
  | false => rfl
  | true =>
    have ends {m : Move} (cut : m = .cut ∨ m = .fail) (moved : (c.reader s).Moved m (c'.reader s)) :
        False := by
      rcases moved.ends with ⟨_, notCut, notFail⟩ | ⟨rfl, _⟩ | ⟨_, ends⟩
      · exact cut.elim notCut notFail
      · exact cut.elim nofun nofun
      · rw [ends] at going
        cases going
    simp only [cutsOff, Bool.or_eq_true, decide_eq_true_eq] at cuts
    rcases cuts with rfl | rfl
    · exact (ends (.inl rfl) (moved_of_own step)).elim
    · exact (ends (.inr rfl) (moved_of_own step)).elim

theorem lostIn_of_finished (h : Sound streams merged c) (run : c.run es = some c')
    (finished : (c.reader s).stage.isFinished = true) : c.lostIn s es = [] := by
  have all := remaining_run h run s
  rw [Reader.remaining_of_finished finished] at all
  exact (List.append_eq_nil_iff.mp (List.append_eq_nil_iff.mp all.symm).2).2

/-- A reader that is over and has not seen the end of its stream was cut off, and has lost what it
had in hand then. -/
theorem exists_cut (h : Sound streams merged c) (within : (c.reader s).Within stream)
    (run : c.run es = some c') (going : (c.reader s).stage.isFinished = false)
    (finished : (c'.reader s).stage.isFinished = true) (endless : .move s .close ∉ es)
    (fine : .move s .fail ∉ es) :
    ∃ before after b, es = before ++ .move s .cut :: after ∧ c.run before = some b ∧
      (b.reader s).Within stream ∧ lineFeed ∉ (b.reader s).drain.held ∧
      (b.reader s).isWaiting = true ∧ c.lostIn s es = (b.reader s).ahead := by
  induction es generalizing c merged with
  | nil =>
    obtain rfl := Option.some.inj run
    rw [going] at finished
    cases finished
  | cons e es ih =>
    obtain ⟨next, first, rest⟩ := Option.bind_eq_some_iff.mp run
    simp only [List.mem_cons, not_or] at endless fine
    have lost : c.lostIn s (e :: es) = next.lostIn s es ++ c.lost s e := by
      rw [lostIn, first, Option.elim_some]
    cases final : (next.reader s).stage.isFinished with
    | false =>
      have within' := within_step within first (Ne.symm endless.1)
      obtain ⟨before, after, b, split, reaches, facts⟩ :=
        ih (h.step first) within' rest final endless.2 fine.2
      have spared := spared_of_going first final
      refine ⟨e :: before, after, b, by rw [split]; rfl, ?_, ?_⟩
      · rw [Readers.run, first, Option.bind_some, reaches]
      · rwa [lost, lost_of_spared spared, List.append_nil]
    | true =>
      have own : ∃ m, e = .move s m := by
        by_contra other
        have aside := (aside_of_other first fun m same => other ⟨m, same⟩).finished
        rw [going, final] at aside
        cases aside
      obtain ⟨m, rfl⟩ := own
      have moved := moved_of_own first
      rcases moved.ends with ⟨going', _⟩ | ⟨rfl, _⟩ | ⟨rfl | rfl, _⟩
      · rw [final] at going'
        cases going'
      · exact absurd rfl endless.1
      · refine ⟨[], es, c, rfl, rfl, within, ((h.readers s).of_going going).1, moved.waits, ?_⟩
        rw [lost, lostIn_of_finished (h.step first) rest final]
        exact if_pos (by simp [cutsOff])
      · exact absurd rfl fine.1

end Readers

theorem mem_linesOf {l : Stream × List Char} (there : l ∈ merged) : l.2 ∈ linesOf l.1 merged :=
  List.mem_map_of_mem (List.mem_filter.mpr ⟨there, decide_eq_true rfl⟩)

theorem length_linesOf (merged : List (Stream × List Char)) :
    (linesOf .stdout merged).length + (linesOf .stderr merged).length = merged.length := by
  induction merged with
  | nil => rfl
  | cons l merged ih =>
    obtain ⟨s, line⟩ := l
    rw [linesOf_cons, linesOf_cons]
    cases s with
    | stdout => simp only [if_true, reduceCtorEq, if_false, List.length_cons, ← ih]; omega
    | stderr => simp only [if_true, reduceCtorEq, if_false, List.length_cons, ← ih]; omega

/-- Lines of streams are counted by the newlines of the text that they make. -/
theorem count_joined (whole : ∀ s, linesOf s merged <+: lines (streams s)) :
    (joined merged).count '\n' = merged.length := by
  have each : ∀ l ∈ merged, (List.count '\n' ∘ (·.2)) l = 1 := by
    intro l there
    obtain ⟨front, line, plain⟩ := exists_of_mem_lines ((whole l.1).subset (mem_linesOf there))
    rw [Function.comp_apply, line, List.count_append, List.count_eq_zero_of_not_mem plain]
    rfl
  rw [joined, List.count_flatMap, List.map_congr_left each, List.map_const', List.sum_replicate_nat]
  exact Nat.mul_one _

/-- One text is not made of more lines and of less. -/
theorem length_eq_of_joined {others : List (Stream × List Char)}
    (same : joined merged = joined others) (whole : ∀ s, linesOf s merged <+: lines (streams s))
    (whole' : ∀ s, linesOf s others <+: lines (streams s)) : merged.length = others.length := by
  rw [← count_joined whole, ← count_joined whole', same]

namespace Readers

theorem whole_iff_of_put (put : ∀ s, linesOf s merged ++ c.lostIn s es = lines (streams s)) :
    (∃ whole, joined merged = joined whole ∧ ∀ s, linesOf s whole = lines (streams s)) ↔
      ∀ s, c.lostIn s es = [] := by
  constructor
  · rintro ⟨whole, same, all⟩ s
    have equal := length_eq_of_joined same (fun s => ⟨_, put s⟩) fun s => ⟨[], by
      rw [List.append_nil, all]⟩
    rw [← length_linesOf merged, ← length_linesOf whole, all, all, ← put .stdout, ← put .stderr,
      List.length_append, List.length_append] at equal
    cases s with
    | stdout => exact List.eq_nil_of_length_eq_zero (by omega)
    | stderr => exact List.eq_nil_of_length_eq_zero (by omega)
  · intro none
    refine ⟨merged, rfl, fun s => ?_⟩
    rw [← put s, none, List.append_nil]

/-- The text that is taken holds all lines of both streams but those that a reader had in hand when
it was cut off, so it holds everything exactly if none had. A reader that has come to the end of its
stream loses nothing. One that has not seen it loses the line that it has made and what it has not
made into lines; if by then it has read the whole stream, that is nothing exactly if it has looked
through all that it has read, does not wait to put a line, and the stream ends with a newline. -/
theorem taken_text_lacks_what_was_in_hand (streams : Stream → Bytes) (es : List Event)
    (c : Readers) (text : String) (run : (start streams).run es = some c)
    (taken : c.phase = .taken text) :
    (∃ merged, text = .ofList (joined merged) ∧
      ∀ s, linesOf s merged ++ (start streams).lostIn s es = lines (streams s)) ∧
    ((∃ merged, text = .ofList (joined merged) ∧ ∀ s, linesOf s merged = lines (streams s)) ↔
      ∀ s, (start streams).lostIn s es = []) ∧
    ∀ s, ((c.reader s).stage = .finished true → (start streams).lostIn s es = []) ∧
      (.move s .close ∉ es → .move s .fail ∉ es →
        ∃ before after b, es = before ++ .move s .cut :: after ∧
          (start streams).run before = some b ∧
          (start streams).lostIn s es = (b.reader s).ahead ∧
          ((b.reader s).unread = [] → ((start streams).lostIn s es = [] ↔
            (b.reader s).isIdle = true ∧ ∀ x ∈ (streams s).getLast?, x = lineFeed))) := by
  have sound := (sound_start streams).run run
  have finished (s : Stream) : (c.reader s).stage.isFinished = true :=
    sound.finished s (taken ▸ rfl)
  have made : text = .ofList (joined ((start streams).endedIn es)) := by
    rw [sound.taken text taken, sound.text_of_taken taken, List.nil_append]
  have put (s : Stream) := put_and_lost run (finished s)
  refine ⟨⟨_, made, put⟩, ?_, fun s => ⟨fun whole => ?_, fun endless fine => ?_⟩⟩
  · rw [← whole_iff_of_put put, made]
    simp only [String.ofList_inj]
  · have all := (sound.readers s).whole_of_finished whole
    rw [List.nil_append, ← put s] at all
    exact List.append_cancel_left ((List.append_nil _).trans all).symm
  · obtain ⟨before, after, b, split, reaches, within, plain, waits, lost⟩ :=
      exists_cut (sound_start streams) (Reader.within_start _) run rfl (finished s) endless fine
    refine ⟨before, after, b, split, reaches, lost, fun read => ?_⟩
    rw [lost]
    exact Reader.ahead_eq_nil_iff within plain waits read

namespace Held

/-- A last line without a newline. -/
def given : Stream → Bytes
  | .stdout => Utf8.ofText "started\nx"
  | .stderr => []

/-- The child leaves; the stream stays open, and everything that is in it is read. -/
def before : List Event :=
  .move .stdout (.read 9) :: List.replicate 8 (.move .stdout .scan) ++
    [.lock .stdout, .put .stdout, .release .stdout, .move .stdout .scan, .leave false]

def after : List Event :=
  [.move .stdout .cut, .join, .expire, .move .stderr .cut, .join, .take]

theorem run : ((start given).run before).map (fun b =>
    ((b.reader .stdout).unread, (b.reader .stderr).unread)) = some ([], []) := by
  decide +kernel

theorem run_expired : ((start given).run (before ++ .expire :: after)).map (fun c => c.phase) =
    some (.taken "started\n") := by
  decide +kernel

end Held

theorem taken_text_lacks_what_was_in_hand_of_held :
    ∃ c, (start Held.given).run (Held.before ++ .expire :: Held.after) = some c ∧
      c.phase = .taken "started\n" ∧
      ((∃ merged, "started\n" = .ofList (joined merged) ∧
        ∀ s, linesOf s merged = lines (Held.given s)) ↔
          ∀ s, (start Held.given).lostIn s (Held.before ++ .expire :: Held.after) = []) ∧
      (start Held.given).lostIn .stdout (Held.before ++ .expire :: Held.after) = [['x', '\n']] := by
  obtain ⟨c, run, taken⟩ := Option.map_eq_some_iff.mp Held.run_expired
  obtain ⟨_, whole, _⟩ := taken_text_lacks_what_was_in_hand _ _ c _ run taken
  exact ⟨c, run, taken, whole, by decide +kernel⟩

/-- A child leaves by itself, and everything that it has written has been read by the time the
readers are told to end. Its last line is lost, as a process that has the stream open hides that
nothing will follow it. -/
theorem read_line_is_lost :
    ∃ before after b c, (start Held.given).run before = some b ∧
      b.run (.expire :: after) = some c ∧ .leave false ∈ before ∧
      (∀ s, (b.reader s).unread = []) ∧ c.phase = .taken "started\n" ∧
      ¬∃ merged, "started\n" = .ofList (joined merged) ∧
        ∀ s, linesOf s merged = lines (Held.given s) := by
  obtain ⟨b, run, read⟩ := Option.map_eq_some_iff.mp Held.run
  obtain ⟨c, whole, taken⟩ := Option.map_eq_some_iff.mp Held.run_expired
  rw [run_append, run, Option.bind_some] at whole
  refine ⟨Held.before, Held.after, b, c, run, whole, by decide, fun s => ?_, taken, ?_⟩
  · cases s with
    | stdout => exact (Prod.mk.inj read).1
    | stderr => exact (Prod.mk.inj read).2
  · rintro ⟨merged, same, all⟩
    have count : (joined merged).count '\n' = merged.length :=
      count_joined fun s => ⟨[], by rw [List.append_nil, all s]⟩
    rw [← length_linesOf, all, all, ← @String.toList_ofList (joined merged), ← same] at count
    exact absurd count (by decide +kernel)

end Readers

end TestBench.Child
