import TestBench.Proofs.FileSystem.Growth
import TestBench.Proofs.Plan.Numbering
import TestBench.Proofs.Run.Commands
/-!
# The numbers that a run reports

A run reports lines of its plan with their numbers. An item that is no text ends it, so every line
that it reports is where its number says.
-/
namespace TestBench

open Console (Notice)
open Plan (fileLines itemsAlong numbers StandsIn)

/-- The line of the plan that a notice is about. -/
def Console.Notice.line? : Notice → Option Plan.Line
  | .malformed m => some (.malformed m)
  | .banner _ row => some (.row row)
  | .outcome row _ => some (.row row)
  | _ => none

namespace Run

variable {s : Setup} {p q : Progress} {item : Plan.Item} {line : Plan.Line}
  {P : Plan.Line → Prop}

/-- Of every line that has been reported a fact holds. -/
def Reports (P : Plan.Line → Prop) (p : Progress) : Prop :=
  ∀ n ∈ p.notices, ∀ line, n.line? = some line → P line

namespace Reports

theorem start (files : FileSystem) : Reports P (.start files) :=
  fun _ h => absurd h List.not_mem_nil

theorem tell (h : Reports P p) {n : Notice} (new : ∀ line, n.line? = some line → P line) :
    Reports P (p.tell n) := by
  intro m hm
  rcases List.mem_append.mp hm with hm | hm
  · exact h m hm
  · obtain rfl := List.mem_singleton.mp hm
    exact new

theorem tell_aside (h : Reports P p) {n : Notice} (aside : n.line? = none) :
    Reports P (p.tell n) :=
  h.tell fun line about => by
    rw [aside] at about
    cases about

theorem tell_line (h : Reports P p) {n : Notice} (about : n.line? = some line) (fits : P line) :
    Reports P (p.tell n) :=
  h.tell fun other same => by
    obtain rfl := Option.some.inj (about.symm.trans same)
    exact fits

theorem poll (h : Reports P p) (r : StopRequest) : Reports P (p.poll r) := by
  unfold Progress.poll
  split
  · exact h
  · split
    · dsimp only
      split
      · exact tell_aside (p := { p with stopped := true }) h rfl
      · exact h
    · exact h

theorem pull (h : Reports P p) (r : StopRequest) : Reports P (p.pull r) :=
  poll (p := { p with taken := p.taken + 1 }) h r

theorem settle (h : Reports P p) (s : Setup) : Reports P (settle s p) := by
  unfold Run.settle
  split
  · exact h
  · exact poll (p := { p with clock := p.clock + s.stop.pause p.moment s.config.settleMillis }) h _

theorem keepLog (h : Reports P p) (s : Setup) (number : Nat) (row : Plan.Row) (output : String) :
    Reports P (keepLog s number row output p) := by
  unfold Run.keepLog
  generalize Records.writeLog p.files (Records.logPath s.context.logDir number row.displayName)
    output = w
  obtain ⟨failure, files⟩ := w
  cases failure with
  | none => exact h
  | some f => exact tell_aside (p := { p with files }) h rfl

theorem announce {row : Plan.Row} (h : Reports P p) (fits : P (.row row)) :
    Reports P (p.announce row) :=
  tell_line (p := { p with summary := { p.summary with rows := p.summary.rows + 1 } }) h rfl fits

theorem conclude {row : Plan.Row} (h : Reports P p) (fits : P (.row row)) (o : Outcome) :
    Reports P (p.conclude row o) :=
  h.tell_line rfl fits

theorem done (h : Reports P p) (d : Done s p (.ok line) q) (fits : P line) : Reports P q := by
  cases d with
  | malformed m => exact h.tell_line rfl fits
  | @enabled row i on known =>
    have started := (h.announce fits).tell_aside (n := .command i) rfl
    let l := s.launch (p.summary.rows + 1) i p.files
    have ended : Reports P (((p.announce row).tell (.command i)).after l) := started
    exact (((ended.poll s.stop).keepLog s _ row _).conclude fits _).settle s
  | @disabled row handle files off opened written =>
    have told : Reports P { p.announce row with files } := h.announce fits
    exact told.conclude fits .notExecuted

theorem shown (h : Reports P p) (fits : ∀ line, item = .ok line → P line) :
    Reports P (p.shown item) := by
  match item with
  | .error f => exact h
  | .ok (.malformed m) => exact h
  | .ok (.row row) => exact h.announce (fits _ rfl)

end Reports

/-- A run reports no other lines than those that it takes from its plan. -/
theorem reports_of_plan {n : Nat} {r : Plan.Reader} (h : Reports P p)
    (fits : ∀ line, .ok line ∈ pulled s n r p → P line) :
    Reports P (plan s n r p).progress := by
  induction n generalizing r p with
  | zero => exact h
  | succ n ih =>
    simp only [plan, pulled] at fits ⊢
    generalize r.next p.files = next at fits ⊢
    obtain ⟨item, left⟩ := next
    cases item with
    | none => exact h
    | some item =>
      have first (line : Plan.Line) (he : item = .ok line) : P line := by
        apply fits
        rw [he]
        exact List.mem_cons_self
      cases seen : (p.pull s.stop).stopped with
      | true =>
        simp only [takeItem_seen seen]
        exact h.pull s.stop
      | false =>
        rcases process_cases s item (p.pull s.stop) with ⟨q, hq, d⟩ | ⟨f, hf⟩
        · simp only [takeItem_unseen seen, hq] at fits ⊢
          have later (line : Plan.Line) (hl : .ok line ∈ pulled s n left q) : P line :=
            fits line (List.mem_cons_of_mem item hl)
          refine ih ?_ later
          cases item with
          | error f => cases d
          | ok line => exact (h.pull s.stop).done d (first line rfl)
        · simp only [takeItem_unseen seen, process_refused hf]
          exact (h.pull s.stop).shown first

theorem prefix_pulled {n : Nat} {r : Plan.Reader} {content : Bytes}
    (steady : Steady s n r p content) : pulled s n r p <+: r.ahead content := by
  induction n generalizing r p with
  | zero => exact List.nil_prefix
  | succ n ih =>
    rcases Plan.Reader.next_cases (steady [] p List.nil_prefix rfl) with
      ⟨ahead, left, hn⟩ | ⟨item, left, hn, ahead, same⟩
    · simp only [pulled, hn, ahead]
      exact List.prefix_rfl
    · rw [ahead]
      cases taken : takeItem s item p with
      | onward q =>
        have split : pulled s (n + 1) r p = item :: pulled s n left q := by
          simp only [pulled, hn, taken]
        have later : Steady s n left q content := by
          intro done u front reached
          rw [same]
          apply steady (item :: done) u
          · rw [split]
            exact List.cons_prefix_cons.mpr ⟨rfl, front⟩
          · rw [advance_cons s item done taken]
            exact reached
        rw [split]
        exact List.cons_prefix_cons.mpr ⟨rfl, ih later⟩
      | interrupted q =>
        simp only [pulled, hn, taken]
        exact List.cons_prefix_cons.mpr ⟨rfl, List.nil_prefix⟩
      | failed f q =>
        simp only [pulled, hn, taken]
        exact List.cons_prefix_cons.mpr ⟨rfl, List.nil_prefix⟩

/-- An item that is no line is the last that a run takes: it fails with it, unless it has been
stopped before it looks at it. -/
theorem pulled_cases (s : Setup) (n : Nat) (r : Plan.Reader) (p : Progress) :
    ∃ lines : List Plan.Line, pulled s n r p = lines.map .ok ∨
      ∃ f, pulled s n r p = lines.map .ok ++ [.error f] ∧
        ((∃ q, plan s n r p = .failed f q) ∨
          ∃ q, plan s n r p = .completed q ∧ q.summary.interrupted = true) := by
  induction n generalizing r p with
  | zero => exact ⟨[], .inl rfl⟩
  | succ n ih =>
    simp only [plan, pulled]
    generalize r.next p.files = next
    obtain ⟨item, left⟩ := next
    cases item with
    | none => exact ⟨[], .inl rfl⟩
    | some item =>
      cases item with
      | error f =>
        refine ⟨[], .inr ⟨f, ?_⟩⟩
        cases seen : (p.pull s.stop).stopped with
        | true =>
          simp only [takeItem_seen seen]
          exact ⟨rfl, .inr ⟨_, rfl, rfl⟩⟩
        | false =>
          simp only [takeItem_unseen seen, process_refused (.unreadable f)]
          exact ⟨rfl, .inl ⟨_, rfl⟩⟩
      | ok line =>
        cases taken : takeItem s (.ok line) p with
        | onward q =>
          obtain ⟨lines, rest⟩ := ih left q
          refine ⟨line :: lines, ?_⟩
          simp only [taken]
          rcases rest with rest | ⟨f, rest, ends⟩
          · exact .inl (congrArg (.ok line :: ·) rest)
          · exact .inr ⟨f, congrArg (.ok line :: ·) rest, ends⟩
        | interrupted q =>
          simp only [taken]
          exact ⟨[line], .inl rfl⟩
        | failed f q =>
          simp only [taken]
          exact ⟨[line], .inl rfl⟩

theorem standsIn_of_pulled {n : Nat} {r : Plan.Reader} {path : Path} {content : Bytes}
    (whole : r.ahead content = Plan.itemsIn path content) (steady : Steady s n r p content)
    (h : .ok line ∈ pulled s n r p) : StandsIn (fileLines content) line := by
  obtain ⟨lines, rest⟩ := pulled_cases s n r p
  have mine : line ∈ lines := by
    have own {ls : List Plan.Line} (hl : (.ok line : Plan.Item) ∈ ls.map .ok) : line ∈ ls := by
      obtain ⟨other, ho, he⟩ := List.mem_map.mp hl
      exact Except.ok.inj he ▸ ho
    rcases rest with rest | ⟨f, rest, _⟩
    · rw [rest] at h
      exact own h
    · rw [rest] at h
      rcases List.mem_append.mp h with h | h
      · exact own h
      · cases List.mem_singleton.mp h
  -- The lines up to this one are the first items of the plan, whatever comes after them.
  have first : lines.map .ok <+: Plan.itemsIn path content := by
    rw [← whole]
    refine List.IsPrefix.trans ?_ (prefix_pulled steady)
    rcases rest with rest | ⟨f, rest, _⟩
    · rw [rest]
    · rw [rest]
      exact List.prefix_append _ _
  obtain ⟨front, back, rfl⟩ := List.append_of_mem mine
  obtain ⟨after, split⟩ := first
  rw [List.map_append, List.map_cons, List.append_assoc, List.cons_append] at split
  exact Plan.standsIn_of_itemsIn split.symm

/-- A plan that is a regular file can be read, and as long as it holds the same bytes its reader
gives out one item for each of its lines, in their order, and then nothing: the reason why a line is
no text, or else the fields of a line that is not blank, with a number that counts the texts up to
it. These numbers rise. A run over it takes nothing after an item that is no line, and every line
that it reports is where its number says. -/
theorem reader_numbers_lines {fs : FileSystem} {path : Path} {id : Nat} {x : Bool}
    (regular : fs.stat path = .ok (.file id x)) :
    ∃ r, Plan.Reader.open fs path = .ok r ∧
      (∀ files : Nat → FileSystem, (∀ k, (files k).content id = fs.content id) → ∀ k,
        ((r.after files k).next (files k)).1 =
          (itemsAlong path (fileLines (fs.content id)))[k]?) ∧
      (numbers (itemsAlong path (fileLines (fs.content id)))).Pairwise (· < ·) ∧
      ∀ s n left, Steady s n r (.start left) (fs.content id) →
        Reports (StandsIn (fileLines (fs.content id))) (plan s n r (.start left)).progress ∧
        ∃ lines : List Plan.Line, pulled s n r (.start left) = lines.map .ok ∨
          ∃ f, pulled s n r (.start left) = lines.map .ok ++ [.error f] ∧
            ((∃ t, plan s n r (.start left) = .failed f t) ∨
              ∃ t, plan s n r (.start left) = .completed t ∧ t.summary.interrupted = true) := by
  have opened : Plan.Reader.open fs path = .ok ⟨path, .file id, 0, [], 0⟩ := by
    rw [Plan.Reader.open, FileSystem.openRead_of_stat regular]
  have whole := Plan.Reader.ahead_open opened (fs.content id)
  refine ⟨_, opened, ?_, ?_, ?_⟩
  · intro files same k
    have held (k : Nat) : FileSystem.Handle.readAll (files k) (.file id) = .ok (fs.content id) :=
      congrArg Except.ok (same k)
    rw [← Plan.itemsIn_eq_itemsAlong, ← whole]
    exact Plan.Reader.next_after held k
  · rw [← Plan.itemsIn_eq_itemsAlong]
    exact (Plan.pairwise_numbers_itemsOf path 0 _).1
  · intro s n left steady
    exact ⟨reports_of_plan (.start left) fun line h => standsIn_of_pulled whole steady h,
      pulled_cases s n _ (.start left)⟩

namespace Torn

/-- Blank lines, ends of lines with a carriage return, a line that is no text, and no line end at
the end. -/
def content : Bytes :=
  Utf8.ofText "\r\na,none,1,2,off\r\n\nx\n" ++ 255 :: Utf8.ofText ",b\n \ny"

def files : FileSystem :=
  ⟨[([Utf8.ofText "p"], .file 0 false), ([Utf8.ofText "t_results.txt"], .file 1 false)],
    [(0, content), (1, [])], 2, []⟩

def setup : Setup :=
  ⟨[], .standard, ⟨"t", .ofText "logs/t", .ofText "t_results.txt"⟩,
    .alike fun fs _ _ _ => ⟨.error .notUtf8, "", fs, 0⟩, .never⟩

def reader : Plan.Reader := ⟨.ofText "p", .file 0, 0, [], 0⟩

def flaw : Failure := .planUnreadable (.ofText "p") .notUtf8

def items : List Plan.Item :=
  [.ok (.row ⟨2, "a", "none", "1", "2", "off"⟩), .ok (.malformed ⟨4, 1, "x"⟩), .error flaw,
    .ok (.malformed ⟨6, 1, "y"⟩)]

theorem steady : Steady setup 4 reader (.start files) content := by
  apply steady_of_heldAfter
  cbv

end Torn

/-- The line that is no text is not counted: after it the seventh line has the number six, and no
run reports it. -/
theorem reader_numbers_lines_of_torn :
    Plan.Reader.open Torn.files (.ofText "p") = .ok Torn.reader ∧
      (∀ k, ((Torn.reader.after (fun _ => Torn.files) k).next Torn.files).1 = Torn.items[k]?) ∧
      Reports (StandsIn (fileLines Torn.content))
        (plan Torn.setup 4 Torn.reader (.start Torn.files)).progress ∧
      ∃ t, plan Torn.setup 4 Torn.reader (.start Torn.files) = .failed Torn.flaw t := by
  have regular : Torn.files.stat (.ofText "p") = .ok (.file 0 false) := by cbv
  have opens : Plan.Reader.open Torn.files (.ofText "p") = .ok Torn.reader := by cbv
  have held : Torn.files.content 0 = Torn.content := rfl
  have given : itemsAlong (.ofText "p") (fileLines Torn.content) = Torn.items := by cbv
  obtain ⟨r, opened, reads, _, runs⟩ := reader_numbers_lines regular
  obtain rfl := Except.ok.inj (opens.symm.trans opened)
  rw [held, given] at reads
  refine ⟨opens, reads (fun _ => Torn.files) fun _ => rfl, ?_, ?_⟩
  · exact (runs Torn.setup 4 Torn.files Torn.steady).1
  · exact ⟨_, by cbv⟩

end Run
end TestBench
