import TestBench.Proofs.FileSystem.Renamed
import TestBench.Proofs.Run.Twins
/-!
# Runs side by side

Two runs of one plan that start from the same files under other numbers. If the children make
nothing of the numbers, the runs go on together item by item, and leave the same files.
-/
namespace TestBench

open FileSystem (Pairing Handle HandleAlike Renamed)

variable {ρ σ : Pairing} {fs new : FileSystem} {handle handle' : Handle}

namespace FileSystem

/-- The same files still: what was a pair is one, and there may be more pairs. -/
def StillRenamed (ρ : Pairing) (fs new : FileSystem) : Prop :=
  ∃ σ : Pairing, (∀ a b, ρ a b → σ a b) ∧ Renamed σ fs new

theorem Renamed.still (h : Renamed ρ fs new) : StillRenamed ρ fs new := ⟨ρ, fun _ _ p => p, h⟩

theorem StillRenamed.mono (h : StillRenamed σ fs new) (more : ∀ a b, ρ a b → σ a b) :
    StillRenamed ρ fs new := by
  obtain ⟨τ, wider, same⟩ := h
  exact ⟨τ, fun a b p => wider a b (more a b p), same⟩

theorem Renamed.writeLog (h : Renamed ρ fs new) (p : Path) (output : String) :
    StillRenamed ρ (Records.writeLog fs p output).2 (Records.writeLog new p output).2 := by
  unfold Records.writeLog
  rcases h.openWrite p with
    ⟨e, e', lost, lost'⟩ | ⟨handle, handle', opened, opened', σ, found, found', more, alike, same⟩
  · rw [lost, lost']
    exact h.still
  · rw [found, found']
    dsimp only
    rcases same.writeThrough alike (Utf8.ofText output) with
      ⟨e, full, full'⟩ | ⟨left, right, written, written', after⟩
    · rw [full, full']
      exact ⟨σ, more, same⟩
    · rw [written, written']
      exact ⟨σ, more, after⟩

/-- The line of a row that is not executed is added on both sides, or on neither. -/
theorem Renamed.appendNotExecuted (h : Renamed ρ fs new) (p : Path) (name : String) :
    (∃ f f', Records.appendNotExecuted fs p name = (some f, fs) ∧
        Records.appendNotExecuted new p name = (some f', new)) ∨
      ∃ left right, Records.appendNotExecuted fs p name = (none, left) ∧
        Records.appendNotExecuted new p name = (none, right) ∧ Renamed ρ left right := by
  unfold Records.appendNotExecuted
  rcases h.openAppend p with ⟨e, e', lost, lost'⟩ | ⟨handle, handle', found, found', alike⟩
  · rw [lost, lost']
    exact .inl ⟨_, _, rfl, rfl⟩
  · rw [found, found']
    dsimp only
    rcases h.writeThrough alike (Utf8.ofText (Records.notExecutedRow name ++ "\n")) with
      ⟨e, full, full'⟩ | ⟨left, right, written, written', after⟩
    · rw [full, full']
      exact .inl ⟨_, _, rfl, rfl⟩
    · rw [written, written']
      exact .inr ⟨left, right, rfl, rfl, after⟩

end FileSystem

namespace Plan.Reader

/-- A reader with its file open under another number. -/
def reopened (r : Reader) (handle : Handle) : Reader := { r with handle }

theorem nextFrom_reopened (content : Bytes) (r : Reader) (handle : Handle) :
    (r.reopened handle).nextFrom content =
      ((r.nextFrom content).1, (r.nextFrom content).2.reopened handle) := by
  fun_induction nextFrom content r with
  | case1 r t left hl =>
    have same : takeLine content (r.reopened handle).position (r.reopened handle).buffer = t := rfl
    rw [nextFrom, same, if_pos hl]
    rfl
  | case2 r t left hl hd =>
    have same : takeLine content (r.reopened handle).position (r.reopened handle).buffer = t := rfl
    rw [nextFrom, same, if_neg hl, hd]
    rfl
  | case3 r t left hl cs hd counted blank ih =>
    have same : takeLine content (r.reopened handle).position (r.reopened handle).buffer = t := rfl
    rw [nextFrom, same, if_neg hl, hd]
    dsimp only
    rw [if_pos blank]
    exact ih
  | case4 r t left hl cs hd counted blank =>
    have same : takeLine content (r.reopened handle).position (r.reopened handle).buffer = t := rfl
    rw [nextFrom, same, if_neg hl, hd]
    dsimp only
    rw [if_neg blank]
    rfl

/-- Readers of the same file give out the same, and stay readers of the same file. -/
theorem next_reopened (h : FileSystem.Paired ρ fs new) {r : Reader}
    (alike : HandleAlike ρ r.handle handle) :
    (r.reopened handle).next new = ((r.next fs).1, (r.next fs).2.reopened handle) := by
  unfold next
  rw [show (r.reopened handle).handle = handle from rfl, ← h.readAll alike]
  cases r.handle.readAll fs with
  | error e => rfl
  | ok content => exact nextFrom_reopened content r handle

end Plan.Reader

/-- Children that make nothing of the numbers of files: from the same files they print the same and
leave the same files. -/
def Child.Children.Uniform (children : Child.Children) : Prop :=
  ∀ ρ fs new number program args limit, Renamed ρ fs new →
    let here := children.ofRow number fs program args limit
    let there := children.ofRow number new program args limit
    here.output = there.output ∧ FileSystem.StillRenamed ρ here.files there.files

namespace Run

variable {s : Setup} {p q : Progress} {n : Nat} {r : Plan.Reader}

/-- Two moments of two runs with the same files and the same number of rows behind them. -/
structure Alongside (ρ : Pairing) (p q : Progress) : Prop where
  files : Renamed ρ p.files q.files
  rows : p.summary.rows = q.summary.rows
  calm : p.Calm ∧ q.Calm

/-- Two ends of the same kind, with the same files. -/
inductive Finish.Alongside (ρ : Pairing) : Finish → Finish → Prop where
  | completed {p q : Progress} (files : Renamed ρ p.files q.files) (calm : p.Calm ∧ q.Calm) :
      Finish.Alongside ρ (.completed p) (.completed q)
  | failed {p q : Progress} (f f' : Failure) (files : Renamed ρ p.files q.files) :
      Finish.Alongside ρ (.failed f p) (.failed f' q)
  | unfinished {p q : Progress} (files : Renamed ρ p.files q.files) :
      Finish.Alongside ρ (.unfinished p) (.unfinished q)

theorem Alongside.enabled (uniform : s.children.Uniform) (h : Alongside ρ p q) (row : Plan.Row)
    (i : Invocation) :
    FileSystem.StillRenamed ρ (afterEnabled s row i p).files (afterEnabled s row i q).files ∧
      (afterEnabled s row i p).summary.rows = (afterEnabled s row i q).summary.rows := by
  constructor
  · obtain ⟨printed, σ, more, left⟩ := uniform ρ p.files q.files (p.summary.rows + 1) i.program
      i.args s.config.timeoutMillis h.files
    rw [afterEnabled_files, afterEnabled_files, ← h.rows]
    have kept := left.writeLog
      (Records.logPath s.context.logDir (p.summary.rows + 1) row.displayName)
      (s.launch (p.summary.rows + 1) i p.files).report.output
    rw [show (s.launch (p.summary.rows + 1) i q.files).report.output =
      (s.launch (p.summary.rows + 1) i p.files).report.output from printed.symm]
    exact kept.mono more
  · rw [afterEnabled_summary, afterEnabled_summary, (record_launch _ _).1, (record_launch _ _).1,
      h.rows]

/-- What one run does about an item the other does as well. -/
theorem Alongside.process (uniform : s.children.Uniform) (quiet : s.stop.Silent)
    (h : Alongside ρ p q) (item : Plan.Item) :
    (∃ t u σ, process s item p = .onward t ∧ process s item q = .onward u ∧
        (∀ a b, ρ a b → σ a b) ∧ Alongside σ t u) ∨
      ∃ f f' t u, process s item p = .failed f t ∧ process s item q = .failed f' u ∧
        Renamed ρ t.files u.files := by
  match item with
  | .error f => exact .inr ⟨f, f, p, q, rfl, rfl, h.files⟩
  | .ok (.malformed m) => exact .inl ⟨_, _, ρ, rfl, rfl, fun _ _ p => p, h.files, h.rows, h.calm⟩
  | .ok (.row row) =>
    cases on : row.isEnabled with
    | true =>
      cases known : Invocation.make s.config.runner s.env row s.context with
      | error f =>
        have stops (p : Progress) :
            Run.process s (.ok (.row row)) p = .failed f (p.announce row) := by
          simp only [Run.process, takeRow, on, if_true, runEnabled, known]
        exact .inr ⟨f, f, _, _, stops p, stops q, h.files⟩
      | ok i =>
        obtain ⟨⟨σ, more, files⟩, rows⟩ := h.enabled uniform row i
        have onward := process_enabled on known p
        have onward' := process_enabled on known q
        exact .inl ⟨_, _, σ, onward, onward', more, files, rows, h.calm.1.process quiet onward,
          h.calm.2.process quiet onward'⟩
    | false =>
      rcases h.files.appendNotExecuted s.context.resultsPath row.displayName with
        ⟨f, f', failed, failed'⟩ | ⟨left, right, added, added', files⟩
      · have stops {p : Progress} {f : Failure}
            (failed : Records.appendNotExecuted p.files s.context.resultsPath row.displayName =
              (some f, p.files)) :
            Run.process s (.ok (.row row)) p = .failed f (p.announce row) := by
          simp only [Run.process, takeRow, on, Bool.false_eq_true, if_false, recordDisabled,
            Progress.announce_files, failed]
          rfl
        exact .inr ⟨f, f', _, _, stops failed, stops failed', h.files⟩
      · have onward := process_disabled (s := s) on added
        have onward' := process_disabled (s := s) on added'
        exact .inl ⟨_, _, ρ, onward, onward', fun _ _ p => p, files,
          congrArg (· + 1) h.rows, h.calm.1.process quiet onward, h.calm.2.process quiet onward'⟩

/-- The readers of the two runs have the same file open, and so the runs take the same items. -/
theorem Alongside.plan (uniform : s.children.Uniform) (quiet : s.stop.Silent)
    (h : Alongside ρ p q) (alike : HandleAlike ρ r.handle handle) :
    ∃ σ, Finish.Alongside σ (plan s n r p) (plan s n (r.reopened handle) q) := by
  induction n generalizing ρ r p q with
  | zero => exact ⟨ρ, .unfinished h.files⟩
  | succ n ih =>
    have same := Plan.Reader.next_reopened h.files.paired alike
    have kept := Plan.Reader.next_handle p.files r
    simp only [Run.plan, same]
    generalize r.next p.files = next at kept
    obtain ⟨item, left⟩ := next
    cases item with
    | none => exact ⟨ρ, .completed h.files h.calm⟩
    | some item =>
      have head : Alongside ρ { p with taken := p.taken + 1 } { q with taken := q.taken + 1 } :=
        ⟨h.files, h.rows, h.calm⟩
      simp only [takeItem_silent quiet h.calm.1.1 item, takeItem_silent quiet h.calm.2.1 item]
      rcases head.process uniform quiet item with
        ⟨t, u, σ, onward, onward', more, next⟩ | ⟨f, f', t, u, failed, failed', files⟩
      · simp only [onward, onward']
        refine ih next ?_
        rw [show left.handle = r.handle from kept]
        exact alike.mono more
      · simp only [failed, failed']
        exact ⟨ρ, .failed f f' files⟩

end Run
end TestBench
