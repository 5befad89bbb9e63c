import TestBench.Proofs.Run.Turn
/-!
# The failure of a run

A run fails at the first item that is refused, and leaves everything as the items before it left
it. How a child ends, and whether its log can be written, is no cause: a run that does not fail has
dealt with every row of its plan.
-/
namespace TestBench

namespace Plan

def Item.row? : Item → Option Row
  | .ok (.row row) => some row
  | _ => none

def Item.malformed? : Item → Option Malformed
  | .ok (.malformed m) => some m
  | _ => none

def rows (lines : List Item) : List Row := lines.filterMap Item.row?

def malformed (lines : List Item) : List Malformed := lines.filterMap Item.malformed?

def enabledRows (lines : List Item) : List Row := (rows lines).filter (·.isEnabled)

def disabledRows (lines : List Item) : List Row := (rows lines).filter (!·.isEnabled)

variable {row : Row} {xs ys : List Item}

theorem rows_append : rows (xs ++ ys) = rows xs ++ rows ys := List.filterMap_append

theorem rows_row (row : Row) : rows [.ok (.row row)] = [row] := rfl

theorem malformed_append : malformed (xs ++ ys) = malformed xs ++ malformed ys :=
  List.filterMap_append

theorem enabledRows_append : enabledRows (xs ++ ys) = enabledRows xs ++ enabledRows ys := by
  rw [enabledRows, rows_append, List.filter_append]
  rfl

theorem disabledRows_append : disabledRows (xs ++ ys) = disabledRows xs ++ disabledRows ys := by
  rw [disabledRows, rows_append, List.filter_append]
  rfl

theorem enabledRows_on (on : row.isEnabled = true) : enabledRows [.ok (.row row)] = [row] :=
  List.filter_eq_self.mpr (by simpa [rows_row] using on)

theorem enabledRows_off (off : row.isEnabled = false) : enabledRows [.ok (.row row)] = [] :=
  List.filter_eq_nil_iff.mpr (by simpa [rows_row] using off)

theorem disabledRows_on (on : row.isEnabled = true) : disabledRows [.ok (.row row)] = [] :=
  List.filter_eq_nil_iff.mpr (by simpa [rows_row] using on)

theorem disabledRows_off (off : row.isEnabled = false) : disabledRows [.ok (.row row)] = [row] :=
  List.filter_eq_self.mpr (by simpa [rows_row] using off)

end Plan

namespace Run

variable {s : Setup} {p q t : Progress} {item : Plan.Item} {lines : List Plan.Item}

/-- What a run over some items has counted and started: every row and every malformed line counts
once, and every row that is to be executed is launched once, with its own command. -/
structure Tally (s : Setup) (lines : List Plan.Item) (p q : Progress) : Prop where
  rows : q.summary.rows = p.summary.rows + (Plan.rows lines).length
  executed : q.summary.executed = p.summary.executed + (Plan.enabledRows lines).length
  notExecuted : q.summary.notExecuted = p.summary.notExecuted + (Plan.disabledRows lines).length
  malformed : q.summary.malformed = p.summary.malformed + (Plan.malformed lines).length
  launches : ∃ ls, q.launches = p.launches ++ ls ∧
    ls.map (fun l => Except.ok l.invocation) = (Plan.enabledRows lines).map fun row =>
      Invocation.make s.config.runner s.env row s.context

theorem Tally.nil (s : Setup) (p : Progress) : Tally s [] p p :=
  ⟨rfl, rfl, rfl, rfl, [], (List.append_nil _).symm, rfl⟩

theorem Tally.append {xs ys : List Plan.Item} (first : Tally s xs p q) (second : Tally s ys q t) :
    Tally s (xs ++ ys) p t := by
  obtain ⟨ls, hl, hi⟩ := first.launches
  obtain ⟨ms, hm, hj⟩ := second.launches
  refine ⟨?_, ?_, ?_, ?_, ls ++ ms, ?_, ?_⟩
  · rw [second.rows, first.rows, Plan.rows_append, List.length_append, Nat.add_assoc]
  · rw [second.executed, first.executed, Plan.enabledRows_append, List.length_append,
      Nat.add_assoc]
  · rw [second.notExecuted, first.notExecuted, Plan.disabledRows_append, List.length_append,
      Nat.add_assoc]
  · rw [second.malformed, first.malformed, Plan.malformed_append, List.length_append,
      Nat.add_assoc]
  · rw [hm, hl, List.append_assoc]
  · rw [List.map_append, hi, hj, Plan.enabledRows_append, List.map_append]

/-- An executed row counts as such, however its child has ended. -/
theorem record_launch (t : Summary) (l : Launch) :
    (t.record l.outcome).rows = t.rows ∧ (t.record l.outcome).executed = t.executed + 1 ∧
      (t.record l.outcome).notExecuted = t.notExecuted ∧
      (t.record l.outcome).malformed = t.malformed := by
  unfold Launch.outcome
  cases l.report.result with
  | ok exit =>
    dsimp only [Summary.record, Summary.countProblem]
    split <;> exact ⟨rfl, rfl, rfl, rfl⟩
  | error e => exact ⟨rfl, rfl, rfl, rfl⟩

theorem Tally.of_done (h : Done s p item q) : Tally s [item] p q := by
  cases h with
  | malformed m => exact ⟨rfl, rfl, rfl, rfl, [], (List.append_nil _).symm, rfl⟩
  | @enabled row i on known =>
    obtain ⟨hr, he, hn, hm⟩ := record_launch { p.summary with rows := p.summary.rows + 1 }
      (s.launch (p.summary.rows + 1) i p.files)
    rw [← afterEnabled_summary] at hr he hn hm
    refine ⟨hr, ?_, ?_, hm, _, afterEnabled_launches s row i p, ?_⟩
    · rw [he, Plan.enabledRows_on on]
      rfl
    · rw [hn, Plan.disabledRows_on on]
      rfl
    · rw [Plan.enabledRows_on on, List.map_singleton, List.map_singleton, known]
      rfl
  | disabled off opened written =>
    refine ⟨rfl, ?_, ?_, rfl, [], (List.append_nil _).symm, ?_⟩
    · rw [Plan.enabledRows_off off]
      rfl
    · rw [Plan.disabledRows_off off]
      rfl
    · rw [Plan.enabledRows_off off]
      rfl

theorem Tally.of_pull (h : Tally s lines (p.pull s.stop) q) : Tally s lines p q := by
  obtain ⟨rows, executed, notExecuted, malformed, ls, hl, hi⟩ := h
  rw [Progress.pull_summary] at rows executed notExecuted malformed
  rw [Progress.pull_launches] at hl
  exact ⟨rows, executed, notExecuted, malformed, ls, hl, hi⟩

theorem Tally.of_takeItem (h : takeItem s item p = .onward q) : Tally s [item] p q := by
  cases hs : (p.pull s.stop).stopped with
  | true =>
    rw [takeItem_seen hs] at h
    cases h
  | false =>
    rw [takeItem_unseen hs] at h
    exact .of_pull (.of_done (process_onward h))

theorem Tally.of_advance (h : advance s lines p = .onward q) : Tally s lines p q := by
  induction lines generalizing p with
  | nil =>
    obtain rfl := Turn.onward.inj h
    exact .nil s p
  | cons item rest ih =>
    obtain ⟨t, ht, left⟩ := onward_of_cons h
    exact (Tally.of_takeItem ht).append (ih left)

/-- A run without a request to stop reaches an item in a state: all items before are dealt with. -/
structure Reaches (s : Setup) (lines : List Plan.Item) (p : Progress) (item : Plan.Item)
    (q : Progress) (done : List Plan.Item) : Prop where
  split : ∃ rest, lines = done ++ item :: rest
  onward : advance s done p = .onward q

theorem Reaches.items_failed {done : List Plan.Item} {f : Failure} (quiet : s.stop.Silent)
    (going : p.stopped = false) (h : Reaches s lines p item q done)
    (refused : Refusal s q.files item f) :
    items s lines p = .failed f ((q.pull s.stop).shown item) := by
  obtain ⟨⟨rest, rfl⟩, onward⟩ := h
  have unseen : (q.pull s.stop).stopped = false := by
    rw [Progress.pull_silent quiet]
    exact (advance_stopped quiet going onward : q.stopped = false)
  have taken : takeItem s item q = .failed f ((q.pull s.stop).shown item) := by
    rw [takeItem_unseen unseen]
    apply process_refused
    rw [Progress.pull_files]
    exact refused
  rw [items_eq_finish, advance_append _ onward]
  simp only [advance, taken, Turn.finish]

/-- A run deals with all its items, or it reaches one that is refused. -/
theorem advance_cases (quiet : s.stop.Silent) (lines : List Plan.Item)
    (going : p.stopped = false) :
    (∃ q, advance s lines p = .onward q) ∨
      ∃ done item q f, Reaches s lines p item q done ∧ Refusal s q.files item f := by
  induction lines generalizing p with
  | nil => exact .inl ⟨p, rfl⟩
  | cons item rest ih =>
    have ht := takeItem_silent quiet going item
    -- An item is refused or done by the files alone, so how many were taken does not matter.
    rcases process_cases s item { p with taken := p.taken + 1 } with ⟨t, hp, _⟩ | ⟨f, hr⟩
    · rw [hp] at ht
      rcases ih ((process_stopped quiet hp).trans going) with
        ⟨q, hq⟩ | ⟨done, last, q, f, ⟨⟨after, split⟩, hq⟩, hr⟩
      · exact .inl ⟨q, (advance_cons s item rest ht).trans hq⟩
      · refine .inr ⟨item :: done, last, q, f, ⟨⟨after, ?_⟩, ?_⟩, hr⟩
        · rw [split, List.cons_append]
        · exact (advance_cons s item done ht).trans hq
    · exact .inr ⟨[], item, p, f, ⟨⟨rest, rfl⟩, rfl⟩, hr⟩

theorem exists_reaches_of_failed {f : Failure} (quiet : s.stop.Silent) (going : p.stopped = false)
    (h : items s lines p = .failed f t) :
    ∃ done item q, Reaches s lines p item q done ∧ Refusal s q.files item f ∧
      t = (q.pull s.stop).shown item := by
  rcases advance_cases quiet lines going with ⟨q, hq⟩ | ⟨done, item, q, g, reached, refused⟩
  · rw [items_eq_finish, hq] at h
    cases h
  · rw [reached.items_failed quiet going refused] at h
    cases h
    exact ⟨done, item, q, reached, refused, rfl⟩

theorem advance_of_completed (quiet : s.stop.Silent) (going : p.stopped = false)
    (h : items s lines p = .completed t) : ∃ q, advance s lines p = .onward q ∧ t = q.close := by
  rcases advance_cases quiet lines going with ⟨q, hq⟩ | ⟨done, item, q, f, reached, refused⟩
  · rw [items_eq_finish, hq] at h
    exact ⟨q, hq, (Finish.completed.inj h).symm⟩
  · rw [reached.items_failed quiet going refused] at h
    cases h

/-- A run without a request to stop fails exactly if it reaches an item that is refused, with the
failure of the first such item; the files and the children started are those of the items before.
Otherwise it deals with every row, however the children end and whatever becomes of their logs. -/
theorem run_fails_iff_refused (s : Setup) (quiet : s.stop.Silent) (lines : List Plan.Item)
    (fs : FileSystem) :
    ((∃ f t, items s lines (.start fs) = .failed f t) ↔
      ∃ done item q f, Reaches s lines (.start fs) item q done ∧ Refusal s q.files item f) ∧
    (∀ f t, items s lines (.start fs) = .failed f t →
      ∃ done item q, Reaches s lines (.start fs) item q done ∧ Refusal s q.files item f ∧
        (∀ done' item' q', Reaches s done (.start fs) item' q' done' →
          ∀ g, ¬ Refusal s q'.files item' g) ∧
        t.files = q.files ∧ t.launches = q.launches ∧ Tally s done (.start fs) q) ∧
    ((∀ done item q f, Reaches s lines (.start fs) item q done → ¬ Refusal s q.files item f) →
      ∃ t, items s lines (.start fs) = .completed t ∧ Tally s lines (.start fs) t) := by
  have onlyIf : ∀ f t, items s lines (.start fs) = .failed f t →
      ∃ done item q, Reaches s lines (.start fs) item q done ∧ Refusal s q.files item f ∧
        t = (q.pull s.stop).shown item := fun f t h => exists_reaches_of_failed quiet rfl h
  refine ⟨⟨?_, ?_⟩, ?_, ?_⟩
  · rintro ⟨f, t, h⟩
    obtain ⟨done, item, q, hq, hr, _⟩ := onlyIf f t h
    exact ⟨done, item, q, f, hq, hr⟩
  · rintro ⟨done, item, q, f, hq, hr⟩
    exact ⟨f, _, hq.items_failed quiet rfl hr⟩
  · intro f t h
    obtain ⟨done, item, q, hq, hr, rfl⟩ := onlyIf f t h
    refine ⟨done, item, q, hq, hr, ?_, ?_, ?_, .of_advance hq.onward⟩
    · intro done' item' q' hq' g hg
      have hf := hq'.items_failed quiet rfl hg
      rw [items_eq_finish, hq.onward] at hf
      cases hf
    · rw [Progress.shown_files, Progress.pull_files]
    · rw [Progress.shown_launches, Progress.pull_launches]
  · intro h
    rcases advance_cases (p := .start fs) quiet lines rfl with
      ⟨q, hq⟩ | ⟨done, item, q, f, reached, refused⟩
    · obtain ⟨rows, executed, notExecuted, malformed, launches⟩ := Tally.of_advance hq
      refine ⟨q.close, ?_, rows, executed, notExecuted, malformed, launches⟩
      rw [items_eq_finish, hq, Turn.finish]
    · exact absurd refused (h done item q f reached)

theorem run_fails_iff_refused_of_unreadable :
    ∃ f t, items ⟨[], .standard, ⟨"", [], []⟩, .alike fun fs _ _ _ => ⟨.error .notUtf8, "", fs, 0⟩,
        .never⟩ [.ok (.malformed ⟨1, 1, "x"⟩), .error (.planUnreadable [] .notUtf8),
          .ok (.malformed ⟨2, 1, "y"⟩)] (.start ⟨[], [], 0, []⟩) = .failed f t := by
  have fails := (run_fails_iff_refused
    ⟨[], .standard, ⟨"", [], []⟩, .alike fun fs _ _ _ => ⟨.error .notUtf8, "", fs, 0⟩, .never⟩
    StopRequest.never_silent [.ok (.malformed ⟨1, 1, "x"⟩), .error (.planUnreadable [] .notUtf8),
      .ok (.malformed ⟨2, 1, "y"⟩)] ⟨[], [], 0, []⟩).1
  refine fails.mpr ⟨[.ok (.malformed ⟨1, 1, "x"⟩)], .error (.planUnreadable [] .notUtf8), _,
    .planUnreadable [] .notUtf8, ⟨⟨_, rfl⟩, rfl⟩, ?_⟩
  exact .unreadable _

end Run
end TestBench
