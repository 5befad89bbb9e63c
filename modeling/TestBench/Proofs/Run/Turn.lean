import TestBench.Run.Loop
/-!
# Turns of a run

What one item of a plan does to the state of a run, one equation for each kind of item, and the
states that a run over a list of items passes through.
-/
namespace TestBench

def StopRequest.Silent (r : StopRequest) : Prop := ∀ m, r.made m = false

theorem StopRequest.never_silent : StopRequest.never.Silent := fun _ => rfl

theorem Records.appendNotExecuted_ok {fs files : FileSystem} {p : Path} {name : String}
    {h : FileSystem.Handle} (opened : fs.openAppend p = .ok h)
    (written : h.write fs (Utf8.ofText (notExecutedRow name ++ "\n")) = .ok files) :
    appendNotExecuted fs p name = (none, files) := by
  simp only [appendNotExecuted, opened, written]

namespace Run

variable {s : Setup} {r : StopRequest} {p q : Progress} {row : Plan.Row} {item : Plan.Item}

namespace Progress

theorem poll_fields (p : Progress) (r : StopRequest) :
    (p.poll r).files = p.files ∧ (p.poll r).launches = p.launches ∧
      (p.poll r).summary = p.summary ∧ (p.poll r).taken = p.taken ∧
      (p.poll r).clock = p.clock := by
  unfold poll
  split
  · exact ⟨rfl, rfl, rfl, rfl, rfl⟩
  · split
    · dsimp only
      split <;> exact ⟨rfl, rfl, rfl, rfl, rfl⟩
    · exact ⟨rfl, rfl, rfl, rfl, rfl⟩

@[simp] theorem poll_files (p : Progress) (r : StopRequest) : (p.poll r).files = p.files :=
  (poll_fields p r).1
@[simp] theorem poll_launches (p : Progress) (r : StopRequest) :
    (p.poll r).launches = p.launches := (poll_fields p r).2.1
@[simp] theorem poll_summary (p : Progress) (r : StopRequest) : (p.poll r).summary = p.summary :=
  (poll_fields p r).2.2.1

theorem poll_silent (quiet : r.Silent) (p : Progress) : p.poll r = p := by
  unfold poll
  rw [quiet p.moment]
  split <;> rfl

@[simp] theorem pull_files (p : Progress) (r : StopRequest) : (p.pull r).files = p.files := by
  rw [pull, poll_files]
@[simp] theorem pull_launches (p : Progress) (r : StopRequest) :
    (p.pull r).launches = p.launches := by
  rw [pull, poll_launches]
@[simp] theorem pull_summary (p : Progress) (r : StopRequest) : (p.pull r).summary = p.summary := by
  rw [pull, poll_summary]

theorem pull_silent (quiet : r.Silent) (p : Progress) :
    p.pull r = { p with taken := p.taken + 1 } :=
  poll_silent quiet _

@[simp] theorem announce_files (p : Progress) (row : Plan.Row) :
    (p.announce row).files = p.files := rfl
@[simp] theorem conclude_files (p : Progress) (row : Plan.Row) (o : Outcome) :
    (p.conclude row o).files = p.files := rfl
@[simp] theorem conclude_launches (p : Progress) (row : Plan.Row) (o : Outcome) :
    (p.conclude row o).launches = p.launches := rfl
@[simp] theorem conclude_stopped (p : Progress) (row : Plan.Row) (o : Outcome) :
    (p.conclude row o).stopped = p.stopped := rfl
@[simp] theorem conclude_summary (p : Progress) (row : Plan.Row) (o : Outcome) :
    (p.conclude row o).summary = p.summary.record o := rfl

end Progress

theorem settle_fields (s : Setup) (p : Progress) :
    (settle s p).files = p.files ∧ (settle s p).launches = p.launches ∧
      (settle s p).summary = p.summary := by
  unfold settle
  split
  · exact ⟨rfl, rfl, rfl⟩
  · exact ⟨Progress.poll_files _ _, Progress.poll_launches _ _, Progress.poll_summary _ _⟩

theorem keepLog_fields (s : Setup) (number : Nat) (row : Plan.Row) (output : String)
    (p : Progress) :
    (keepLog s number row output p).files =
        (Records.writeLog p.files (Records.logPath s.context.logDir number row.displayName)
          output).2 ∧
      (keepLog s number row output p).launches = p.launches ∧
      (keepLog s number row output p).summary = p.summary := by
  unfold keepLog
  generalize Records.writeLog p.files (Records.logPath s.context.logDir number row.displayName)
    output = w
  obtain ⟨failure, files⟩ := w
  cases failure <;> exact ⟨rfl, rfl, rfl⟩

theorem keepLog_kept {s : Setup} {number : Nat} {row : Plan.Row} {output : String} {p : Progress}
    {files : FileSystem} (kept : Records.writeLog p.files
      (Records.logPath s.context.logDir number row.displayName) output = (none, files)) :
    keepLog s number row output p = { p with files } := by
  simp only [keepLog, kept]

theorem Launch.outcome_ne (l : Launch) : l.outcome ≠ .notExecuted := by
  unfold Launch.outcome
  dsimp only
  split <;> exact Outcome.noConfusion

def afterEnabled (s : Setup) (row : Plan.Row) (i : Invocation) (p : Progress) : Progress :=
  let number := p.summary.rows + 1
  let l := s.launch number i p.files
  let ended := (((p.announce row).tell (.command i)).after l).poll s.stop
  settle s ((keepLog s number row l.report.output ended).conclude row l.outcome)

def afterDisabled (row : Plan.Row) (files : FileSystem) (p : Progress) : Progress :=
  { p.announce row with files }.conclude row .notExecuted

theorem afterEnabled_files (s : Setup) (row : Plan.Row) (i : Invocation) (p : Progress) :
    (afterEnabled s row i p).files =
      (Records.writeLog (s.launch (p.summary.rows + 1) i p.files).report.files
        (Records.logPath s.context.logDir (p.summary.rows + 1) row.displayName)
        (s.launch (p.summary.rows + 1) i p.files).report.output).2 := by
  simp only [afterEnabled, (settle_fields _ _).1, Progress.conclude_files, (keepLog_fields ..).1,
    Progress.poll_files]
  rfl

theorem afterEnabled_launches (s : Setup) (row : Plan.Row) (i : Invocation) (p : Progress) :
    (afterEnabled s row i p).launches =
      p.launches ++ [s.launch (p.summary.rows + 1) i p.files] := by
  simp only [afterEnabled, (settle_fields _ _).2.1, Progress.conclude_launches,
    (keepLog_fields ..).2.1, Progress.poll_launches]
  rfl

theorem afterEnabled_summary (s : Setup) (row : Plan.Row) (i : Invocation) (p : Progress) :
    (afterEnabled s row i p).summary =
      { p.summary with rows := p.summary.rows + 1 }.record
        (s.launch (p.summary.rows + 1) i p.files).outcome := by
  simp only [afterEnabled, (settle_fields _ _).2.2, Progress.conclude_summary,
    (keepLog_fields ..).2.2, Progress.poll_summary]
  rfl

@[simp] theorem afterDisabled_files (row : Plan.Row) (files : FileSystem) (p : Progress) :
    (afterDisabled row files p).files = files := rfl
def afterMalformed (m : Plan.Malformed) (p : Progress) : Progress :=
  { p.tell (.malformed m) with
    summary := { p.summary with malformed := p.summary.malformed + 1 } }

theorem process_enabled {i : Invocation} (on : row.isEnabled = true)
    (known : Invocation.make s.config.runner s.env row s.context = .ok i) (p : Progress) :
    process s (.ok (.row row)) p = .onward (afterEnabled s row i p) := by
  simp only [process, takeRow, on, if_true, runEnabled, known, Launch.outcome_ne, if_false]
  rfl

theorem process_disabled {files : FileSystem} (off : row.isEnabled = false)
    (added : Records.appendNotExecuted p.files s.context.resultsPath row.displayName =
      (none, files)) :
    process s (.ok (.row row)) p = .onward (afterDisabled row files p) := by
  simp only [process, takeRow, off, Bool.false_eq_true, if_false, recordDisabled,
    Progress.announce_files, added]
  rfl

/-- Why an item ends a run: it could not be read; the runner's program names a variable that is not
there; or the results file cannot be opened for the line of a row, or does not take it. -/
inductive Refusal (s : Setup) (fs : FileSystem) : Plan.Item → Failure → Prop where
  | unreadable (f : Failure) : Refusal s fs (.error f) f
  | undefined {row : Plan.Row} {name : String} (on : row.isEnabled = true)
      (missing : Expand.full s.env s.config.runner.program = .error name) :
      Refusal s fs (.ok (.row row)) (.programUndefined s.config.runner.program name)
  | unopened {row : Plan.Row} {e : IoError} (off : row.isEnabled = false)
      (closed : fs.openAppend s.context.resultsPath = .error e) :
      Refusal s fs (.ok (.row row)) (.resultsUnopened s.context.resultsPath e)
  | unwritten {row : Plan.Row} {h : FileSystem.Handle} {e : IoError} (off : row.isEnabled = false)
      (opened : fs.openAppend s.context.resultsPath = .ok h)
      (full : h.write fs (Utf8.ofText (Records.notExecutedRow row.displayName ++ "\n")) =
        .error e) :
      Refusal s fs (.ok (.row row)) (.rowUnwritten s.context.resultsPath e)

def Progress.shown (p : Progress) : Plan.Item → Progress
  | .ok (.row row) => p.announce row
  | _ => p

@[simp] theorem Progress.shown_files (p : Progress) (item : Plan.Item) :
    (p.shown item).files = p.files := by
  unfold shown
  split <;> rfl

@[simp] theorem Progress.shown_launches (p : Progress) (item : Plan.Item) :
    (p.shown item).launches = p.launches := by
  unfold shown
  split <;> rfl

/-- An item that ends the run has done nothing but show itself. -/
theorem process_refused {f : Failure} (h : Refusal s p.files item f) :
    process s item p = .failed f (p.shown item) := by
  cases h with
  | unreadable => rfl
  | undefined on missing =>
    simp only [process, takeRow, on, if_true, runEnabled, Invocation.make, missing, Progress.shown]
  | unopened off closed =>
    simp only [process, takeRow, off, Bool.false_eq_true, if_false, recordDisabled,
      Progress.announce_files, Records.appendNotExecuted, closed]
    rfl
  | unwritten off opened full =>
    simp only [process, takeRow, off, Bool.false_eq_true, if_false, recordDisabled,
      Progress.announce_files, Records.appendNotExecuted, opened, full]
    rfl

/-- What an item that does not end the run comes to. -/
inductive Done (s : Setup) (p : Progress) : Plan.Item → Progress → Prop where
  | malformed (m : Plan.Malformed) : Done s p (.ok (.malformed m)) (afterMalformed m p)
  | enabled {row : Plan.Row} {i : Invocation} (on : row.isEnabled = true)
      (known : Invocation.make s.config.runner s.env row s.context = .ok i) :
      Done s p (.ok (.row row)) (afterEnabled s row i p)
  | disabled {row : Plan.Row} {h : FileSystem.Handle} {files : FileSystem}
      (off : row.isEnabled = false) (opened : p.files.openAppend s.context.resultsPath = .ok h)
      (written : h.write p.files (Utf8.ofText (Records.notExecutedRow row.displayName ++ "\n")) =
        .ok files) :
      Done s p (.ok (.row row)) (afterDisabled row files p)

/-- An item is done, or it ends the run. -/
theorem process_cases (s : Setup) (item : Plan.Item) (p : Progress) :
    (∃ q, process s item p = .onward q ∧ Done s p item q) ∨ ∃ f, Refusal s p.files item f := by
  match item with
  | .error f => exact .inr ⟨f, .unreadable f⟩
  | .ok (.malformed m) => exact .inl ⟨_, rfl, .malformed m⟩
  | .ok (.row row) =>
    cases on : row.isEnabled with
    | true =>
      cases h : Expand.full s.env s.config.runner.program with
      | ok program =>
        have known : Invocation.make s.config.runner s.env row s.context =
            .ok ⟨program, s.config.runner.args ++ rowArguments row s.context⟩ := by
          simp only [Invocation.make, h]
        exact .inl ⟨_, process_enabled on known p, .enabled on known⟩
      | error name => exact .inr ⟨_, .undefined on h⟩
    | false =>
      cases ho : p.files.openAppend s.context.resultsPath with
      | error e => exact .inr ⟨_, .unopened on ho⟩
      | ok h =>
        cases hw : h.write p.files
            (Utf8.ofText (Records.notExecutedRow row.displayName ++ "\n")) with
        | error e => exact .inr ⟨_, .unwritten on ho hw⟩
        | ok files =>
          have added := Records.appendNotExecuted_ok ho hw
          exact .inl ⟨_, process_disabled on added, .disabled on ho hw⟩

theorem process_onward (h : process s item p = .onward q) : Done s p item q := by
  rcases process_cases s item p with ⟨t, ht, hd⟩ | ⟨f, hf⟩
  · rw [h] at ht
    cases ht
    exact hd
  · rw [process_refused hf] at h
    cases h

/-- From one moment to another children are started, each with its command and the files as they
are. -/
def Starts (s : Setup) (p q : Progress) : Prop :=
  ∃ ls, q.launches = p.launches ++ ls ∧ ∀ l ∈ ls, l = s.launch l.number l.invocation l.found

theorem Starts.none (h : q.launches = p.launches) : Starts s p q :=
  ⟨[], by rw [h, List.append_nil], fun _ hl => absurd hl List.not_mem_nil⟩

theorem Starts.trans {t : Progress} (h : Starts s p q) (g : Starts s q t) : Starts s p t := by
  obtain ⟨first, hq, own⟩ := h
  obtain ⟨second, ht, others⟩ := g
  refine ⟨first ++ second, by rw [ht, hq, List.append_assoc], ?_⟩
  intro l hl
  exact (List.mem_append.mp hl).elim (own l) (others l)

theorem Starts.keeps (h : Starts s p q) {l : Launch} (hl : l ∈ p.launches) : l ∈ q.launches := by
  obtain ⟨ls, hq, _⟩ := h
  rw [hq]
  exact List.mem_append_left ls hl

theorem starts_of_done (d : Done s p item q) : Starts s p q := by
  cases d with
  | malformed m => exact .none rfl
  | enabled on known =>
    refine ⟨_, afterEnabled_launches s _ _ p, fun l hl => ?_⟩
    obtain rfl := List.mem_singleton.mp hl
    rfl
  | disabled off opened written => exact .none rfl

theorem settle_stopped (quiet : s.stop.Silent) (p : Progress) :
    (settle s p).stopped = p.stopped := by
  unfold settle
  split
  · rfl
  · rw [Progress.poll_silent quiet]

theorem keepLog_stopped (s : Setup) (number : Nat) (row : Plan.Row) (output : String)
    (p : Progress) : (keepLog s number row output p).stopped = p.stopped := by
  unfold keepLog
  generalize Records.writeLog p.files (Records.logPath s.context.logDir number row.displayName)
    output = w
  obtain ⟨failure, files⟩ := w
  cases failure <;> rfl

theorem process_stopped (quiet : s.stop.Silent) (h : process s item p = .onward q) :
    q.stopped = p.stopped := by
  cases process_onward h with
  | malformed m => rfl
  | enabled on known =>
    unfold afterEnabled
    dsimp only
    rw [settle_stopped quiet, Progress.conclude_stopped, keepLog_stopped,
      Progress.poll_silent quiet]
    rfl
  | disabled off opened written => rfl

theorem takeItem_unseen (unseen : (p.pull s.stop).stopped = false) (item : Plan.Item) :
    takeItem s item p = process s item (p.pull s.stop) := by
  simp only [takeItem, unseen, Bool.false_eq_true, if_false]

theorem takeItem_seen (seen : (p.pull s.stop).stopped = true) (item : Plan.Item) :
    takeItem s item p = .interrupted (p.pull s.stop).interrupt := by
  simp only [takeItem, seen, if_true]

theorem takeItem_silent (quiet : s.stop.Silent) (going : p.stopped = false) (item : Plan.Item) :
    takeItem s item p = process s item { p with taken := p.taken + 1 } := by
  have hp := Progress.pull_silent quiet p
  rw [takeItem_unseen (by rw [hp]; exact going), hp]

def advance (s : Setup) : List Plan.Item → Progress → Turn
  | [], p => .onward p
  | item :: rest, p =>
    match takeItem s item p with
    | .onward q => advance s rest q
    | t => t

def Turn.finish : Turn → Finish
  | .onward p => .completed p.close
  | .interrupted p => .completed p.close
  | .failed f p => .failed f p

def Finish.summary? : Finish → Option Summary
  | .completed p => some p.summary
  | _ => none

theorem Finish.exists_of_summary? {f : Finish} {t : Summary} (h : f.summary? = some t) :
    ∃ p, f = .completed p ∧ p.summary = t := by
  cases f with
  | completed p => exact ⟨p, rfl, Option.some.inj h⟩
  | failed g p => cases h
  | unfinished p => cases h

theorem items_eq_finish (s : Setup) (lines : List Plan.Item) (p : Progress) :
    items s lines p = (advance s lines p).finish := by
  induction lines generalizing p with
  | nil => rfl
  | cons item rest ih =>
    simp only [items, advance]
    cases takeItem s item p with
    | onward q => exact ih q
    | interrupted q => rfl
    | failed f q => rfl

theorem advance_cons (s : Setup) (item : Plan.Item) (rest : List Plan.Item)
    (h : takeItem s item p = .onward q) : advance s (item :: rest) p = advance s rest q := by
  simp only [advance, h]

theorem onward_of_cons {rest : List Plan.Item} {t : Progress}
    (h : advance s (item :: rest) p = .onward t) :
    ∃ q, takeItem s item p = .onward q ∧ advance s rest q = .onward t := by
  simp only [advance] at h
  cases ht : takeItem s item p with
  | onward q =>
    rw [ht] at h
    exact ⟨q, rfl, h⟩
  | interrupted q =>
    rw [ht] at h
    cases h
  | failed f q =>
    rw [ht] at h
    cases h

theorem advance_append {done : List Plan.Item} (rest : List Plan.Item)
    (h : advance s done p = .onward q) : advance s (done ++ rest) p = advance s rest q := by
  induction done generalizing p with
  | nil =>
    simp only [advance, Turn.onward.injEq] at h
    rw [List.nil_append, h]
  | cons item done ih =>
    obtain ⟨t, ht, left⟩ := onward_of_cons h
    rw [List.cons_append, advance_cons s item _ ht]
    exact ih left

theorem advance_stopped (quiet : s.stop.Silent) {lines : List Plan.Item} (going : p.stopped = false)
    (h : advance s lines p = .onward q) : q.stopped = false := by
  induction lines generalizing p with
  | nil =>
    obtain rfl := Turn.onward.inj h
    exact going
  | cons item rest ih =>
    obtain ⟨t, ht, left⟩ := onward_of_cons h
    rw [takeItem_silent quiet going] at ht
    exact ih ((process_stopped quiet ht).trans going) left

/-- The items that the loop takes from a plan file, up to the one that ends the run. -/
def pulled (s : Setup) : Nat → Plan.Reader → Progress → List Plan.Item
  | 0, _, _ => []
  | n + 1, r, p =>
    match r.next p.files with
    | (none, _) => []
    | (some item, r) =>
      item :: match takeItem s item p with
        | .onward q => pulled s n r q
        | _ => []

/-- A run over a plan file is the run over the items that it takes from the file, if its bound does
not end it. -/
theorem plan_eq_items (s : Setup) (n : Nat) (r : Plan.Reader) (p : Progress) :
    (∃ q, plan s n r p = .unfinished q) ∨ plan s n r p = items s (pulled s n r p) p := by
  induction n generalizing r p with
  | zero => exact .inl ⟨p, rfl⟩
  | succ n ih =>
    simp only [plan, pulled]
    obtain ⟨next, r'⟩ := r.next p.files
    cases next with
    | none => exact .inr rfl
    | some item =>
      simp only [items]
      cases takeItem s item p with
      | onward q => exact ih r' q
      | interrupted q => exact .inr rfl
      | failed f q => exact .inr rfl

def Finish.progress : Finish → Progress
  | .completed p => p
  | .failed _ p => p
  | .unfinished p => p

theorem starts_of_plan (s : Setup) (n : Nat) (r : Plan.Reader) (p : Progress) :
    Starts s p (plan s n r p).progress := by
  induction n generalizing r p with
  | zero => exact .none rfl
  | succ n ih =>
    simp only [plan]
    obtain ⟨next, left⟩ := r.next p.files
    cases next with
    | none => exact .none rfl
    | some item =>
      have pulled : (p.pull s.stop).launches = p.launches := Progress.pull_launches p s.stop
      cases seen : (p.pull s.stop).stopped with
      | true =>
        simp only [takeItem_seen seen]
        exact .none pulled
      | false =>
        rcases process_cases s item (p.pull s.stop) with ⟨q, hq, d⟩ | ⟨f, hf⟩
        · simp only [takeItem_unseen seen, hq]
          exact (Starts.none pulled).trans ((starts_of_done d).trans (ih left q))
        · simp only [takeItem_unseen seen, process_refused hf]
          exact .none ((Progress.shown_launches _ item).trans pulled)

/-- Each child of a run from its start is given its command, and the files as it finds them. -/
theorem launch_of_plan {n : Nat} {r : Plan.Reader} {fs : FileSystem} {l : Launch}
    (h : l ∈ (plan s n r (.start fs)).progress.launches) :
    l = s.launch l.number l.invocation l.found := by
  obtain ⟨ls, started, given⟩ := starts_of_plan s n r (.start fs)
  rw [started] at h
  exact given l h

theorem plan_of_enabled {n : Nat} {r left : Plan.Reader} {i : Invocation}
    (quiet : s.stop.Silent) (going : p.stopped = false)
    (next : r.next p.files = (some (.ok (.row row)), left)) (on : row.isEnabled = true)
    (known : Invocation.make s.config.runner s.env row s.context = .ok i) :
    plan s (n + 1) r p = plan s n left (afterEnabled s row i { p with taken := p.taken + 1 }) := by
  simp only [plan, next, takeItem_silent quiet going, process_enabled on known]

theorem plan_of_end {n : Nat} {r : Plan.Reader} (last : (r.next p.files).1 = none) :
    plan s (n + 1) r p = .completed p.close := by
  simp only [plan]
  generalize r.next p.files = next at last
  obtain ⟨item, left⟩ := next
  cases last
  rfl

end Run
end TestBench
