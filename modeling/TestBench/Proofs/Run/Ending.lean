import Mathlib
import TestBench.Cli.Session
import TestBench.Proofs.Plan.Disabled
import TestBench.Proofs.Run.Failure
import TestBench.Proofs.Run.Session
/-!
# The end of a run

A plan without a row to be executed comes to its end, unless it is the results file itself: then
each of its rows adds the row that is read next.
-/
namespace TestBench.Run

open FileSystem (Handle)

variable {s : Setup} {p q : Progress} {item : Plan.Item} {r : Plan.Reader} {fs : FileSystem}
  {path : Path} {id : Nat} {content : Bytes}

/-- The run over a plan file ends of itself, with a number of rows at most. -/
def EndsWithin (s : Setup) (r : Plan.Reader) (p : Progress) (k : Nat) : Prop :=
  ∀ n, k < n → ∃ t, (plan s n r p = .completed t ∨ ∃ f, plan s n r p = .failed f t) ∧
    t.summary.rows ≤ k

/-- A plan file that the results path does not lead to, with its contents. -/
structure Idle (path : Path) (id : Nat) (content : Bytes) (fs : FileSystem) : Prop where
  apart : ∀ x, fs.stat path ≠ .ok (.file id x)
  same : fs.content id = content

theorem Idle.done (h : Idle s.context.resultsPath id content p.files) (done : Done s p item q)
    (off : Plan.enabledRows [item] = []) : Idle s.context.resultsPath id content q.files := by
  cases done with
  | malformed m => exact h
  | enabled on known =>
    -- Only the child of such a row could change the plan.
    rw [Plan.enabledRows_on on] at off
    cases off
  | disabled noRun opened put =>
    rcases FileSystem.write_of_openAppend opened put with ⟨j, y, there, rfl⟩ | rfl
    · have hj : id ≠ j := by
        rintro rfl
        exact h.apart y there
      refine ⟨fun x hx => h.apart x ((FileSystem.stat_append _ _).mp hx), ?_⟩
      rw [afterDisabled_files, FileSystem.content_append, if_neg hj, h.same]
    · exact h

theorem shown_rows_le (p : Progress) (item : Plan.Item) :
    (p.shown item).summary.rows ≤ p.summary.rows + 1 := by
  unfold Progress.shown
  split
  · exact Nat.le_refl _
  · exact Nat.le_succ _

theorem rows_le_of_done (h : Done s p item q) : q.summary.rows ≤ p.summary.rows + 1 := by
  have hl : (Plan.rows [item]).length ≤ 1 := List.length_filterMap_le _ _
  rw [(Tally.of_done h).rows]
  omega

/-- Each turn takes one of the items ahead, and there come no others. -/
theorem Idle.ends {n : Nat} (idle : Idle s.context.resultsPath id content p.files)
    (source : r.handle = .file id) (off : Plan.enabledRows (r.ahead content) = [])
    (enough : (r.ahead content).length < n) :
    ∃ t, (plan s n r p = .completed t ∨ ∃ f, plan s n r p = .failed f t) ∧
      t.summary.rows ≤ p.summary.rows + (r.ahead content).length := by
  induction n generalizing r p with
  | zero => exact absurd enough (Nat.not_lt_zero _)
  | succ n ih =>
    have readable : r.handle.readAll p.files = .ok content := by
      rw [source, ← idle.same]
      rfl
    rcases Plan.Reader.next_cases readable with ⟨ahead, left, hn⟩ | ⟨item, left, hn, ahead, same⟩
    · refine ⟨p.close, .inl ?_, Nat.le_add_right _ _⟩
      simp only [plan, hn]
    · rw [ahead] at enough off ⊢
      rw [← List.singleton_append, Plan.enabledRows_append, List.append_eq_nil_iff] at off
      rw [List.length_cons] at enough ⊢
      have pulled : Idle s.context.resultsPath id content (p.pull s.stop).files := by
        rw [Progress.pull_files]
        exact idle
      have rows : (p.pull s.stop).summary.rows = p.summary.rows := by rw [Progress.pull_summary]
      simp only [plan, hn]
      cases seen : (p.pull s.stop).stopped with
      | true =>
        rw [takeItem_seen seen]
        refine ⟨_, .inl rfl, ?_⟩
        exact Nat.le_trans (Nat.le_of_eq rows) (Nat.le_add_right _ _)
      | false =>
        rw [takeItem_unseen seen]
        rcases process_cases s item (p.pull s.stop) with ⟨q, hq, done⟩ | ⟨f, hf⟩
        · have one := rows_le_of_done done
          obtain ⟨t, ht, hr⟩ := ih (pulled.done done off.1) (same.trans source) off.2
            (Nat.lt_of_succ_lt_succ enough)
          rw [hq]
          exact ⟨t, ht, by omega⟩
        · have one := shown_rows_le (p.pull s.stop) item
          rw [process_refused hf]
          exact ⟨_, .inr ⟨f, rfl⟩, by omega⟩

/-- The plan is the results file, and all that is left to be read of it is one line, of a row that
is not to be executed. -/
structure Fed (path : Path) (id : Nat) (r : Plan.Reader) (fs : FileSystem) : Prop where
  leads : ∃ x, fs.stat path = .ok (.file id x)
  source : r.handle = .file id
  within : r.position ≤ (fs.content id).length
  line : ∃ cs, Plan.Inert cs ∧ r.unread (fs.content id) = Utf8.encode cs ++ [Plan.newline]

/-- The line is taken, and the line that is added for it is left. -/
theorem Fed.next (h : Fed path id r fs) : ∃ row left,
    r.next fs = (some (.ok (.row row)), left) ∧ row.isEnabled = false ∧
      Fed path id left (fs.append id (Records.notExecutedLine row.displayName)) := by
  obtain ⟨⟨x, there⟩, source, within, cs, inert, unread⟩ := h
  obtain ⟨row, parsed, off, fits⟩ := inert.row (r.lineNumber + 1)
  have readable : r.handle.readAll fs = .ok (fs.content id) := by
    rw [source]
    rfl
  have taken := Plan.Reader.nextFrom_line unread (Utf8.notMem_encode inert.line)
    (Utf8.decode?_encode cs) inert.solid
  have fields := Plan.Reader.nextFrom_fields (fs.content id) r
  rw [parsed] at taken
  rw [Plan.Reader.next_eq readable]
  generalize r.nextFrom (fs.content id) = t at taken fields
  obtain ⟨next, left⟩ := t
  obtain ⟨rfl, done⟩ := taken
  obtain ⟨_, handle, position⟩ := fields
  have position := position within
  refine ⟨row, left, rfl, off, ?_⟩
  refine ⟨⟨x, (FileSystem.stat_append fs _).mpr there⟩, handle.trans source, ?_, ?_⟩
  · rw [FileSystem.content_append, if_pos rfl, List.length_append]
    exact Nat.le_trans position (Nat.le_add_right _ _)
  · -- The line that was taken was the last one, so the one that is added is all that is left.
    refine ⟨_, Plan.inert_notExecuted fits, ?_⟩
    rw [FileSystem.content_append, if_pos rfl, Plan.Reader.unread,
      List.drop_append_of_le_length position, ← List.append_assoc]
    change left.unread (fs.content id) ++ _ = _
    rw [done, List.nil_append]
    exact Utf8.ofText_line _

theorem Fed.start {ready : FileSystem} {x : Bool} (prepared : Records.Prepared fs ready path)
    (leads : ready.stat path = .ok (.file id x)) (planPath : Path) :
    Fed path id ⟨planPath, .file id, 0, [], 0⟩ ready := by
  refine ⟨⟨x, leads⟩, rfl, Nat.zero_le _, _, Plan.inert_header, ?_⟩
  change ready.content id = _
  rw [prepared.results id x leads]
  exact Utf8.ofText_line _

/-- So there is always a next row, and the run does not end of itself. -/
theorem Fed.never_ends (quiet : s.stop.Silent) (going : p.stopped = false)
    (fed : Fed s.context.resultsPath id r p.files) (n : Nat) :
    ∃ t, plan s n r p = .unfinished t ∧ t.summary.rows = p.summary.rows + n := by
  induction n generalizing r p with
  | zero => exact ⟨p, rfl, rfl⟩
  | succ n ih =>
    obtain ⟨row, left, hn, off, fed'⟩ := fed.next
    obtain ⟨x, there⟩ := fed.leads
    have added : Records.appendNotExecuted p.files s.context.resultsPath row.displayName =
        (none, p.files.append id (Records.notExecutedLine row.displayName)) :=
      Records.appendNotExecuted_ok (FileSystem.openAppend_of_stat there) rfl
    have turn := process_disabled (p := { p with taken := p.taken + 1 }) off added
    rw [← takeItem_silent quiet going] at turn
    obtain ⟨t, ht, hr⟩ := ih (p := afterDisabled row _ { p with taken := p.taken + 1 }) going fed'
    refine ⟨t, ?_, ?_⟩
    · simp only [plan, hn, turn]
      exact ht
    · rw [hr]
      exact Nat.add_right_comm p.summary.rows 1 n

/-- A plan without a row to be executed is run to its end, in as many rows as it has lines that are
not blank, whenever a stop is asked for, if the results path does not lead to the plan file. If it
does, the run goes on, row after row, until it is stopped. -/
theorem ends_iff_plan_is_no_results_file {w : Cli.Surroundings} {args : Cli.Arguments}
    {ready : FileSystem} {config : Config} {o : Cli.Opened} {x : Bool}
    (opened : Cli.openRun w.env fs args config = .ok o)
    (there : fs.stat args.testPlan = .ok (.file id x))
    (off : Plan.enabledRows (Plan.itemsIn args.testPlan (fs.content id)) = [])
    (prepared : Records.prepare fs o.context = (none, ready)) :
    ((∀ y, ready.stat o.context.resultsPath ≠ .ok (.file id y)) →
      EndsWithin (w.setup config o) o.reader (.start ready) (Plan.nonBlank (fs.content id))) ∧
    ((∃ y, ready.stat o.context.resultsPath = .ok (.file id y)) → w.stop.Silent → ∀ n, ∃ t,
      plan (w.setup config o) n o.reader (.start ready) = .unfinished t ∧ t.summary.rows = n) := by
  have done := Records.prepared_of_prepare prepared
  have reader := (Cli.openRun_parts opened).1
  have ahead := Plan.Reader.ahead_open reader
  obtain ⟨handle, ho, fresh⟩ := Plan.Reader.open_eq reader
  rw [FileSystem.openRead_of_stat there] at ho
  obtain rfl := Except.ok.inj ho
  constructor
  · intro apart n enough
    have idle : Idle o.context.resultsPath id (fs.content id) ready :=
      ⟨apart, done.others id apart⟩
    rw [← Plan.itemsIn_length args.testPlan, ← ahead] at enough ⊢
    rw [← ahead] at off
    obtain ⟨t, ht, hr⟩ := Idle.ends (s := w.setup config o) (p := .start ready) idle
      (by rw [fresh]) off enough
    exact ⟨t, ht, Nat.le_trans hr (Nat.le_of_eq (Nat.zero_add _))⟩
  · rintro ⟨y, leads⟩ quiet n
    have fed := Fed.start done leads args.testPlan
    rw [← fresh] at fed
    obtain ⟨t, ht, hr⟩ := fed.never_ends (s := w.setup config o) (p := .start ready) quiet rfl n
    exact ⟨t, ht, hr.trans (Nat.zero_add n)⟩

def oneRow (planPath : String) : FileSystem :=
  ⟨[([Utf8.ofText planPath], .file 0 false)], [(0, Utf8.ofText "a,none,1,2,off\n")], 1, []⟩

def oneRowArguments (planPath : String) : Cli.Arguments := ⟨.ofText planPath, "t", none, none⟩

/-- Surroundings without variables, in which no child starts and nobody asks for a stop. -/
def emptySurroundings : Cli.Surroundings :=
  ⟨[], .alike fun fs _ _ _ => ⟨.error .notUtf8, "", fs, 0⟩, .never, 0, 4⟩

def oneRowOpened (planPath : String) : Cli.Opened :=
  ⟨⟨.ofText planPath, .file 0, 0, [], 0⟩, ⟨"t", .ofText "logs/t", .ofText "t_results.txt"⟩⟩

def oneRowReady (planPath : String) : FileSystem :=
  (Records.prepare (oneRow planPath) (oneRowOpened planPath).context).2

theorem oneRow_resolved : Config.resolve (oneRow "t_results.txt") none = .ok .standard := by
  have absent : (oneRow "t_results.txt").isFile Config.standardFile = false := by cbv
  rw [Config.resolve, absent]
  rfl

theorem oneRow_prepared : Records.prepare (oneRow "t_results.txt")
    (oneRowOpened "t_results.txt").context = (none, oneRowReady "t_results.txt") :=
  Prod.ext (by cbv) rfl

theorem oneRow_leads : (oneRowReady "t_results.txt").stat
    (oneRowOpened "t_results.txt").context.resultsPath = .ok (.file 0 false) := by cbv

theorem oneRow_opened : Cli.openRun emptySurroundings.env (oneRow "t_results.txt")
    (oneRowArguments "t_results.txt") .standard = .ok (oneRowOpened "t_results.txt") := by cbv

theorem oneRow_off : Plan.enabledRows (Plan.itemsIn (.ofText "t_results.txt")
    ((oneRow "t_results.txt").content 0)) = [] := by cbv

theorem ends_iff_of_oneRow :
    EndsWithin (emptySurroundings.setup .standard (oneRowOpened "p")) (oneRowOpened "p").reader
      (.start (oneRowReady "p")) 1 ∧
    ∀ n, ∃ t, plan (emptySurroundings.setup .standard (oneRowOpened "t_results.txt")) n
      (oneRowOpened "t_results.txt").reader (.start (oneRowReady "t_results.txt")) =
        .unfinished t ∧ t.summary.rows = n := by
  constructor
  · have opened : Cli.openRun emptySurroundings.env (oneRow "p") (oneRowArguments "p") .standard =
        .ok (oneRowOpened "p") := by cbv
    have there : (oneRow "p").stat (oneRowArguments "p").testPlan = .ok (.file 0 false) := by cbv
    have prepared : Records.prepare (oneRow "p") (oneRowOpened "p").context =
        (none, oneRowReady "p") := Prod.ext (by cbv) rfl
    have ends := ends_iff_plan_is_no_results_file (w := emptySurroundings) opened there (by cbv)
      prepared
    have leads : (oneRowReady "p").stat (oneRowOpened "p").context.resultsPath =
        .ok (.file 1 false) := by cbv
    have one : Plan.nonBlank ((oneRow "p").content 0) = 1 := by cbv
    rw [one] at ends
    apply ends.1
    intro y there
    have same := leads.symm.trans there
    cases same
  · have there : (oneRow "t_results.txt").stat (oneRowArguments "t_results.txt").testPlan =
        .ok (.file 0 false) := by cbv
    have ends := ends_iff_plan_is_no_results_file (w := emptySurroundings) oneRow_opened there
      oneRow_off oneRow_prepared
    exact ends.2 ⟨false, oneRow_leads⟩ StopRequest.never_silent

/-- With its plan in the place of its results file a session whose setup succeeds does not end,
though the plan holds one row, and that is not to be executed. -/
theorem results_file_as_plan_never_ends :
    Config.resolve (oneRow "t_results.txt") none = .ok .standard ∧
    Cli.openRun emptySurroundings.env (oneRow "t_results.txt") (oneRowArguments "t_results.txt")
      .standard = .ok (oneRowOpened "t_results.txt") ∧
    Records.prepare (oneRow "t_results.txt") (oneRowOpened "t_results.txt").context =
      (none, oneRowReady "t_results.txt") ∧
    Plan.enabledRows (Plan.itemsIn (.ofText "t_results.txt")
      ((oneRow "t_results.txt").content 0)) = [] ∧
    ∀ k, ¬EndsWithin (emptySurroundings.setup .standard (oneRowOpened "t_results.txt"))
      (oneRowOpened "t_results.txt").reader (.start (oneRowReady "t_results.txt")) k := by
  have fed := Fed.start (Records.prepared_of_prepare oneRow_prepared) oneRow_leads
    (.ofText "t_results.txt")
  refine ⟨oneRow_resolved, oneRow_opened, oneRow_prepared, oneRow_off, ?_⟩
  intro k ends
  obtain ⟨t, ht, _⟩ := ends (k + 1) (Nat.lt_succ_self k)
  obtain ⟨u, hu, _⟩ := fed.never_ends (s := emptySurroundings.setup .standard
    (oneRowOpened "t_results.txt")) (p := .start (oneRowReady "t_results.txt"))
    StopRequest.never_silent rfl (k + 1)
  rcases ht with ht | ⟨f, ht⟩
  · have same := hu.symm.trans ht
    cases same
  · have same := hu.symm.trans ht
    cases same

end TestBench.Run
