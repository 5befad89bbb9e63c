import Mathlib
import TestBench.Proofs.Plan.Reading
import TestBench.Proofs.Run.Failure
import TestBench.Proofs.Run.Records
/-!
# What the results file holds

A run that is completed leaves its results file with the header and, for each row of the plan and in
their order, what the row has added: a line of its own, or whatever its child has written there.
-/
namespace TestBench.Run

open FileSystem (Handle Grown Appended)

def share (added : Nat → Bytes) (row : Plan.Row) (number : Nat) : Bytes :=
  if row.isEnabled then added number else Records.notExecutedLine row.displayName

/-- What rows add, numbered from the first one on. -/
def shares (added : Nat → Bytes) (rows : List Plan.Row) (number : Nat) : Bytes :=
  (rows.zipIdx number).flatMap fun t => share added t.1 t.2

/-- No log of an executed row is kept in the plan or in the results file. -/
def LogsApart (c : Context) (h : Handle) (ready : FileSystem) (rows : List Plan.Row)
    (number : Nat) : Prop :=
  ∀ t ∈ rows.zipIdx number, t.1.isEnabled = true → ∀ id x,
    ready.stat (Records.logPath c.logDir t.2 t.1.displayName) = .ok (.file id x) →
      h ≠ .file id ∧ ∀ y, ready.stat c.resultsPath ≠ .ok (.file id y)

/-- The results file is a file, and the plan is not that file. -/
structure Apart (ready : FileSystem) (p : Path) (id : Nat) (h : Handle) : Prop where
  results : ∃ x, ready.stat p = .ok (.file id x)
  old : id < ready.fresh
  source : ∀ j, h = .file j → j < ready.fresh ∧ j ≠ id

/-- The files in the middle of a run: what there was is there, the plan has not changed, and the
results file holds some bytes. -/
structure Kept (ready : FileSystem) (id : Nat) (h : Handle) (written : Bytes)
    (fs : FileSystem) : Prop where
  grown : ready.Grown fs
  results : fs.content id = written
  source : h.readAll fs = h.readAll ready

variable {s : Setup} {p q t : Progress} {item : Plan.Item} {ready fs new : FileSystem} {id : Nat}
  {h : Handle} {written bs : Bytes} {added : Nat → Bytes}

theorem readAll_eq (same : ∀ j, h = .file j → fs.content j = new.content j) :
    h.readAll fs = h.readAll new := by
  cases h with
  | file j => exact congrArg Except.ok (same j rfl)
  | device d => cases d <;> rfl
  | directory => rfl

theorem Kept.start (ready : FileSystem) (id : Nat) (h : Handle) :
    Kept ready id h (ready.content id) ready := ⟨.refl ready, rfl, rfl⟩

theorem Kept.append (apart : Apart ready s.context.resultsPath id h)
    (kept : Kept ready id h written fs) (step : fs.Appended id bs new) :
    Kept ready id h (written ++ bs) new := by
  refine ⟨kept.grown.trans step.grown, ?_, ?_⟩
  · rw [step.content, if_pos rfl, kept.results]
  · rw [← kept.source]
    apply readAll_eq
    intro j hj
    rw [step.content, if_neg (apart.source j hj).2]

/-- What is added through the results path is added to what the results file holds. -/
theorem Kept.record {handle : Handle} (apart : Apart ready s.context.resultsPath id h)
    (kept : Kept ready id h written fs) (opened : fs.openAppend s.context.resultsPath = .ok handle)
    (put : handle.write fs bs = .ok new) : Kept ready id h (written ++ bs) new := by
  obtain ⟨x, there⟩ := apart.results
  have leads := FileSystem.stat_keep kept.grown.keeps kept.grown.home there
  rw [FileSystem.openAppend_of_stat leads] at opened
  obtain rfl := Except.ok.inj opened
  obtain rfl := Except.ok.inj put
  exact kept.append apart (FileSystem.appended_append _ _ _)

theorem Kept.log {path : Path} (apart : Apart ready s.context.resultsPath id h)
    (kept : Kept ready id h written fs) (log : fs.Written path new)
    (clear : ∀ j x, ready.stat path = .ok (.file j x) →
      h ≠ .file j ∧ ∀ y, ready.stat s.context.resultsPath ≠ .ok (.file j y)) :
    Kept ready id h written new := by
  have unchanged {j : Nat} (old : j < ready.fresh)
      (away : ∀ x, ready.stat path ≠ .ok (.file j x)) : new.content j = fs.content j := by
    apply log.content j (Nat.lt_of_lt_of_le old kept.grown.fresh)
    intro x there
    -- The log may be in a file that was made since the preparation; that is neither of the two.
    rcases FileSystem.stat_before kept.grown there with before | ⟨k, y, he, young⟩
    · exact away x before
    · cases he
      exact Nat.not_le_of_lt old young
  refine ⟨kept.grown.trans log.grown, ?_, ?_⟩
  · rw [unchanged apart.old, kept.results]
    intro x there
    obtain ⟨y, hy⟩ := apart.results
    exact (clear id x there).2 y hy
  · rw [← kept.source]
    apply readAll_eq
    intro j hj
    apply unchanged (apart.source j hj).1
    intro x there
    exact (clear j x there).1 hj

theorem shares_nil (number : Nat) : shares added [] number = [] := rfl

theorem shares_single (row : Plan.Row) (number : Nat) :
    shares added [row] number = share added row number := List.append_nil _

theorem shares_append (xs ys : List Plan.Row) (number : Nat) :
    shares added (xs ++ ys) number =
      shares added xs number ++ shares added ys (number + xs.length) := by
  simp only [shares, List.zipIdx_append, List.flatMap_append]

theorem LogsApart.left {c : Context} {xs ys : List Plan.Row} {number : Nat}
    (h' : LogsApart c h ready (xs ++ ys) number) : LogsApart c h ready xs number := by
  intro t ht
  exact h' t (by rw [List.zipIdx_append]; exact List.mem_append_left _ ht)

theorem LogsApart.right {c : Context} {xs ys : List Plan.Row} {number : Nat}
    (h' : LogsApart c h ready (xs ++ ys) number) :
    LogsApart c h ready ys (number + xs.length) := by
  intro t ht
  exact h' t (by rw [List.zipIdx_append]; exact List.mem_append_right _ ht)

theorem Kept.done (apart : Apart ready s.context.resultsPath id h)
    (kept : Kept ready id h written p.files) (done : Done s p item q)
    (adds : ∀ l ∈ q.launches, l.found.Appended id (added l.number) l.report.files)
    (logs : LogsApart s.context h ready (Plan.rows [item]) (p.summary.rows + 1)) :
    Kept ready id h (written ++ shares added (Plan.rows [item]) (p.summary.rows + 1)) q.files := by
  cases done with
  | malformed m =>
    rw [show Plan.rows [.ok (.malformed m)] = [] from rfl, shares_nil, List.append_nil]
    exact kept
  | @enabled row i on known =>
    have launched :
        s.launch (p.summary.rows + 1) i p.files ∈ (afterEnabled s row i p).launches := by
      rw [afterEnabled_launches]
      exact List.mem_append_right _ List.mem_cons_self
    have step := kept.append apart (adds _ launched)
    rw [Plan.rows_row, shares_single, share, if_pos on,
      afterEnabled_files]
    exact step.log apart (Records.writeLog_written _ _ _) (logs (row, _) List.mem_cons_self on)
  | @disabled row handle files off opened put =>
    have noRun : ¬row.isEnabled = true := by
      rw [off]
      exact Bool.false_ne_true
    rw [Plan.rows_row, shares_single, share, if_neg noRun]
    exact kept.record apart opened put

/-- The shares of all rows ahead are left, as every item leaves its own and the rest of the plan. -/
theorem Kept.run {n : Nat} {r : Plan.Reader} {content : Bytes} (quiet : s.stop.Silent)
    (apart : Apart ready s.context.resultsPath id r.handle)
    (readable : r.handle.readAll ready = .ok content) (going : p.stopped = false)
    (kept : Kept ready id r.handle written p.files)
    (logs : LogsApart s.context r.handle ready (Plan.rows (r.ahead content)) (p.summary.rows + 1))
    (adds : ∀ l ∈ t.launches, l.found.Appended id (added l.number) l.report.files)
    (run : plan s n r p = .completed t) :
    Kept ready id r.handle
      (written ++ shares added (Plan.rows (r.ahead content)) (p.summary.rows + 1)) t.files := by
  -- Reader, state and what is written go on together; the items ahead are read off the contents.
  induction n generalizing r p written with
  | zero => cases run
  | succ n ih =>
    simp only [plan] at run
    rcases Plan.Reader.next_cases (kept.source.trans readable) with
      ⟨ahead, left, hn⟩ | ⟨item, left, hn, ahead, same⟩
    · simp only [hn, Finish.completed.injEq] at run
      subst run
      rw [ahead, show Plan.rows [] = [] from rfl, shares_nil, List.append_nil]
      exact kept
    · simp only [hn, takeItem_silent quiet going] at run
      rw [ahead, ← List.singleton_append, Plan.rows_append] at logs ⊢
      rcases process_cases s item { p with taken := p.taken + 1 } with
        ⟨q, hq, done⟩ | ⟨f, hf⟩
      · simp only [hq] at run
        have still := (process_stopped quiet hq).trans going
        have starts := starts_of_plan s n left q
        rw [run] at starts
        have step := kept.done apart (p := { p with taken := p.taken + 1 }) done
          (fun l hm => adds l (starts.keeps hm)) logs.left
        have rows : q.summary.rows = p.summary.rows + (Plan.rows [item]).length :=
          (Tally.of_done done).rows
        have number : q.summary.rows + 1 = p.summary.rows + 1 + (Plan.rows [item]).length := by
          omega
        rw [← same] at apart readable step logs
        have rest := ih apart readable still step (number ▸ logs.right) run
        rw [shares_append, ← List.append_assoc, ← number, ← same]
        exact rest
      · rw [process_refused hf] at run
        cases run

/-- Preparation leaves the plan as it is, if it is not the results file. -/
theorem apart_of_prepare {c : Context} {planPath : Path} {r : Plan.Reader} {content : Bytes}
    {x : Bool} (sound : fs.Sound) (opened : Plan.Reader.open fs planPath = .ok r)
    (readable : r.handle.readAll fs = .ok content) (prepared : Records.prepare fs c = (none, ready))
    (results : ready.stat c.resultsPath = .ok (.file id x)) (other : r.handle ≠ .file id) :
    Apart ready c.resultsPath id r.handle ∧ r.handle.readAll ready = .ok content := by
  obtain ⟨soundness, fresh, _, others⟩ := Records.prepared_of_prepare prepared
  obtain ⟨handle, ho, rfl⟩ := Plan.Reader.open_eq opened
  have source (j : Nat) (hj : handle = .file j) : j < ready.fresh ∧ j ≠ id := by
    subst hj
    obtain ⟨y, hy⟩ := FileSystem.stat_of_openRead ho
    refine ⟨Nat.lt_of_lt_of_le (sound.lt_of_stat hy) fresh, ?_⟩
    rintro rfl
    exact other rfl
  refine ⟨⟨⟨x, results⟩, (soundness sound).lt_of_stat results, source⟩, ?_⟩
  rw [← readable]
  apply readAll_eq
  intro j hj
  apply others
  intro y there
  rw [results] at there
  cases there
  exact (source _ hj).2 rfl

/-- A run over a plan that is a text and not the results file. Its preparation succeeds, no request
stops it, its children do nothing but add to the results file, and it is completed. -/
structure CompletedRun (s : Setup) (planPath : Path) (fs : FileSystem) (text : List Char)
    (r : Plan.Reader) (ready : FileSystem) (id : Nat) (added : Nat → Bytes) (n : Nat)
    (t : Progress) : Prop where
  sound : fs.Sound
  opened : Plan.Reader.open fs planPath = .ok r
  decoded : ∃ content, r.handle.readAll fs = .ok content ∧ Utf8.decode? content = some text
  prepared : Records.prepare fs s.context = (none, ready)
  results : ∃ x, ready.stat s.context.resultsPath = .ok (.file id x)
  other : r.handle ≠ .file id
  quiet : s.stop.Silent
  run : plan s n r (.start ready) = .completed t
  adds : ∀ l ∈ t.launches, l.found.Appended id (added l.number) l.report.files

def rowsOf (text : List Char) : List Plan.Row := Plan.rows ((Plan.linesIn text).map .ok)

/-- A run that is completed leaves the results file with its header and the shares of the rows, in
the order of the plan, and nothing else, if its logs are kept in other files. -/
theorem completed_results_file {planPath : Path} {text : List Char} {r : Plan.Reader} {n : Nat}
    (h : CompletedRun s planPath fs text r ready id added n t)
    (logs : LogsApart s.context r.handle ready (rowsOf text) 1) :
    t.files.readBytes s.context.resultsPath =
      .ok (Records.header ++ shares added (rowsOf text) 1) := by
  obtain ⟨sound, opened, ⟨content, readable, decoded⟩, prepared, ⟨x, results⟩, other, quiet, run,
    adds⟩ := h
  obtain ⟨apart, still⟩ := apart_of_prepare sound opened readable prepared results other
  have items := Plan.itemsIn_of_decode? decoded planPath
  rw [rowsOf, ← items, ← Plan.Reader.ahead_open opened content] at logs ⊢
  have kept := Kept.run quiet apart still rfl (.start ready id r.handle) logs adds run
  have there := FileSystem.stat_keep kept.grown.keeps kept.grown.home results
  have header := (Records.prepared_of_prepare prepared).results id x results
  rw [FileSystem.readBytes_of_stat there, kept.results, header]
  rfl

namespace Sample

def text : List Char := "a,none,,,enabled\nb,c,,,\n".toList

def files : FileSystem :=
  ⟨[([Utf8.ofText "p"], .file 0 false), ([Utf8.ofText "null"], .device .null)],
    [(0, Utf8.encode text)], 1, []⟩

def child (added : Bytes) : Child.Launcher := fun fs _ _ _ =>
  ⟨.error .notUtf8, "", fs.append 1 added, 0⟩

def setup (results : String) (added : Bytes) : Setup :=
  ⟨[], { Config.standard with runner := ⟨"r", []⟩, settleSecs := 0 },
    ⟨"", .ofText "l", .ofText results⟩, .alike (child added), .never⟩

def reader : Plan.Reader := ⟨.ofText "p", .file 0, 0, [], 0⟩

def prepared (results : String) : FileSystem :=
  (Records.prepare files (setup results []).context).2

def finish (results : String) (added : Bytes) : Finish :=
  plan (setup results added) 3 reader (.start (prepared results))

/-- What a run has left in a file, if it is completed and its children have added their bytes. -/
def left (f : Finish) (p : Path) (added : Bytes) : Option Bytes :=
  match f with
  | .completed t =>
    if t.launches.all fun l => l.report.files == l.found.append 1 added then
      (t.files.readBytes p).toOption
    else none
  | _ => none

theorem files_sound : files.Sound := by
  apply FileSystem.sound_of_entries
  intro t ht id x he
  simp only [files, List.mem_cons, List.not_mem_nil, or_false] at ht
  rcases ht with rfl | rfl
  · cases he
    exact Nat.zero_lt_one
  · cases he

theorem exists_of_left {f : Finish} {path : Path} {added bs : Bytes}
    (h : left f path added = some bs) :
    ∃ t, f = .completed t ∧ t.files.readBytes path = .ok bs ∧
      ∀ l ∈ t.launches, l.found.Appended 1 added l.report.files := by
  cases f with
  | completed t =>
    unfold left at h
    dsimp only at h
    split at h
    · rename_i all
      refine ⟨t, rfl, ?_, ?_⟩
      · cases hr : t.files.readBytes path with
        | error e =>
          rw [hr] at h
          cases h
        | ok cs =>
          rw [hr] at h
          rw [Option.some.inj h]
      · intro l hl
        rw [eq_of_beq (List.all_eq_true.mp all l hl)]
        exact FileSystem.appended_append _ _ _
    · cases h
  | failed g t => cases h
  | unfinished t => cases h

theorem completedRun (results : String) (added bs : Bytes) {x : Bool}
    (done : (Records.prepare files (setup results added).context).1 = none)
    (leads : (prepared results).stat (setup results added).context.resultsPath = .ok (.file 1 x))
    (leaves : left (finish results added) (.ofText results) added = some bs) :
    ∃ t, CompletedRun (setup results added) (.ofText "p") files text reader (prepared results) 1
      (fun _ => added) 3 t ∧ t.files.readBytes (.ofText results) = .ok bs := by
  obtain ⟨t, run, holds, adds⟩ := exists_of_left leaves
  refine ⟨t, ⟨files_sound, by cbv, ⟨_, rfl, by cbv⟩, Prod.ext done rfl, ⟨x, leads⟩, by decide,
    StopRequest.never_silent, run, adds⟩, holds⟩

end Sample

theorem completed_results_file_of_sample :
    ∃ t, CompletedRun (Sample.setup "t" [65, 10]) (.ofText "p") Sample.files Sample.text
        Sample.reader (Sample.prepared "t") 1 (fun _ => [65, 10]) 3 t ∧
      t.files.readBytes (.ofText "t") =
        .ok (Utf8.ofText (Records.resultsHeader ++ "\nA\nb-c,NOT_EXECUTED,,,\n")) := by
  obtain ⟨t, completed, _⟩ := Sample.completedRun "t" [65, 10]
    (Utf8.ofText (Records.resultsHeader ++ "\nA\nb-c,NOT_EXECUTED,,,\n")) (x := false)
    (by cbv) (by cbv) (by cbv)
  have rows : rowsOf Sample.text =
      [⟨1, "a", "none", "", "", "enabled"⟩, ⟨2, "b", "c", "", "", ""⟩] := by cbv
  have absent : (Sample.prepared "t").stat (Records.logPath (.ofText "l") 1 "a") =
      .error (.system .noEntry) := by cbv
  have logs : LogsApart (Sample.setup "t" [65, 10]).context Sample.reader.handle
      (Sample.prepared "t") (rowsOf Sample.text) 1 := by
    intro row hr on id x there
    simp only [rows, List.zipIdx_cons, List.zipIdx_nil, List.mem_cons, List.not_mem_nil,
      or_false] at hr
    rcases hr with rfl | rfl
    · have := absent.symm.trans there
      cases this
    · exact absurd on (by decide)
  refine ⟨t, completed, (completed_results_file completed logs).trans ?_⟩
  rw [rows]
  cbv

/-- With its results kept where the first log is kept the same run loses the header and the first
line, as the log is written anew after the child has ended. And a device that takes the place of the
results file holds nothing. -/
theorem results_file_lost :
    (∃ t, CompletedRun (Sample.setup "l/001_a.log" [65, 10]) (.ofText "p") Sample.files Sample.text
        Sample.reader (Sample.prepared "l/001_a.log") 1 (fun _ => [65, 10]) 3 t ∧
      t.files.readBytes (.ofText "l/001_a.log") ≠
        .ok (Records.header ++ shares (fun _ => [65, 10]) (rowsOf Sample.text) 1)) ∧
    ∃ t, Records.prepare Sample.files (Sample.setup "null" []).context =
        (none, Sample.prepared "null") ∧
      Sample.finish "null" [] = .completed t ∧ t.files.readBytes (.ofText "null") = .ok [] := by
  constructor
  · obtain ⟨t, completed, holds⟩ := Sample.completedRun "l/001_a.log" [65, 10]
      (Utf8.ofText "b-c,NOT_EXECUTED,,,\n") (x := false) (by cbv) (by cbv) (by cbv)
    refine ⟨t, completed, ?_⟩
    rw [holds]
    intro claimed
    have short : (Utf8.ofText "b-c,NOT_EXECUTED,,,\n").length = 20 := by cbv
    have long : (Records.header ++
        shares (fun _ => [65, 10]) (rowsOf Sample.text) 1).length = 61 := by cbv
    rw [← Except.ok.inj claimed, short] at long
    cases long
  · have leaves : Sample.left (Sample.finish "null" []) (.ofText "null") [] = some [] := by cbv
    obtain ⟨t, run, holds, _⟩ := Sample.exists_of_left leaves
    exact ⟨t, Prod.ext (by cbv) rfl, run, holds⟩

end TestBench.Run
