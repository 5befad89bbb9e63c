import TestBench.Proofs.FileSystem.Growth
import TestBench.Run.Records
/-!
# What preparation and logs leave

Preparation leaves a results file that holds its header and no more, and leaves every other file as
it was. A log changes nothing but the file that its path leads to.
-/
namespace TestBench.Records

open FileSystem (Pruned Written)

variable {fs ready : FileSystem} {p : Path} {ctx : Context}

def header : Bytes := Utf8.ofText (resultsHeader ++ "\n")

def notExecutedLine (name : String) : Bytes := Utf8.ofText (notExecutedRow name ++ "\n")

theorem resetLogDir_pruned (fs : FileSystem) (dir : Path) : fs.Pruned (resetLogDir fs dir).2 := by
  unfold resetLogDir
  dsimp only
  by_cases there : fs.pathExists dir = true
  · rw [if_pos there]
    have removed := FileSystem.pruned_removeAll fs dir
    generalize fs.removeAll dir = t at removed
    obtain ⟨error, left⟩ := t
    cases error with
    | some e => exact removed
    | none =>
      have made := FileSystem.pruned_makeDirectories left dir
      dsimp only
      generalize left.makeDirectories dir = u at made
      obtain ⟨error, last⟩ := u
      cases error <;> exact removed.trans made
  · rw [if_neg there]
    have made := FileSystem.pruned_makeDirectories fs dir
    generalize fs.makeDirectories dir = u at made
    obtain ⟨error, last⟩ := u
    cases error <;> exact made

theorem prepare_of_absent {left : FileSystem} (full : ctx.logDir ≠ [])
    (absent : fs.pathExists ctx.logDir = false) (made : fs.makeDirectory ctx.logDir = .ok left) :
    prepare fs ctx = createResults left ctx.resultsPath := by
  have dirs := FileSystem.makeDirectories_of_made full made
  simp only [prepare, resetLogDir, absent, Bool.false_eq_true, if_false, dirs]

theorem prepare_of_there {emptied left : FileSystem} (full : ctx.logDir ≠ [])
    (there : fs.pathExists ctx.logDir = true)
    (removed : fs.removeAll ctx.logDir = (none, emptied))
    (made : emptied.makeDirectory ctx.logDir = .ok left) :
    prepare fs ctx = createResults left ctx.resultsPath := by
  have dirs := FileSystem.makeDirectories_of_made full made
  simp only [prepare, resetLogDir, there, if_true, removed, dirs]

theorem createResults_of_file {left : FileSystem} {id : Nat}
    (opened : fs.openWrite p = .ok (.file id, left)) :
    createResults fs p = (none, left.append id header) := by
  simp only [createResults, opened]
  rfl

/-- The file that the results path leads to, once it is there. -/
structure Prepared (fs ready : FileSystem) (p : Path) : Prop where
  sound : fs.Sound → ready.Sound
  fresh : fs.fresh ≤ ready.fresh
  results : ∀ id x, ready.stat p = .ok (.file id x) → ready.content id = header
  others : ∀ id, (∀ x, ready.stat p ≠ .ok (.file id x)) → ready.content id = fs.content id

theorem createResults_prepared (h : createResults fs p = (none, ready)) : Prepared fs ready p := by
  unfold createResults at h
  cases ho : fs.openWrite p with
  | error e =>
    rw [ho] at h
    cases h
  | ok t =>
    obtain ⟨handle, opened⟩ := t
    simp only [ho] at h
    cases hw : handle.write opened (Utf8.ofText (resultsHeader ++ "\n")) with
    | error e =>
      rw [hw] at h
      cases h
    | ok written =>
      rw [hw] at h
      obtain rfl := (Prod.mk.inj h).2
      obtain ⟨changed, results, others⟩ := (FileSystem.made_of_openWrite ho).write hw
      exact ⟨changed.sound, changed.grown.fresh, results, others⟩

theorem prepared_of_prepare (h : prepare fs ctx = (none, ready)) :
    Prepared fs ready ctx.resultsPath := by
  have pruned := resetLogDir_pruned fs ctx.logDir
  unfold prepare at h
  generalize resetLogDir fs ctx.logDir = t at h pruned
  obtain ⟨failure, left⟩ := t
  cases failure with
  | some f => cases h
  | none =>
    obtain ⟨sound, fresh, results, others⟩ := createResults_prepared h
    dsimp only at pruned
    refine ⟨fun s => sound (pruned.sound s), pruned.fresh ▸ fresh, results, ?_⟩
    intro id apart
    rw [others id apart, pruned.content]

theorem createResults_written (fs : FileSystem) (p : Path) :
    fs.Written p (createResults fs p).2 := by
  unfold createResults
  cases ho : fs.openWrite p with
  | error e => exact .refl fs p
  | ok t =>
    obtain ⟨handle, opened⟩ := t
    have made := FileSystem.made_of_openWrite ho
    dsimp only
    cases hw : handle.write opened (Utf8.ofText (resultsHeader ++ "\n")) with
    | error e => exact made.written
    | ok written => exact (made.write hw).1

theorem writeLog_written (fs : FileSystem) (p : Path) (output : String) :
    fs.Written p (writeLog fs p output).2 := by
  unfold writeLog
  cases ho : fs.openWrite p with
  | error e => exact .refl fs p
  | ok t =>
    obtain ⟨handle, opened⟩ := t
    have made := FileSystem.made_of_openWrite ho
    dsimp only
    cases hw : handle.write opened (Utf8.ofText output) with
    | error e => exact made.written
    | ok written => exact (made.write hw).1

end TestBench.Records
