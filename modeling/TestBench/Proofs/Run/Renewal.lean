import TestBench.Proofs.FileSystem.Straight
import TestBench.Proofs.Run.Records
/-!
# What a prepared run finds

Preparation that succeeds leaves directories on the way to the log directory, nothing else in it, a
results file with its header, and everything else as it was. This holds if no link stands on the way
and if the log directory is found when anything is there.
-/
namespace TestBench.Records

open FileSystem (Emptied Rooted Straight Handle)

variable {fs left ready : FileSystem} {dir p : Path}

/-- If something stands at a place or below it, a path to the place finds it. -/
def FoundIfThere (fs : FileSystem) (dir : Path) : Prop :=
  (∃ l, fs.placeOf dir <+: l ∧ fs.entry? l ≠ none) → fs.pathExists dir = true

theorem makeDirectories_of_make {mid : FileSystem}
    (h : (match mid.makeDirectories dir with
      | (some e, left) => (some (Failure.logDirUnmade dir e), left)
      | (none, left) => (none, left)) = (none, left)) : mid.makeDirectories dir = (none, left) := by
  generalize mid.makeDirectories dir = t at h
  obtain ⟨error, last⟩ := t
  cases error with
  | some e => cases (Prod.mk.inj h).1
  | none => rw [(Prod.mk.inj h).2]

theorem emptied_of_resetLogDir (straight : fs.Straight dir) (own : fs.placeOf dir ∈ fs.placesOf dir)
    (found : FoundIfThere fs dir) (h : resetLogDir fs dir = (none, left)) :
    ∃ mid, Emptied (fs.placeOf dir) fs mid ∧ mid.makeDirectories dir = (none, left) := by
  unfold resetLogDir at h
  dsimp only at h
  by_cases there : fs.pathExists dir = true
  · rw [if_pos there] at h
    cases removed : fs.removeAll dir with
    | mk error mid =>
      rw [removed] at h
      cases error with
      | some e => cases (Prod.mk.inj h).1
      | none =>
        exact ⟨mid, FileSystem.emptied_removeAll straight own removed, makeDirectories_of_make h⟩
  · rw [if_neg there] at h
    refine ⟨fs, .of_absent ?_, makeDirectories_of_make h⟩
    intro l below
    cases stands : fs.entry? l with
    | none => rfl
    | some e => exact absurd (found ⟨l, below, by simp [stands]⟩) there

/-- A log directory that has been emptied: directories on its way, nothing else in it, and all that
is not in it as before. -/
structure Reset (fs : FileSystem) (dir : Path) (left : FileSystem) : Prop where
  way : ∀ l ∈ fs.placesOf dir, left.entry? l = some .directory
  others : ∀ l, l ∉ fs.placesOf dir →
    left.entry? l = if fs.placeOf dir <+: l then none else fs.entry? l
  home : left.workingDirectory = fs.workingDirectory

theorem reset_of_resetLogDir (rooted : fs.Rooted) (straight : fs.Straight dir)
    (own : fs.placeOf dir ∈ fs.placesOf dir) (outside : ¬fs.placeOf dir <+: fs.workingDirectory)
    (found : FoundIfThere fs dir) (h : resetLogDir fs dir = (none, left)) : Reset fs dir left := by
  obtain ⟨mid, emptied, made⟩ := emptied_of_resetLogDir straight own found h
  have hd := Path.ne_nil_of_mem_placesFrom own
  have full : dir ≠ [] := by
    rintro rfl
    cases own
  have same : mid.placesOf dir = fs.placesOf dir := by
    rw [FileSystem.placesOf, emptied.start]
    rfl
  obtain ⟨way, others, home⟩ := FileSystem.entry?_of_makeDirectories full
    (emptied.rooted hd rooted outside) (emptied.straight straight) made
  rw [same] at way others
  refine ⟨way, ?_, home.trans emptied.home⟩
  intro l hl
  rw [others l hl, emptied.apart l fun he => hl (he ▸ own)]

theorem Reset.start (h : Reset fs dir left) (p : Path) : left.start p = fs.start p := by
  rw [FileSystem.start, FileSystem.start, h.home]

theorem Reset.straight (h : Reset fs dir left) (straight : fs.Straight p) : left.Straight p := by
  intro l hl target there
  rw [FileSystem.placesOf, h.start] at hl
  by_cases mine : l ∈ fs.placesOf dir
  · cases (h.way l mine).symm.trans there
  · rw [h.others l mine] at there
    split at there
    · cases there
    · exact straight l hl target there

/-- The results file when it has been made anew: an old file that is emptied, or a new one. -/
structure MadeAnew (fs : FileSystem) (r : Location) (a : Nat) (x : Bool) (ready : FileSystem) :
    Prop where
  stands : ready.entry? r = some (.file a x)
  origin : fs.entry? r = some (.file a x) ∧ ready.fresh = fs.fresh ∨
    fs.entry? r = none ∧ a = fs.fresh ∧ ready.fresh = fs.fresh + 1
  header : ready.content a = header
  others : ∀ l, l ≠ r → ready.entry? l = fs.entry? l
  contents : ∀ id, id ≠ a → ready.content id = fs.content id
  home : ready.workingDirectory = fs.workingDirectory

theorem madeAnew_of_createResults {a : Nat} {x : Bool} (straight : fs.Straight p)
    (regular : ready.entry? (fs.placeOf p) = some (.file a x))
    (h : createResults fs p = (none, ready)) : MadeAnew fs (fs.placeOf p) a x ready := by
  obtain ⟨handle, opened, opens, written⟩ : ∃ handle opened, fs.openWrite p = .ok (handle, opened) ∧
      handle.write opened header = .ok ready := by
    unfold createResults at h
    cases opens : fs.openWrite p with
    | error e =>
      rw [opens] at h
      cases h
    | ok t =>
      obtain ⟨handle, opened⟩ := t
      rw [opens] at h
      dsimp only at h
      split at h
      · cases h
      · rename_i written
        obtain rfl := (Prod.mk.inj h).2
        exact ⟨handle, opened, rfl, written⟩
  unfold FileSystem.openWrite at opens
  cases located : fs.locate .make p with
  | error e =>
    rw [located] at opens
    cases opens
  | ok spot =>
    have here := FileSystem.place_eq_of_locate straight located
    have stands := (FileSystem.walks_of_locate located).entry
    obtain ⟨l, entry⟩ := spot
    dsimp only at here stands
    subst here
    simp only [located] at opens
    cases entry with
    | none =>
      have hl := FileSystem.ne_nil_of_free stands.symm
      dsimp only at opens
      split at opens
      · cases opens
      · cases opens
        obtain rfl := Except.ok.inj written
        have new := FileSystem.entry?_create hl fs false []
        have same : some (Entry.file fs.fresh false) = some (.file a x) := by
          rw [← regular]
          exact ((new (fs.placeOf p)).trans (if_pos rfl)).symm
        cases same
        refine ⟨regular, .inr ⟨stands.symm, rfl, rfl⟩, ?_, ?_, ?_, rfl⟩
        · rw [FileSystem.content_append, if_pos rfl, FileSystem.content_create, if_pos rfl]
          rfl
        · intro m hm
          exact (new m).trans (if_neg hm)
        · intro id hid
          rw [FileSystem.content_append, if_neg hid, FileSystem.content_create, if_neg hid]
    | some e =>
      cases e with
      | directory => cases opens
      | link target => cases opens
      | program name => cases opens
      | device d =>
        have same : opened = fs := by
          cases d <;> cases opens <;> rfl
        have device : handle = .device d := by
          cases d <;> cases opens <;> rfl
        subst same device
        obtain rfl := FileSystem.write_device written
        cases regular.symm.trans stands.symm
      | file id y =>
        cases opens
        obtain rfl := Except.ok.inj written
        cases stands.trans regular
        refine ⟨regular, .inl ⟨regular, rfl⟩, ?_, fun _ _ => rfl, ?_, rfl⟩
        · rw [FileSystem.content_append, if_pos rfl, FileSystem.content_write, if_pos rfl]
          rfl
        · intro id hid
          rw [FileSystem.content_append, if_neg hid, FileSystem.content_write, if_neg hid]

/-- The files when a run has been prepared: directories on the way to the log directory, nothing
else in it, a results file with its header, and all that is elsewhere as before. -/
structure Renewed (fs : FileSystem) (ctx : Context) (a : Nat) (x : Bool) (ready : FileSystem) :
    Prop where
  way : ∀ l ∈ fs.placesOf ctx.logDir, ready.entry? l = some .directory
  results : ready.entry? (fs.placeOf ctx.resultsPath) = some (.file a x)
  others : ∀ l, l ∉ fs.placesOf ctx.logDir → l ≠ fs.placeOf ctx.resultsPath →
    ready.entry? l = if fs.placeOf ctx.logDir <+: l then none else fs.entry? l
  origin : fs.entry? (fs.placeOf ctx.resultsPath) = some (.file a x) ∨
    fs.entry? (fs.placeOf ctx.resultsPath) = none ∧ fs.fresh ≤ a
  header : ready.content a = header
  contents : ∀ id, id ≠ a → ready.content id = fs.content id
  fresh : fs.fresh ≤ ready.fresh ∧ a < ready.fresh
  home : ready.workingDirectory = fs.workingDirectory

theorem renewed_of_prepare {a : Nat} {x : Bool} (sound : fs.Sound) (rooted : fs.Rooted)
    (logs : fs.Straight ctx.logDir) (own : fs.placeOf ctx.logDir ∈ fs.placesOf ctx.logDir)
    (results : fs.Straight ctx.resultsPath)
    (apart : ¬fs.placeOf ctx.logDir <+: fs.placeOf ctx.resultsPath)
    (outside : ¬fs.placeOf ctx.logDir <+: fs.workingDirectory) (found : FoundIfThere fs ctx.logDir)
    (regular : ready.entry? (fs.placeOf ctx.resultsPath) = some (.file a x))
    (h : prepare fs ctx = (none, ready)) : Renewed fs ctx a x ready := by
  have pruned := resetLogDir_pruned fs ctx.logDir
  unfold prepare at h
  cases emptied : resetLogDir fs ctx.logDir with
  | mk failure left =>
    rw [emptied] at h pruned
    cases failure with
    | some f => cases (Prod.mk.inj h).1
    | none =>
      have reset := reset_of_resetLogDir rooted logs own outside found emptied
      have same : left.placeOf ctx.resultsPath = fs.placeOf ctx.resultsPath := by
        rw [FileSystem.placeOf, reset.start]
        rfl
      rw [← same] at regular
      have anew := madeAnew_of_createResults (reset.straight results) regular h
      rw [same] at anew
      have aside : fs.placeOf ctx.resultsPath ∉ fs.placesOf ctx.logDir := by
        intro mine
        have there := reset.way _ mine
        rcases anew.origin with ⟨file, _⟩ | ⟨gone, _⟩
        · cases there.symm.trans file
        · cases there.symm.trans gone
      have before : left.entry? (fs.placeOf ctx.resultsPath) =
          fs.entry? (fs.placeOf ctx.resultsPath) := by
        rw [reset.others _ aside, if_neg apart]
      have fresh : left.fresh = fs.fresh := pruned.fresh
      refine ⟨?_, anew.stands, ?_, ?_, anew.header, ?_, ?_, anew.home.trans reset.home⟩
      · intro l hl
        rw [anew.others l fun he => aside (he ▸ hl), reset.way l hl]
      · intro l hl hr
        rw [anew.others l hr, reset.others l hl]
      · rcases anew.origin with ⟨file, _⟩ | ⟨gone, new, _⟩
        · exact .inl (before.symm.trans file)
        · exact .inr ⟨before.symm.trans gone, by omega⟩
      · intro id hid
        rw [anew.contents id hid, pruned.content]
      · rcases anew.origin with ⟨file, still⟩ | ⟨_, new, more⟩
        · have old := sound _ _ _ (before.symm.trans file)
          omega
        · omega

end TestBench.Records
