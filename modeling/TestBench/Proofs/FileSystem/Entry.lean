import TestBench.FileSystem.Directory
/-!
# Entries and contents

What each change of a file system does to what stands at the places and to what the files hold. A
file keeps its contents when its name goes.
-/
namespace TestBench.FileSystem

variable {fs left : FileSystem} {l m : Location} {e : Entry} {id : Nat}

theorem lookup_filter {α β : Type} [BEq α] [LawfulBEq α] (q : α → Bool) (xs : List (α × β))
    (k : α) :
    (xs.filter fun t => q t.1).lookup k = if q k then xs.lookup k else none := by
  induction xs with
  | nil =>
    rw [List.filter_nil, List.lookup_nil]
    split <;> rfl
  | cons t xs ih =>
    obtain ⟨b, v⟩ := t
    cases hb : q b with
    | true =>
      rw [List.filter_cons_of_pos (by simpa using hb), List.lookup_cons, List.lookup_cons, ih]
      cases hk : k == b with
      | true =>
        have hq : q k = true := by rw [eq_of_beq hk, hb]
        rw [if_pos hq, if_pos hq]
      | false => rfl
    | false =>
      rw [List.filter_cons_of_neg (by simpa using hb), List.lookup_cons, ih]
      cases hk : k == b with
      | true =>
        have hq : ¬q k = true := by rw [eq_of_beq hk, hb]; exact Bool.false_ne_true
        rw [if_neg hq, if_neg hq]
      | false => rfl

theorem ne_nil_of_free (h : fs.entry? l = none) : l ≠ [] := by
  rintro rfl
  cases h

theorem ne_nil_of_file {x : Bool} (h : fs.entry? l = some (.file id x)) : l ≠ [] := by
  rintro rfl
  cases h

theorem entry?_of_ne_nil (hl : l ≠ []) (fs : FileSystem) : fs.entry? l = fs.entries.lookup l :=
  if_neg fun h => hl (List.isEmpty_iff.mp h)

theorem lookup_put (fs : FileSystem) (l : Location) (e : Entry) (m : Location) :
    (fs.put l e).entries.lookup m = if m = l then some e else fs.entries.lookup m := by
  rw [put, List.lookup_cons, lookup_filter (· != l)]
  by_cases h : m = l
  · rw [if_pos h, h, beq_self_eq_true]
  · have hb : (m == l) = false := beq_eq_false_iff_ne.mpr h
    rw [if_neg h, hb, if_pos (bne_iff_ne.mpr h)]

theorem entry?_put (hl : l ≠ []) (fs : FileSystem) (e : Entry) (m : Location) :
    entry? (fs.put l e) m = if m = l then some e else fs.entry? m := by
  by_cases hm : m = []
  · rw [hm, if_neg (Ne.symm hl)]
    rfl
  · rw [entry?_of_ne_nil hm, entry?_of_ne_nil hm, lookup_put]

theorem entry?_filter {q : Location → Bool} (hm : m ≠ [])
    (h : entry? { fs with entries := fs.entries.filter fun t => q t.1 } m = some e) :
    fs.entry? m = some e := by
  rw [entry?_of_ne_nil hm, lookup_filter] at h
  rw [entry?_of_ne_nil hm]
  split at h
  · exact h
  · cases h

theorem entry?_create (hl : l ≠ []) (fs : FileSystem) (x : Bool) (bs : Bytes) (m : Location) :
    entry? (fs.create l x bs) m = if m = l then some (.file fs.fresh x) else fs.entry? m :=
  entry?_put hl fs _ m

theorem mem_entries (hl : l ≠ []) (h : fs.entry? l = some e) : (l, e) ∈ fs.entries := by
  rw [entry?_of_ne_nil hl] at h
  obtain ⟨before, after, hs, _⟩ := List.lookup_eq_some_iff.mp h
  rw [hs]
  exact List.mem_append_right _ List.mem_cons_self

theorem content_write (fs : FileSystem) (id : Nat) (bs : Bytes) (j : Nat) :
    (fs.write id bs).content j = if j = id then bs else fs.content j := by
  unfold content write
  rw [List.lookup_cons, lookup_filter (· != id)]
  by_cases h : j = id
  · rw [if_pos h, h, beq_self_eq_true]
    rfl
  · have hb : (j == id) = false := beq_eq_false_iff_ne.mpr h
    rw [if_neg h, hb, if_pos (bne_iff_ne.mpr h)]

theorem content_append (fs : FileSystem) (id : Nat) (bs : Bytes) (j : Nat) :
    (fs.append id bs).content j = if j = id then fs.content id ++ bs else fs.content j :=
  content_write fs id _ j

theorem content_create (fs : FileSystem) (l : Location) (x : Bool) (bs : Bytes) (j : Nat) :
    (fs.create l x bs).content j = if j = fs.fresh then bs else fs.content j :=
  content_write (fs.put l _) fs.fresh bs j

/-- The numbers of the files that have a name are in use. -/
def Sound (fs : FileSystem) : Prop := ∀ l id x, fs.entry? l = some (.file id x) → id < fs.fresh

theorem sound_of_entries (h : ∀ t ∈ fs.entries, ∀ id x, t.2 = .file id x → id < fs.fresh) :
    fs.Sound := by
  intro l id x there
  exact h _ (mem_entries (ne_nil_of_file there) there) id x rfl

theorem Sound.create (h : fs.Sound) (free : fs.entry? l = none) (x : Bool) (bs : Bytes) :
    (fs.create l x bs).Sound := by
  intro m id y there
  change id < fs.fresh + 1
  rw [entry?_create (ne_nil_of_free free)] at there
  by_cases hm : m = l
  · rw [if_pos hm] at there
    cases there
    exact Nat.lt_succ_self _
  · rw [if_neg hm] at there
    exact Nat.lt_succ_of_lt (h m id y there)

/-- What is left when directories have been made and names have gone: no file has got a name, and
none has changed. -/
structure Pruned (fs left : FileSystem) : Prop where
  contents : left.contents = fs.contents
  fresh : left.fresh = fs.fresh
  files : ∀ l id x, left.entry? l = some (.file id x) → fs.entry? l = some (.file id x)

theorem Pruned.refl (fs : FileSystem) : fs.Pruned fs := ⟨rfl, rfl, fun _ _ _ h => h⟩

theorem Pruned.trans {last : FileSystem} (h : fs.Pruned left) (g : left.Pruned last) :
    fs.Pruned last :=
  ⟨g.contents.trans h.contents, g.fresh.trans h.fresh,
    fun l id x there => h.files l id x (g.files l id x there)⟩

theorem Pruned.sound (h : fs.Pruned left) (sound : fs.Sound) : left.Sound := by
  intro l id x there
  rw [h.fresh]
  exact sound l id x (h.files l id x there)

theorem Pruned.content (h : fs.Pruned left) (id : Nat) : left.content id = fs.content id := by
  rw [FileSystem.content, FileSystem.content, h.contents]

theorem pruned_directory (fs : FileSystem) (l : Location) : fs.Pruned (fs.put l .directory) := by
  refine ⟨rfl, rfl, ?_⟩
  intro m id x there
  have hm := ne_nil_of_file there
  rw [entry?_of_ne_nil hm, lookup_put] at there
  by_cases h : m = l
  · rw [if_pos h] at there
    cases there
  · rw [if_neg h] at there
    rw [entry?_of_ne_nil hm, there]

theorem pruned_filter (fs : FileSystem) (q : Location → Bool) :
    fs.Pruned { fs with entries := fs.entries.filter fun t => q t.1 } := by
  refine ⟨rfl, rfl, ?_⟩
  intro m id x there
  exact entry?_filter (ne_nil_of_file there) there

theorem pruned_drop (fs : FileSystem) (l : Location) : fs.Pruned (fs.drop l) :=
  pruned_filter fs (· != l)

theorem pruned_clear (fs : FileSystem) (l : Location) : fs.Pruned (fs.clear l) :=
  pruned_filter fs fun m => !(l.isPrefixOf m && l != m)

theorem makeDirectory_eq {p : Path} (h : fs.makeDirectory p = .ok left) :
    ∃ spot, fs.locateName p = .ok spot ∧ spot.entry = none ∧
      left = fs.put spot.location .directory := by
  unfold makeDirectory at h
  cases hs : fs.locateName p with
  | error e =>
    rw [hs] at h
    cases h
  | ok spot =>
    simp only [hs] at h
    cases he : spot.entry with
    | some e =>
      rw [he] at h
      cases h
    | none =>
      simp only [he] at h
      cases hr : refusal? spot.location true with
      | some e =>
        rw [hr] at h
        cases h
      | none =>
        simp only [hr, Except.ok.injEq] at h
        exact ⟨spot, rfl, he, h.symm⟩

theorem makeDirectory_of_free {p : Path} (named : fs.locateName p = .ok ⟨l, none⟩)
    (free : refusal? l true = none) : fs.makeDirectory p = .ok (fs.put l .directory) := by
  simp only [makeDirectory, named, free]

theorem makeDirectories_of_made {p : Path} (full : p ≠ []) (made : fs.makeDirectory p = .ok left) :
    fs.makeDirectories p = (none, left) := by
  have some : p.isEmpty = false := List.isEmpty_eq_false_iff.mpr full
  unfold makeDirectories
  cases Path.ancestors p with
  | nil => simp only [makeWithParents, some, Bool.false_eq_true, if_false, makeOrFind, made]
  | cons q above => simp only [makeWithParents, some, Bool.false_eq_true, if_false, made]

theorem openWrite_of_free {p : Path} (located : fs.locate .make p = .ok ⟨l, none⟩)
    (free : refusal? l false = none) :
    fs.openWrite p = .ok (.file fs.fresh, fs.create l false []) := by
  simp only [openWrite, located, free]

section

variable {R : FileSystem → FileSystem → Prop} {P : Path → Prop} (refl : ∀ fs, R fs fs)
  (made : ∀ {fs left p}, P p → makeDirectory fs p = .ok left → R fs left)

include refl made

theorem rel_makeOrFind (fs : FileSystem) {p : Path} (own : P p) : R fs (fs.makeOrFind p).2 := by
  unfold makeOrFind
  cases h : fs.makeDirectory p with
  | ok left => exact made own h
  | error e =>
    dsimp only
    by_cases hd : fs.isDirectory p = true
    · rw [if_pos hd]
      exact refl fs
    · rw [if_neg hd]
      exact refl fs

variable (trans : ∀ {fs left last}, R fs left → R left last → R fs last)

include trans

theorem rel_makeWithParents (fs : FileSystem) {p : Path} {above : List Path} (own : P p)
    (others : ∀ q ∈ above, P q) : R fs (fs.makeWithParents p above).2 := by
  induction above generalizing p with
  | nil =>
    unfold makeWithParents
    by_cases hp : p.isEmpty = true
    · rw [if_pos hp]
      exact refl fs
    · rw [if_neg hp]
      exact rel_makeOrFind refl made fs own
  | cons q qs ih =>
    unfold makeWithParents
    by_cases hp : p.isEmpty = true
    · rw [if_pos hp]
      exact refl fs
    rw [if_neg hp]
    split
    · rename_i left h
      exact made own h
    · have hq := ih (others q List.mem_cons_self) fun r hr => others r (List.mem_cons_of_mem q hr)
      split
      · rename_i e left h
        rw [h] at hq
        exact hq
      · rename_i left h
        rw [h] at hq
        exact trans hq (rel_makeOrFind refl made left own)
    · split <;> exact refl fs

/-- What holds from before each directory that is made to after it, and adds up, holds from before
a directory is made with its parents to after it. -/
theorem rel_makeDirectories (fs : FileSystem) {p : Path} (own : P p)
    (others : ∀ q ∈ Path.ancestors p, P q) : R fs (fs.makeDirectories p).2 :=
  rel_makeWithParents refl made trans fs own others

end

theorem pruned_makeDirectory {p : Path} (h : fs.makeDirectory p = .ok left) : fs.Pruned left := by
  obtain ⟨spot, _, _, rfl⟩ := makeDirectory_eq h
  exact pruned_directory fs _

theorem pruned_makeDirectories (fs : FileSystem) (p : Path) : fs.Pruned (fs.makeDirectories p).2 :=
  rel_makeDirectories (P := fun _ => True) Pruned.refl (fun _ => pruned_makeDirectory) Pruned.trans
    fs trivial fun _ _ => trivial

theorem pruned_removeDirectory {p : Path} (h : fs.removeDirectory p = .ok left) :
    fs.Pruned left := by
  unfold removeDirectory at h
  repeat' split at h
  all_goals cases h
  exact pruned_drop fs _

theorem pruned_removeAll (fs : FileSystem) (p : Path) : fs.Pruned (fs.removeAll p).2 := by
  unfold removeAll
  cases hs : fs.locate .keep p with
  | error e => exact .refl fs
  | ok spot =>
    dsimp only
    cases spot.entry with
    | none => exact .refl fs
    | some e =>
      cases e with
      | directory =>
        dsimp only
        have cleared := pruned_clear fs spot.location
        split
        · rename_i left h
          exact cleared.trans (pruned_removeDirectory h)
        · exact cleared
        · exact cleared
      | link target => exact pruned_drop fs _
      | file id x => exact .refl fs
      | device d => exact .refl fs
      | program name => exact .refl fs

end TestBench.FileSystem
