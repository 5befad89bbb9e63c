import TestBench.Proofs.FileSystem.Growth
/-!
# Alike file systems

Two file systems with the same tree, whose files hold the same apart from some of them. What a path
leads to is the same in both, and what is written on one side into a file that is set apart makes no
difference.
-/
namespace TestBench.FileSystem

/-- The same tree, and the same contents of all files that are not set apart. -/
structure Alike (away : Nat → Prop) (fs new : FileSystem) : Prop where
  entries : ∀ l, fs.entry? l = new.entry? l
  fresh : fs.fresh = new.fresh
  home : fs.workingDirectory = new.workingDirectory
  contents : ∀ id, ¬away id → fs.content id = new.content id

namespace Alike

variable {away more : Nat → Prop} {fs new : FileSystem} {aim : Aim} {links : Nat} {dir l : Location}
  {slashed : Bool} {todo : List Bytes} {p : Path} {id : Nat}

theorem refl (fs : FileSystem) : Alike away fs fs :=
  ⟨fun _ => rfl, rfl, rfl, fun _ _ => rfl⟩

theorem mono (h : Alike away fs new) (wider : ∀ id, away id → more id) : Alike more fs new :=
  ⟨h.entries, h.fresh, h.home, fun id out => h.contents id fun inside => out (wider id inside)⟩

theorem walk (h : Alike away fs new) (aim : Aim) (links : Nat) (dir : Location) (slashed : Bool)
    (todo : List Bytes) :
    fs.walk aim links dir slashed todo = new.walk aim links dir slashed todo := by
  have same : fs.entry? = new.entry? := funext h.entries
  -- A link is followed with fewer links left, every other name with fewer names left.
  induction links generalizing dir slashed todo with
  | zero =>
    induction todo generalizing dir with
    | nil => rw [FileSystem.walk, FileSystem.walk, same]
    | cons name rest shorter =>
      rw [walk.eq_def fs, walk.eq_def new]
      simp only [same, shorter]
  | succ n fewer =>
    induction todo generalizing dir with
    | nil => rw [FileSystem.walk, FileSystem.walk, same]
    | cons name rest shorter =>
      rw [walk.eq_def fs, walk.eq_def new]
      simp only [same, shorter, fewer]

theorem locate (h : Alike away fs new) (aim : Aim) (p : Path) :
    fs.locate aim p = new.locate aim p := by
  simp only [FileSystem.locate, h.home, h.walk]

theorem stat (h : Alike away fs new) (p : Path) : fs.stat p = new.stat p := by
  simp only [FileSystem.stat, h.locate]

theorem openAppend (h : Alike away fs new) (p : Path) : fs.openAppend p = new.openAppend p := by
  simp only [FileSystem.openAppend, h.stat]

theorem readAll {handle : Handle} (h : Alike away fs new)
    (near : ∀ id, handle = .file id → ¬away id) : handle.readAll fs = handle.readAll new := by
  cases handle with
  | file id => exact congrArg Except.ok (h.contents id (near id rfl))
  | device d => cases d <;> rfl
  | directory => rfl

theorem readBytes (h : Alike away fs new)
    (near : ∀ id x, fs.stat p = .ok (.file id x) → ¬away id) :
    fs.readBytes p = new.readBytes p := by
  unfold FileSystem.readBytes openRead
  rw [← h.stat p]
  cases stands : fs.stat p with
  | error e => rfl
  | ok e =>
    cases e with
    | file id x => exact congrArg Except.ok (h.contents id (near id x stands))
    | device d => cases d <;> rfl
    | directory => rfl
    | link target => rfl
    | program name => rfl

theorem write (h : Alike away fs new) (id : Nat) (bs : Bytes) :
    Alike away (fs.write id bs) (new.write id bs) := by
  refine ⟨h.entries, h.fresh, h.home, fun j out => ?_⟩
  rw [content_write, content_write, h.contents j out]

theorem put (h : Alike away fs new) (hl : l ≠ []) (e : Entry) :
    Alike away (fs.put l e) (new.put l e) := by
  refine ⟨fun m => ?_, h.fresh, h.home, h.contents⟩
  rw [entry?_put hl, entry?_put hl, h.entries m]

theorem create (h : Alike away fs new) {l : Location} (free : fs.entry? l = none) (x : Bool)
    (bs : Bytes) : Alike away (fs.create l x bs) (new.create l x bs) := by
  have hl := ne_nil_of_free free
  refine ⟨?_, congrArg (· + 1) h.fresh, h.home, ?_⟩
  · intro m
    rw [entry?_create hl, entry?_create hl, h.entries m, h.fresh]
  · intro j out
    rw [content_create, content_create, h.contents j out, h.fresh]

/-- Into a file that is set apart each side writes what it likes. -/
theorem append (h : Alike away fs new) {bs cs : Bytes} (apart : bs = cs ∨ away id) :
    Alike away (fs.append id bs) (new.append id cs) := by
  refine ⟨h.entries, h.fresh, h.home, fun j out => ?_⟩
  rw [content_append, content_append, h.contents j out]
  by_cases hj : j = id
  · rw [if_pos hj, if_pos hj]
    subst hj
    rw [h.contents j out, apart.resolve_right out]
  · rw [if_neg hj, if_neg hj]

/-- A file that is opened for writing is opened on both sides, or on neither. -/
theorem openWrite (h : Alike away fs new) (p : Path) :
    (∃ e, fs.openWrite p = .error e ∧ new.openWrite p = .error e) ∨
      ∃ handle left right, fs.openWrite p = .ok (handle, left) ∧
        new.openWrite p = .ok (handle, right) ∧ Alike away left right := by
  unfold FileSystem.openWrite
  rw [← h.locate .make p]
  cases located : fs.locate .make p with
  | error e => exact .inl ⟨e, rfl, rfl⟩
  | ok spot =>
    have stands := (locate_iff.mp located).2.entry
    obtain ⟨l, entry⟩ := spot
    dsimp only at stands ⊢
    cases entry with
    | none =>
      cases refusal? l false with
      | some e => exact .inl ⟨_, rfl, rfl⟩
      | none =>
        dsimp only
        rw [← h.fresh]
        exact .inr ⟨_, _, _, rfl, rfl, h.create stands.symm false []⟩
    | some e =>
      cases e with
      | file id x => exact .inr ⟨_, _, _, rfl, rfl, h.write id []⟩
      | device d =>
        cases d with
        | terminal => exact .inl ⟨_, rfl, rfl⟩
        | null => exact .inr ⟨_, _, _, rfl, rfl, h⟩
        | zero => exact .inr ⟨_, _, _, rfl, rfl, h⟩
        | full => exact .inr ⟨_, _, _, rfl, rfl, h⟩
      | directory => exact .inl ⟨_, rfl, rfl⟩
      | link target => exact .inl ⟨_, rfl, rfl⟩
      | program name => exact .inl ⟨_, rfl, rfl⟩

/-- What is written through an open file is taken on both sides, or on neither. -/
theorem writeThrough (h : Alike away fs new) (handle : Handle) (bs : Bytes) :
    (∃ e, handle.write fs bs = .error e ∧ handle.write new bs = .error e) ∨
      ∃ left right, handle.write fs bs = .ok left ∧ handle.write new bs = .ok right ∧
        Alike away left right := by
  cases handle with
  | file id => exact .inr ⟨_, _, rfl, rfl, h.append (.inl rfl)⟩
  | directory => exact .inl ⟨_, rfl, rfl⟩
  | device d =>
    cases d with
    | null => exact .inr ⟨_, _, rfl, rfl, h⟩
    | zero => exact .inr ⟨_, _, rfl, rfl, h⟩
    | terminal => exact .inl ⟨_, rfl, rfl⟩
    | full =>
      simp only [Handle.write]
      by_cases none : bs.isEmpty = true
      · rw [if_pos none, if_pos none]
        exact .inr ⟨_, _, rfl, rfl, h⟩
      · rw [if_neg none, if_neg none]
        exact .inl ⟨_, rfl, rfl⟩

end Alike
end TestBench.FileSystem
