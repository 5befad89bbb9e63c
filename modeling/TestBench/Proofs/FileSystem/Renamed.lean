import TestBench.FileSystem.Bench
import TestBench.Proofs.FileSystem.Growth
/-!
# The same files under other numbers

Two file systems with the same tree, whose files hold the same under numbers that may differ. A path
leads to the same place on both sides, and what is opened, read, made or written on both sides keeps
them the same.
-/
namespace TestBench.FileSystem

/-- The numbers of files on one side, with the numbers of the same files on the other side. -/
abbrev Pairing := Nat → Nat → Prop

/-- What stands at a place on two sides: nothing, the same, or files that are a pair. -/
inductive EntryAlike (ρ : Pairing) : Option Entry → Option Entry → Prop where
  | absent : EntryAlike ρ none none
  | same {e : Entry} (other : ∀ id x, e ≠ .file id x) : EntryAlike ρ (some e) (some e)
  | file {a b : Nat} {x : Bool} (pair : ρ a b) :
      EntryAlike ρ (some (.file a x)) (some (.file b x))

inductive HandleAlike (ρ : Pairing) : Handle → Handle → Prop where
  | file {a b : Nat} (pair : ρ a b) : HandleAlike ρ (.file a) (.file b)
  | device (d : Device) : HandleAlike ρ (.device d) (.device d)
  | directory : HandleAlike ρ .directory .directory

/-- A file is paired with one file at most, and a pair holds the same. -/
structure Paired (ρ : Pairing) (fs new : FileSystem) : Prop where
  right : ∀ {a b c}, ρ a b → ρ a c → b = c
  left : ∀ {a b c}, ρ a c → ρ b c → a = b
  old : ∀ {a b}, ρ a b → a < fs.fresh ∧ b < new.fresh
  content : ∀ {a b}, ρ a b → fs.content a = new.content b

structure Renamed (ρ : Pairing) (fs new : FileSystem) : Prop where
  paired : Paired ρ fs new
  entry : ∀ l, EntryAlike ρ (fs.entry? l) (new.entry? l)
  home : fs.workingDirectory = new.workingDirectory

variable {ρ σ : Pairing} {fs new : FileSystem} {aim : Aim} {links : Nat} {dir l : Location}
  {slashed : Bool} {todo : List Bytes} {spot : Spot} {p : Path} {e : Entry} {c d : Option Entry}
  {handle handle' : Handle} {a b : Nat}

theorem EntryAlike.symm (h : EntryAlike ρ c d) : EntryAlike (fun a b => ρ b a) d c := by
  cases h with
  | absent => exact .absent
  | same other => exact .same other
  | file pair => exact .file pair

theorem EntryAlike.mono (h : EntryAlike ρ c d) (more : ∀ a b, ρ a b → σ a b) :
    EntryAlike σ c d := by
  cases h with
  | absent => exact .absent
  | same other => exact .same other
  | file pair => exact .file (more _ _ pair)

theorem EntryAlike.eq_none (h : EntryAlike ρ none d) : d = none := by
  cases h
  rfl

theorem EntryAlike.eq_of_passed (h : EntryAlike ρ (some e) d) (passed : e.isPassed = true) :
    d = some e := by
  cases h with
  | same other => rfl
  | file pair => cases passed

theorem EntryAlike.exists_solid (h : EntryAlike ρ (some e) d) (solid : e.isPassed = false) :
    ∃ f, d = some f ∧ f.isPassed = false := by
  cases h with
  | same other => exact ⟨e, rfl, solid⟩
  | file pair => exact ⟨_, rfl, rfl⟩

/-- Alike entries show the same. -/
theorem EntryAlike.shown (paired : Paired ρ fs new) (h : EntryAlike ρ c d) :
    c.map fs.shown = d.map new.shown := by
  cases h with
  | absent => rfl
  | @same e other =>
    cases e with
    | file id x => exact absurd rfl (other id x)
    | directory => rfl
    | link target => rfl
    | device d => rfl
    | program name => rfl
  | file pair => exact congrArg (fun bs => some (Shown.file bs)) (paired.content pair)

/-- Alike entries are opened on both sides, or on neither. -/
theorem EntryAlike.handleOf {e' : Entry} (h : EntryAlike ρ (some e) (some e')) :
    (∃ x, FileSystem.handleOf e = .error x ∧ FileSystem.handleOf e' = .error x) ∨
      ∃ handle handle', FileSystem.handleOf e = .ok handle ∧
        FileSystem.handleOf e' = .ok handle' ∧ HandleAlike ρ handle handle' := by
  cases h with
  | file pair => exact .inr ⟨_, _, rfl, rfl, .file pair⟩
  | same other =>
    cases e with
    | file id x => exact absurd rfl (other id x)
    | directory => exact .inr ⟨_, _, rfl, rfl, .directory⟩
    | link target => exact .inl ⟨_, rfl, rfl⟩
    | program name => exact .inl ⟨_, rfl, rfl⟩
    | device d =>
      cases d with
      | terminal => exact .inl ⟨_, rfl, rfl⟩
      | null => exact .inr ⟨_, _, rfl, rfl, .device _⟩
      | zero => exact .inr ⟨_, _, rfl, rfl, .device _⟩
      | full => exact .inr ⟨_, _, rfl, rfl, .device _⟩

theorem HandleAlike.mono (h : HandleAlike ρ handle handle') (more : ∀ a b, ρ a b → σ a b) :
    HandleAlike σ handle handle' := by
  cases h with
  | file pair => exact .file (more _ _ pair)
  | device d => exact .device d
  | directory => exact .directory

theorem Paired.symm (h : Paired ρ fs new) : Paired (fun a b => ρ b a) new fs :=
  ⟨fun p q => h.left p q, fun p q => h.right p q, fun p => (h.old p).symm,
    fun p => (h.content p).symm⟩

theorem Paired.readAll (h : Paired ρ fs new) (alike : HandleAlike ρ handle handle') :
    handle.readAll fs = handle'.readAll new := by
  cases alike with
  | file pair => exact congrArg Except.ok (h.content pair)
  | device d => cases d <;> rfl
  | directory => rfl

/-- The same bytes written into a pair of files. -/
theorem Paired.write (h : Paired ρ fs new) (pair : ρ a b) (bs : Bytes) :
    Paired ρ (fs.write a bs) (new.write b bs) := by
  refine ⟨h.right, h.left, h.old, ?_⟩
  intro i j other
  rw [content_write, content_write]
  by_cases hi : i = a
  · subst hi
    rw [if_pos rfl, if_pos (h.right other pair)]
  · have hj : j ≠ b := by
      rintro rfl
      exact hi (h.left other pair)
    rw [if_neg hi, if_neg hj, h.content other]

/-- With a pair more. -/
def extend (ρ : Pairing) (a b : Nat) : Pairing := fun i j => ρ i j ∨ i = a ∧ j = b

theorem extend_pair (ρ : Pairing) (a b : Nat) : extend ρ a b a b := .inr ⟨rfl, rfl⟩

/-- A pair that goes with those there are may be added, if it holds the same. -/
theorem Paired.extend (h : Paired ρ fs new) {last final : FileSystem}
    (only : ∀ j, ρ a j → j = b) (only' : ∀ i, ρ i b → i = a)
    (fresh : fs.fresh ≤ last.fresh ∧ a < last.fresh)
    (fresh' : new.fresh ≤ final.fresh ∧ b < final.fresh)
    (same : last.content a = final.content b)
    (others : ∀ i, i ≠ a → last.content i = fs.content i)
    (others' : ∀ j, j ≠ b → final.content j = new.content j) :
    Paired (extend ρ a b) last final := by
  refine ⟨?_, ?_, ?_, ?_⟩
  · rintro i j k (p | ⟨rfl, rfl⟩) (q | ⟨hi, rfl⟩)
    · exact h.right p q
    · exact only j (hi ▸ p)
    · exact (only k q).symm
    · rfl
  · rintro i j k (p | ⟨rfl, rfl⟩) (q | ⟨rfl, hk⟩)
    · exact h.left p q
    · exact only' i (hk ▸ p)
    · exact (only' j q).symm
    · rfl
  · rintro i j (p | ⟨rfl, rfl⟩)
    · obtain ⟨hi, hj⟩ := h.old p
      exact ⟨Nat.lt_of_lt_of_le hi fresh.1, Nat.lt_of_lt_of_le hj fresh'.1⟩
    · exact ⟨fresh.2, fresh'.2⟩
  · rintro i j (p | ⟨rfl, rfl⟩)
    · by_cases hi : i = a
      · subst hi
        rw [only j p, same]
      · have hj : j ≠ b := by
          rintro rfl
          exact hi (only' i p)
        rw [others i hi, others' j hj, h.content p]
    · exact same

namespace Renamed

theorem symm (h : Renamed ρ fs new) : Renamed (fun a b => ρ b a) new fs :=
  ⟨h.paired.symm, fun l => (h.entry l).symm, h.home.symm⟩

theorem passed {l : Location} (h : Renamed ρ fs new) (there : fs.entry? l = some e)
    (passed : e.isPassed = true) : new.entry? l = some e := by
  have alike := h.entry l
  rw [there] at alike
  exact alike.eq_of_passed passed

/-- A walk comes to the same place on both sides. -/
theorem walks (h : Renamed ρ fs new) (on : Walks fs aim links dir slashed todo spot) :
    Walks new aim links dir slashed todo ⟨spot.location, new.entry? spot.location⟩ := by
  induction on with
  | arrived => exact .arrived
  | stay on ih => exact .stay ih
  | up on ih => exact .up ih
  | @missing k d s n named gone =>
    have alike := h.entry (d ++ [n])
    rw [gone] at alike
    dsimp only
    rw [alike.eq_none]
    exact .missing named alike.eq_none
  | down named there on ih => exact .down named (h.passed there rfl) ih
  | @kept k d s n target ns named there wanted =>
    have same := h.passed there rfl
    dsimp only
    rw [same]
    exact .kept named same wanted
  | along named there unwanted full on ih =>
    exact .along named (h.passed there rfl) unwanted full ih
  | @found k d s n ns e named there solid final =>
    have alike := h.entry (d ++ [n])
    rw [there] at alike
    obtain ⟨f, same, still⟩ := alike.exists_solid solid
    dsimp only
    rw [same]
    exact .found named same still final

theorem locate_ok (h : Renamed ρ fs new) (located : fs.locate aim p = .ok spot) :
    new.locate aim p = .ok ⟨spot.location, new.entry? spot.location⟩ := by
  obtain ⟨plain, on⟩ := locate_iff.mp located
  rw [h.home] at on
  exact locate_iff.mpr ⟨plain, h.walks on⟩

/-- A path leads to the same place on both sides, or nowhere on both. -/
theorem locate (h : Renamed ρ fs new) (aim : Aim) (p : Path) :
    (∃ e e', fs.locate aim p = .error e ∧ new.locate aim p = .error e') ∨
      ∃ l, fs.locate aim p = .ok ⟨l, fs.entry? l⟩ ∧ new.locate aim p = .ok ⟨l, new.entry? l⟩ := by
  cases located : fs.locate aim p with
  | ok spot =>
    obtain ⟨l, entry⟩ := spot
    obtain rfl : entry = fs.entry? l := (locate_iff.mp located).2.entry
    exact .inr ⟨l, rfl, h.locate_ok located⟩
  | error e =>
    cases located' : new.locate aim p with
    | error e' => exact .inl ⟨e, e', rfl, rfl⟩
    | ok spot =>
      have back := h.symm.locate_ok located'
      rw [located] at back
      cases back

theorem write (h : Renamed ρ fs new) (pair : ρ a b) (bs : Bytes) :
    Renamed ρ (fs.write a bs) (new.write b bs) :=
  ⟨h.paired.write pair bs, h.entry, h.home⟩

theorem append (h : Renamed ρ fs new) (pair : ρ a b) (bs : Bytes) :
    Renamed ρ (fs.append a bs) (new.append b bs) := by
  unfold FileSystem.append
  rw [h.paired.content pair]
  exact h.write pair _

/-- New files at the same place are a pair. -/
theorem create (h : Renamed ρ fs new) (free : fs.entry? l = none) (x : Bool) (bs : Bytes) :
    Renamed (extend ρ fs.fresh new.fresh) (fs.create l x bs) (new.create l x bs) := by
  have alike := h.entry l
  rw [free] at alike
  have free' := alike.eq_none
  refine ⟨?_, ?_, h.home⟩
  · refine h.paired.extend ?_ ?_ ⟨Nat.le_succ _, Nat.lt_succ_self _⟩
      ⟨Nat.le_succ _, Nat.lt_succ_self _⟩ ?_ ?_ ?_
    · exact fun j p => absurd (h.paired.old p).1 (Nat.lt_irrefl _)
    · exact fun i p => absurd (h.paired.old p).2 (Nat.lt_irrefl _)
    · rw [content_create, content_create, if_pos rfl, if_pos rfl]
    · intro i hi
      rw [content_create, if_neg hi]
    · intro j hj
      rw [content_create, if_neg hj]
  · intro m
    rw [entry?_create (ne_nil_of_free free), entry?_create (ne_nil_of_free free')]
    by_cases hm : m = l
    · rw [if_pos hm, if_pos hm]
      exact .file (extend_pair ρ _ _)
    · rw [if_neg hm, if_neg hm]
      exact (h.entry m).mono fun _ _ p => .inl p

/-- A file that is opened for writing is opened on both sides, or on neither. -/
theorem openWrite (h : Renamed ρ fs new) (p : Path) :
    (∃ e e', fs.openWrite p = .error e ∧ new.openWrite p = .error e') ∨
      ∃ handle handle' opened opened' σ, fs.openWrite p = .ok (handle, opened) ∧
        new.openWrite p = .ok (handle', opened') ∧ (∀ a b, ρ a b → σ a b) ∧
        HandleAlike σ handle handle' ∧ Renamed σ opened opened' := by
  unfold FileSystem.openWrite
  rcases h.locate .make p with ⟨e, e', lost, lost'⟩ | ⟨l, found, found'⟩
  · rw [lost, lost']
    exact .inl ⟨e, e', rfl, rfl⟩
  · rw [found, found']
    have alike := h.entry l
    dsimp only
    generalize stands : fs.entry? l = c at alike
    generalize new.entry? l = d at alike
    cases alike with
    | absent =>
      cases refusal? l false with
      | some e => exact .inl ⟨_, _, rfl, rfl⟩
      | none =>
        exact .inr ⟨_, _, _, _, _, rfl, rfl, fun _ _ p => .inl p, .file (extend_pair ρ _ _),
          h.create stands false []⟩
    | file pair =>
      exact .inr ⟨_, _, _, _, ρ, rfl, rfl, fun _ _ p => p, .file pair, h.write pair []⟩
    | @same e other =>
      cases e with
      | file id x => exact absurd rfl (other id x)
      | device d =>
        cases d with
        | terminal => exact .inl ⟨_, _, rfl, rfl⟩
        | null => exact .inr ⟨_, _, _, _, ρ, rfl, rfl, fun _ _ p => p, .device _, h⟩
        | zero => exact .inr ⟨_, _, _, _, ρ, rfl, rfl, fun _ _ p => p, .device _, h⟩
        | full => exact .inr ⟨_, _, _, _, ρ, rfl, rfl, fun _ _ p => p, .device _, h⟩
      | directory => exact .inl ⟨_, _, rfl, rfl⟩
      | link target => exact .inl ⟨_, _, rfl, rfl⟩
      | program name => exact .inl ⟨_, _, rfl, rfl⟩

/-- What is written through an open file is taken on both sides, or on neither. -/
theorem writeThrough (h : Renamed ρ fs new) (alike : HandleAlike ρ handle handle') (bs : Bytes) :
    (∃ e, handle.write fs bs = .error e ∧ handle'.write new bs = .error e) ∨
      ∃ left right, handle.write fs bs = .ok left ∧ handle'.write new bs = .ok right ∧
        Renamed ρ left right := by
  cases alike with
  | file pair => exact .inr ⟨_, _, rfl, rfl, h.append pair bs⟩
  | directory => exact .inl ⟨_, rfl, rfl⟩
  | device d =>
    cases d with
    | null => exact .inr ⟨_, _, rfl, rfl, h⟩
    | zero => exact .inr ⟨_, _, rfl, rfl, h⟩
    | terminal => exact .inl ⟨_, rfl, rfl⟩
    | full =>
      simp only [Handle.write]
      by_cases none : bs.isEmpty = true
      · rw [if_pos none, if_pos none]
        exact .inr ⟨_, _, rfl, rfl, h⟩
      · rw [if_neg none, if_neg none]
        exact .inl ⟨_, rfl, rfl⟩

/-- What stands at the end of a path is alike on both sides. -/
theorem stat (h : Renamed ρ fs new) (p : Path) :
    (∃ e e', fs.stat p = .error e ∧ new.stat p = .error e') ∨
      ∃ e e', fs.stat p = .ok e ∧ new.stat p = .ok e' ∧ EntryAlike ρ (some e) (some e') := by
  unfold FileSystem.stat
  rcases h.locate .follow p with ⟨e, e', lost, lost'⟩ | ⟨l, found, found'⟩
  · rw [lost, lost']
    exact .inl ⟨e, e', rfl, rfl⟩
  · rw [found, found']
    have alike := h.entry l
    dsimp only
    generalize fs.entry? l = c at alike
    generalize new.entry? l = d at alike
    cases alike with
    | absent => exact .inl ⟨_, _, rfl, rfl⟩
    | same other => exact .inr ⟨_, _, rfl, rfl, .same other⟩
    | file pair => exact .inr ⟨_, _, rfl, rfl, .file pair⟩

theorem openAppend (h : Renamed ρ fs new) (p : Path) :
    (∃ e e', fs.openAppend p = .error e ∧ new.openAppend p = .error e') ∨
      ∃ handle handle', fs.openAppend p = .ok handle ∧ new.openAppend p = .ok handle' ∧
        HandleAlike ρ handle handle' := by
  unfold FileSystem.openAppend
  rcases h.stat p with ⟨e, e', lost, lost'⟩ | ⟨e, e', found, found', alike⟩
  · rw [lost, lost']
    exact .inl ⟨e, e', rfl, rfl⟩
  · rw [found, found']
    cases alike with
    | file pair => exact .inr ⟨_, _, rfl, rfl, .file pair⟩
    | same other =>
      cases e with
      | file id x => exact absurd rfl (other id x)
      | directory => exact .inl ⟨_, _, rfl, rfl⟩
      | link target => exact .inl ⟨_, _, rfl, rfl⟩
      | program name => exact .inl ⟨_, _, rfl, rfl⟩
      | device d =>
        cases d with
        | terminal => exact .inl ⟨_, _, rfl, rfl⟩
        | null => exact .inr ⟨_, _, rfl, rfl, .device _⟩
        | zero => exact .inr ⟨_, _, rfl, rfl, .device _⟩
        | full => exact .inr ⟨_, _, rfl, rfl, .device _⟩

theorem readBytes (h : Renamed ρ fs new) {bs : Bytes} (held : fs.readBytes p = .ok bs) :
    new.readBytes p = .ok bs := by
  unfold FileSystem.readBytes openRead at held ⊢
  rcases h.stat p with ⟨e, e', lost, lost'⟩ | ⟨e, e', found, found', alike⟩
  · rw [lost] at held
    cases held
  · rw [found] at held
    rw [found']
    dsimp only at held ⊢
    rcases alike.handleOf with ⟨x, none, none'⟩ | ⟨handle, handle', opens, opens', alike⟩
    · rw [none] at held
      cases held
    · rw [opens] at held
      rw [opens', ← held]
      exact (h.paired.readAll alike).symm

end Renamed
end TestBench.FileSystem
