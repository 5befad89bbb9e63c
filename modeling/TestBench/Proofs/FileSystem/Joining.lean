import TestBench.Proofs.FileSystem.Growth
import TestBench.Proofs.Text.Lines
/-!
# Names in a directory

A single name joined to the path of a directory leads to the entry of that name in that directory,
whichever way the path takes to it. This holds of no other name: an empty one is the directory
itself, dots lead to it or out of it, and a slash makes more names of one.
-/
namespace TestBench

namespace Path

structure IsName (name : Bytes) : Prop where
  full : name ≠ []
  plain : slash ∉ name
  single : name ≠ single
  double : name ≠ double

variable {name : Bytes}

theorem names_append (p q : Path) : names (p ++ slash :: q) = names p ++ names q := by
  simp only [names, Text.splitOn_append, List.filter_append]

theorem IsName.names (h : IsName name) : names name = [name] := by
  have full : (!name.isEmpty) = true := by simp [h.full]
  rw [Path.names, Text.splitOn_of_notMem h.plain, List.filter, full, List.filter_nil]

theorem IsName.isAbsolute (h : IsName name) : isAbsolute name = false := by
  cases name with
  | nil => rfl
  | cons b r =>
    have hb : b ≠ slash := fun he => h.plain (he ▸ List.mem_cons_self)
    simpa [Path.isAbsolute] using hb

theorem IsName.endsInSlash (h : IsName name) (front : Bytes) :
    endsInSlash (front ++ name) = false := by
  have last : name.getLast? = some (name.getLast h.full) := List.getLast?_eq_some_getLast h.full
  have hb : name.getLast h.full ≠ slash := fun he => h.plain (he ▸ List.getLast_mem h.full)
  rw [Path.endsInSlash, List.getLast?_append, last]
  simpa using hb

theorem IsName.join_cases (h : IsName name) (base : Path) :
    (base = [] ∧ join base name = name) ∨
      (∃ front, base = front ++ [slash] ∧ join base name = front ++ slash :: name) ∨
      (base ≠ [] ∧ join base name = base ++ slash :: name) := by
  have absolute : ¬Path.isAbsolute name = true := by simp [h.isAbsolute]
  simp only [join, if_neg absolute]
  by_cases empty : base = []
  · exact .inl ⟨empty, by rw [empty]; rfl⟩
  by_cases slashed : Path.endsInSlash base = true
  · obtain ⟨front, rfl⟩ := List.getLast?_eq_some_iff.mp (eq_of_beq slashed)
    refine .inr (.inl ⟨front, rfl, ?_⟩)
    rw [if_pos (by simp [slashed]), List.append_assoc, List.singleton_append]
  · exact .inr (.inr ⟨empty, by rw [if_neg (by simp [empty, slashed])]⟩)

theorem IsName.names_join (h : IsName name) (base : Path) :
    Path.names (join base name) = Path.names base ++ [name] := by
  rcases h.join_cases base with ⟨rfl, hj⟩ | ⟨front, rfl, hj⟩ | ⟨_, hj⟩
  · rw [hj, h.names]
    rfl
  · have last : Path.names (front ++ [slash]) = Path.names front := by
      rw [names_append, show Path.names [] = [] from rfl, List.append_nil]
    rw [hj, names_append, h.names, last]
  · rw [hj, names_append, h.names]

theorem IsName.endsInSlash_join (h : IsName name) (base : Path) :
    Path.endsInSlash (join base name) = false := by
  rcases h.join_cases base with ⟨_, hj⟩ | ⟨front, _, hj⟩ | ⟨_, hj⟩
  · rw [hj]
    exact h.endsInSlash []
  · rw [hj, ← List.singleton_append, ← List.append_assoc]
    exact h.endsInSlash _
  · rw [hj, ← List.singleton_append, ← List.append_assoc]
    exact h.endsInSlash _

/-- A path that is not empty stands in front of what is joined to it. -/
theorem IsName.exists_join (h : IsName name) {base : Path} (full : base ≠ []) :
    ∃ rest, join base name = base ++ rest := by
  rcases h.join_cases base with ⟨rfl, _⟩ | ⟨front, rfl, hj⟩ | ⟨_, hj⟩
  · exact absurd rfl full
  · exact ⟨name, by rw [hj, List.append_assoc, List.singleton_append]⟩
  · exact ⟨slash :: name, hj⟩

theorem isAbsolute_append {base : Path} (full : base ≠ []) (rest : Bytes) :
    Path.isAbsolute (base ++ rest) = Path.isAbsolute base := by
  cases base with
  | nil => exact absurd rfl full
  | cons b r => rfl

end Path

namespace FileSystem

/-- The place that a path leads to, whatever stands there. The empty path, which leads nowhere, is
taken for the working directory, as it is when a name is joined to it. -/
inductive LeadsTo (fs : FileSystem) : Path → Location → Prop where
  | home : LeadsTo fs [] fs.workingDirectory
  | path {p : Path} {l : Location} (located : fs.locate .follow p = .ok ⟨l, fs.entry? l⟩) :
      LeadsTo fs p l

variable {fs : FileSystem} {links : Nat} {dir : Location} {todo : List Bytes} {spot : Spot}
  {name : Bytes} {base : Path}

/-- A walk that ends with a name goes to a directory first, and from there along the name. -/
theorem Walks.split {aim : Aim} (h : Walks fs aim links dir false (todo ++ [name]) spot)
    (own : Path.IsName name) (slashed : Bool) :
    ∃ k l, Walks fs .follow links dir slashed todo ⟨l, fs.entry? l⟩ ∧
      Walks fs aim k l false [name] spot := by
  generalize hs : false = s at h
  generalize ht : todo ++ [name] = names at h
  induction h generalizing todo slashed with
  | arrived => exact absurd ht (by simp)
  | stay on ih =>
    cases todo with
    | nil => exact absurd (List.cons.inj ht).1 own.single
    | cons n ns =>
      obtain ⟨rfl, rfl⟩ := List.cons.inj ht
      obtain ⟨k, l, walks, last⟩ := ih slashed hs rfl
      exact ⟨k, l, .stay walks, last⟩
  | up on ih =>
    cases todo with
    | nil => exact absurd (List.cons.inj ht).1 own.double
    | cons n ns =>
      obtain ⟨rfl, rfl⟩ := List.cons.inj ht
      obtain ⟨k, l, walks, last⟩ := ih slashed hs rfl
      exact ⟨k, l, .up walks, last⟩
  | @missing k d s n named gone =>
    cases todo with
    | nil =>
      obtain ⟨rfl, _⟩ := List.cons.inj ht
      subst hs
      exact ⟨k, d, .arrived, .missing named gone⟩
    | cons n ns => exact absurd (List.cons.inj ht).2 (by simp)
  | @down k d s n ns t named there on ih =>
    cases todo with
    | nil =>
      obtain ⟨rfl, rfl⟩ := List.cons.inj ht
      subst hs
      exact ⟨k, d, .arrived, .down named there on⟩
    | cons m ms =>
      obtain ⟨rfl, rfl⟩ := List.cons.inj ht
      obtain ⟨k, l, walks, last⟩ := ih slashed hs rfl
      exact ⟨k, l, .down ⟨named.single, named.double, by simp, named.short⟩ there walks, last⟩
  | @kept k d s n target ns named there wanted =>
    cases todo with
    | nil =>
      obtain ⟨rfl, rfl⟩ := List.cons.inj ht
      subst hs
      exact ⟨k, d, .arrived, .kept named there wanted⟩
    | cons m ms =>
      obtain ⟨_, rfl⟩ := List.cons.inj ht
      simp at wanted
  | @along k d s n target ns t named there unwanted full on ih =>
    cases todo with
    | nil =>
      obtain ⟨rfl, rfl⟩ := List.cons.inj ht
      subst hs
      exact ⟨k + 1, d, .arrived, .along named there unwanted full on⟩
    | cons m ms =>
      obtain ⟨rfl, rfl⟩ := List.cons.inj ht
      subst hs
      obtain ⟨j, l, walks, last⟩ := @ih (Path.names target ++ ms)
        (slashed || (ms.isEmpty && Path.endsInSlash target)) (by simp) (List.append_assoc _ _ _)
      have plain : (false || ((ms ++ [name]).isEmpty && Path.endsInSlash target)) = false := by simp
      exact ⟨j, l, .along ⟨named.single, named.double, by simp, named.short⟩ there (by simp) full
        walks, plain ▸ last⟩
  | @found k d s n ns e named there solid final =>
    cases todo with
    | nil =>
      obtain ⟨rfl, rfl⟩ := List.cons.inj ht
      subst hs
      exact ⟨k, d, .arrived, .found named there solid final⟩
    | cons m ms =>
      obtain ⟨_, rfl⟩ := List.cons.inj ht
      simp at final

/-- Along a single name it is not far. -/
theorem Walks.location_of_keep (h : Walks fs .keep links dir false [name] spot)
    (own : Path.IsName name) : spot.location = dir ++ [name] := by
  cases h with
  | stay on => exact absurd rfl own.single
  | up on => exact absurd rfl own.double
  | missing named gone => rfl
  | down named there on =>
    cases on
    rfl
  | kept named there wanted => rfl
  | along named there unwanted full on => exact absurd rfl unwanted
  | found named there solid final => rfl

/-- Where nothing stands a walk comes to nothing. -/
theorem Walks.eq_of_free {aim : Aim} (h : Walks fs aim links dir false [name] spot)
    (own : Path.IsName name) (free : fs.entry? (dir ++ [name]) = none) :
    spot = ⟨dir ++ [name], none⟩ := by
  cases h with
  | stay on => exact absurd rfl own.single
  | up on => exact absurd rfl own.double
  | missing named gone => rfl
  | down named there on => cases free.symm.trans there
  | kept named there wanted => cases free.symm.trans there
  | along named there unwanted full on => cases free.symm.trans there
  | found named there solid final => cases free.symm.trans there

theorem Plain.of_append {p rest : Path} (full : p ≠ []) (h : Plain (p ++ rest)) : Plain p := by
  refine ⟨?_, by simpa [List.isEmpty_iff] using full, ?_⟩
  · intro hc
    apply h.clean
    rw [List.contains_iff_mem] at hc ⊢
    exact List.mem_append_left rest hc
  · intro hl
    apply h.short
    rw [List.length_append]
    omega

/-- A path to which a name is joined goes where the path leads to, and from there along the name. -/
theorem exists_leadsTo_of_join {aim : Aim} (h : fs.locate aim (Path.join base name) = .ok spot)
    (own : Path.IsName name) :
    ∃ k l, fs.LeadsTo base l ∧ Walks fs aim k l false [name] spot := by
  obtain ⟨plain, walks⟩ := locate_iff.mp h
  rw [own.names_join, own.endsInSlash_join] at walks
  obtain ⟨k, l, on, last⟩ := walks.split own (Path.endsInSlash base)
  refine ⟨k, l, ?_, last⟩
  by_cases empty : base = []
  · subst empty
    have relative : Path.isAbsolute (Path.join [] name) = false := by
      rcases own.join_cases [] with ⟨_, hj⟩ | ⟨front, hf, _⟩ | ⟨he, _⟩
      · rw [hj, own.isAbsolute]
      · exact absurd hf (by simp)
      · exact absurd rfl he
    rw [relative] at on
    cases on
    exact .home
  · obtain ⟨rest, hj⟩ := own.exists_join empty
    rw [hj] at plain on
    rw [Path.isAbsolute_append empty] at on
    exact .path (locate_iff.mpr ⟨plain.of_append empty, on⟩)

/-- The entry of a name in the directory that a path leads to is where the two joined lead to. -/
theorem locate_join (h : fs.locate .keep (Path.join base name) = .ok spot)
    (own : Path.IsName name) : ∃ l, fs.LeadsTo base l ∧ spot.location = l ++ [name] := by
  obtain ⟨k, l, leads, last⟩ := exists_leadsTo_of_join h own
  exact ⟨l, leads, last.location_of_keep own⟩

theorem LeadsTo.unique {p : Path} {l m : Location} (h : fs.LeadsTo p l) (g : fs.LeadsTo p m) :
    l = m := by
  cases h with
  | home =>
    cases g with
    | home => rfl
    | path located => cases located
  | path located =>
    cases g with
    | home => cases located
    | path again =>
      rw [located] at again
      cases again
      rfl

theorem LeadsTo.keep {new : FileSystem} {p : Path} {l : Location} {e : Entry}
    (h : fs.LeadsTo p l) (keeps : fs.Keeps new)
    (home : new.workingDirectory = fs.workingDirectory) (there : fs.entry? l = some e) :
    new.LeadsTo p l := by
  cases h with
  | home =>
    rw [← home]
    exact .home
  | path located =>
    obtain ⟨plain, walks⟩ := locate_iff.mp located
    have same : new.entry? l = fs.entry? l := (keeps l e there).trans there.symm
    rw [← home, ← same] at walks
    refine .path (locate_iff.mpr ⟨plain, ?_⟩)
    exact walks.keep keeps (same.trans there)

end FileSystem
end TestBench
