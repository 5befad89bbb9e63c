import TestBench.Proofs.FileSystem.Joining
/-!
# What removing a directory takes away

Removing what a path names takes away entries at the place to which the path leads, and below it.
Everything else stays, and nothing is taken away by making directories or by writing files.
-/
namespace TestBench

namespace Path

theorem names_slashes {tail : Bytes} (h : ∀ b ∈ tail, b = slash) : names tail = [] := by
  induction tail with
  | nil => rfl
  | cons b tail ih =>
    obtain rfl := h b List.mem_cons_self
    have cut := names_append [] tail
    rw [List.nil_append] at cut
    rw [cut, ih fun c hc => h c (List.mem_cons_of_mem _ hc)]
    rfl

/-- The name of a path is the path without the slashes at its end. -/
theorem exists_slashes (p : Path) :
    ∃ tail : Bytes, p = Text.dropEnd (· == slash) p ++ tail ∧ ∀ b ∈ tail, b = slash := by
  refine ⟨(p.reverse.takeWhile (· == slash)).reverse, ?_, ?_⟩
  · rw [Text.dropEnd, ← List.reverse_append, List.takeWhile_append_dropWhile, List.reverse_reverse]
  · intro b hb
    exact eq_of_beq (List.all_eq_true.mp List.all_takeWhile b (List.mem_reverse.mp hb))

theorem names_dropEnd (p : Path) : names (Text.dropEnd (· == slash) p) = names p := by
  obtain ⟨tail, hp, slashes⟩ := exists_slashes p
  generalize Text.dropEnd (· == slash) p = named at hp
  subst hp
  cases tail with
  | nil => rw [List.append_nil]
  | cons b tail =>
    obtain rfl := slashes b List.mem_cons_self
    rw [names_append, names_slashes fun c hc => slashes c (List.mem_cons_of_mem _ hc),
      List.append_nil]

end Path

namespace FileSystem

/-- An entry that is there before a change, and not after it. -/
def Lost (fs left : FileSystem) (l : Location) : Prop :=
  ∃ e, fs.entry? l = some e ∧ left.entry? l ≠ some e

variable {fs left last : FileSystem} {l m : Location} {p : Path} {spot : Spot} {links : Nat}
  {slashed : Bool} {todo : List Bytes}

theorem lost_of_none {e : Entry} (there : fs.entry? l = some e) (gone : left.entry? l = none) :
    fs.Lost left l :=
  ⟨e, there, by rw [gone]; exact (Option.some_ne_none e).symm⟩

theorem Keeps.not_lost (h : fs.Keeps left) : ¬fs.Lost left l := by
  rintro ⟨e, there, gone⟩
  exact gone (h l e there)

theorem Lost.split (h : fs.Lost last l) (left : FileSystem) :
    fs.Lost left l ∨ left.Lost last l := by
  obtain ⟨e, there, gone⟩ := h
  by_cases still : left.entry? l = some e
  · exact .inr ⟨e, still, gone⟩
  · exact .inl ⟨e, there, still⟩

theorem Lost.of_keeps (h : fs.Lost last l) (keeps : left.Keeps last) : fs.Lost left l :=
  (h.split left).resolve_right keeps.not_lost

theorem lost_filter {q : Location → Bool}
    (h : fs.Lost { fs with entries := fs.entries.filter fun t => q t.1 } l) : q l = false := by
  obtain ⟨e, there, gone⟩ := h
  by_cases hl : l = []
  · subst hl
    exact absurd there gone
  · rw [entry?_of_ne_nil hl] at there
    rw [entry?_of_ne_nil hl, lookup_filter, there] at gone
    cases hq : q l with
    | false => rfl
    | true =>
      rw [if_pos hq] at gone
      exact absurd rfl gone

theorem lost_drop (h : fs.Lost (fs.drop m) l) : l = m := by
  simpa using lost_filter (q := (· != m)) h

theorem lost_clear (h : fs.Lost (fs.clear m) l) : m <+: l := by
  have below := lost_filter (q := fun k => !(m.isPrefixOf k && m != k)) h
  simp only [Bool.not_eq_false', Bool.and_eq_true] at below
  exact List.isPrefixOf_iff_prefix.mp below.1

theorem keeps_clear (fs : FileSystem) (m : Location) : (fs.clear m).Keeps fs := by
  intro k e there
  by_cases hk : k = []
  · subst hk
    exact there
  · exact entry?_filter (q := fun k => !(m.isPrefixOf k && m != k)) hk there

theorem locateName_entry (h : fs.locateName p = .ok spot) :
    spot.entry = fs.entry? spot.location := by
  unfold locateName at h
  dsimp only at h
  split at h
  · cases h
    rfl
  · exact (locate_iff.mp h).2.entry

theorem keeps_makeDirectories (fs : FileSystem) (p : Path) : fs.Keeps (fs.makeDirectories p).2 := by
  refine rel_makeDirectories (P := fun _ => True) (fun _ _ _ h => h) ?_
    (fun h g m e hm => g m e (h m e hm)) fs trivial fun _ _ => trivial
  intro fs left p _ h m e hm
  obtain ⟨spot, located, vacant, rfl⟩ := makeDirectory_eq h
  have free : fs.entry? spot.location = none := (locateName_entry located).symm.trans vacant
  have ne : m ≠ spot.location := by
    rintro rfl
    rw [free] at hm
    cases hm
  rw [entry?_put (ne_nil_of_free free), if_neg ne, hm]

/-- A slash after a name that leads to a directory makes no difference. -/
theorem Walks.slash (h : Walks fs .keep links l slashed todo spot)
    (there : spot.entry = some .directory) : Walks fs .keep links l true todo spot := by
  have keep {s : Bool} {n : Bytes} {ns : List Bytes} (named : Named .keep s n ns) :
      Named .keep true n ns := ⟨named.single, named.double, by simp, named.short⟩
  generalize hk : Aim.keep = aim at h
  induction h with
  | arrived => exact .arrived
  | stay on ih => exact .stay (ih there)
  | up on ih => exact .up (ih there)
  | missing named gone => cases there
  | down named stands on ih =>
    subst hk
    exact .down (keep named) stands (ih there)
  | kept named stands wanted => cases there
  | along named stands unwanted full on ih =>
    subst hk
    refine .along (keep named) stands (by simp) full ?_
    rw [Bool.true_or]
    exact ih there
  | found named stands solid final =>
    cases Option.some.inj there
    cases solid

theorem locate_of_locateName (h : fs.locateName p = .ok spot) (there : spot.entry = some .directory)
    (plain : Plain p) (named : Path.names p ≠ []) : fs.locate .keep p = .ok spot := by
  obtain ⟨tail, hp, slashes⟩ := Path.exists_slashes p
  have names := Path.names_dropEnd p
  unfold locateName at h
  dsimp only at h
  generalize Text.dropEnd (· == Path.slash) p = front at h hp names
  have full : front ≠ [] := by
    rintro rfl
    exact named (names.symm.trans rfl)
  rw [if_neg (by simp [full])] at h
  obtain ⟨_, walks⟩ := locate_iff.mp h
  refine locate_iff.mpr ⟨plain, ?_⟩
  rw [names] at walks
  have start : Path.isAbsolute p = Path.isAbsolute front := by
    rw [hp]
    exact Path.isAbsolute_append full tail
  rw [start]
  cases tail with
  | nil =>
    rw [List.append_nil] at hp
    rw [hp] at walks ⊢
    exact walks
  | cons b tail =>
    have ends : Path.endsInSlash p = true := by
      have last := slashes _ (List.getLast_mem (List.cons_ne_nil b tail))
      rw [hp, Path.endsInSlash, List.getLast?_append,
        List.getLast?_eq_some_getLast (List.cons_ne_nil b tail), last]
      rfl
    rw [ends]
    exact walks.slash there

theorem removeDirectory_eq (h : fs.removeDirectory p = .ok left) :
    ∃ spot, fs.locateName p = .ok spot ∧ spot.entry = some .directory ∧ Path.names p ≠ [] ∧
      left = fs.drop spot.location := by
  unfold removeDirectory at h
  cases hs : fs.locateName p with
  | error e =>
    rw [hs] at h
    cases h
  | ok spot =>
    simp only [hs] at h
    cases hn : (Path.names p).getLast? with
    | none =>
      rw [hn] at h
      cases h
    | some last =>
      have named : Path.names p ≠ [] := by
        rintro he
        rw [he] at hn
        cases hn
      simp only [hn] at h
      split at h
      · cases h
      split at h
      · cases h
      split at h
      · cases h
      · rename_i there
        split at h
        · cases h
          exact ⟨spot, rfl, there, named, rfl⟩
        · cases h
      · cases h

/-- What is removed is the place to which a path leads, its last name not followed if that is a
link, or stands below it. -/
theorem lost_removeAll (h : fs.Lost (fs.removeAll p).2 l) :
    ∃ spot, fs.locate .keep p = .ok spot ∧ spot.location <+: l := by
  unfold removeAll at h
  cases hs : fs.locate .keep p with
  | error e =>
    rw [hs] at h
    exact absurd h (Keeps.not_lost fun _ _ hm => hm)
  | ok spot =>
    refine ⟨spot, rfl, ?_⟩
    have unchanged : ¬fs.Lost fs l := Keeps.not_lost fun _ _ hm => hm
    simp only [hs] at h
    cases he : spot.entry with
    | none =>
      rw [he] at h
      exact absurd h unchanged
    | some e =>
      rw [he] at h
      cases e with
      | directory =>
        dsimp only at h
        have cleared (hl : fs.Lost (fs.clear spot.location) l) : spot.location <+: l :=
          lost_clear hl
        split at h
        · rename_i left removed
          rcases h.split (fs.clear spot.location) with hl | hl
          · exact cleared hl
          · -- The directory itself goes by its name, which leads to the same place.
            obtain ⟨own, located, there, named, rfl⟩ := removeDirectory_eq removed
            obtain ⟨plain, walks⟩ := locate_iff.mp hs
            obtain ⟨_, again⟩ := locate_iff.mp (locate_of_locateName located there plain named)
            have same := (walk_of_walks (again.keep (keeps_clear fs _) there)).symm.trans
              (walk_of_walks walks)
            cases same
            exact (lost_drop hl) ▸ List.prefix_rfl
        · exact cleared h
        · exact cleared h
      | link target => exact (lost_drop h) ▸ List.prefix_rfl
      | file id x => exact absurd h unchanged
      | device d => exact absurd h unchanged
      | program n => exact absurd h unchanged

end FileSystem
end TestBench
