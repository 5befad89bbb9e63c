import TestBench.Proofs.FileSystem.Removal
/-!
# Paths without links

A path on whose way no link stands leads to the place that its names spell. Directories made with
their parents for such a path stand at places on its way, and removing what it names takes away that
place and what is below it, and nothing else.
-/
namespace TestBench

namespace Path

/-- The place that some names spell from a directory on. -/
def placeFrom (dir : Location) : List Bytes → Location
  | [] => dir
  | n :: ns =>
    if n = single then placeFrom dir ns
    else if n = double then placeFrom dir.dropLast ns
    else placeFrom (dir ++ [n]) ns

/-- The places that the names lead to one after the other; dots name none. -/
def placesFrom (dir : Location) : List Bytes → List Location
  | [] => []
  | n :: ns =>
    if n = single then placesFrom dir ns
    else if n = double then placesFrom dir.dropLast ns
    else (dir ++ [n]) :: placesFrom (dir ++ [n]) ns

variable {dir l : Location} {n : Bytes} {ns : List Bytes} {p q : Path} {absolute : Bool}

theorem placeFrom_cons (hs : n ≠ single) (hd : n ≠ double) :
    placeFrom dir (n :: ns) = placeFrom (dir ++ [n]) ns := by
  rw [placeFrom, if_neg hs, if_neg hd]

theorem placesFrom_cons (hs : n ≠ single) (hd : n ≠ double) :
    placesFrom dir (n :: ns) = (dir ++ [n]) :: placesFrom (dir ++ [n]) ns := by
  rw [placesFrom, if_neg hs, if_neg hd]

theorem placesFrom_single : placesFrom dir (single :: ns) = placesFrom dir ns := if_pos rfl

theorem placesFrom_double : placesFrom dir (double :: ns) = placesFrom dir.dropLast ns := by
  rw [placesFrom, if_neg (by decide), if_pos rfl]

theorem placeFrom_double : placeFrom dir (double :: ns) = placeFrom dir.dropLast ns := by
  rw [placeFrom, if_neg (by decide), if_pos rfl]

theorem placesFrom_append (dir : Location) (xs ys : List Bytes) :
    placesFrom dir (xs ++ ys) = placesFrom dir xs ++ placesFrom (placeFrom dir xs) ys := by
  induction xs generalizing dir with
  | nil => rfl
  | cons n ns ih =>
    by_cases hs : n = single
    · subst hs
      rw [List.cons_append, placesFrom_single, placesFrom_single, ih, placeFrom, if_pos rfl]
    by_cases hd : n = double
    · subst hd
      rw [List.cons_append, placesFrom_double, placesFrom_double, ih, placeFrom_double]
    · rw [List.cons_append, placesFrom_cons hs hd, placesFrom_cons hs hd, ih,
        placeFrom_cons hs hd, List.cons_append]

theorem placeFrom_append (dir : Location) (xs ys : List Bytes) :
    placeFrom dir (xs ++ ys) = placeFrom (placeFrom dir xs) ys := by
  induction xs generalizing dir with
  | nil => rfl
  | cons n ns ih =>
    by_cases hs : n = single
    · subst hs
      rw [List.cons_append, placeFrom, if_pos rfl, placeFrom, if_pos rfl, ih]
    by_cases hd : n = double
    · subst hd
      rw [List.cons_append, placeFrom_double, placeFrom_double, ih]
    · rw [List.cons_append, placeFrom_cons hs hd, placeFrom_cons hs hd, ih]

/-- Dots that stand for the place itself make no difference. -/
theorem placesFrom_filter (dir : Location) (ns : List Bytes) :
    placesFrom dir (ns.filter (· != single)) = placesFrom dir ns := by
  induction ns generalizing dir with
  | nil => rfl
  | cons n ns ih =>
    by_cases hs : n = single
    · subst hs
      rw [placesFrom_single, List.filter_cons_of_neg (by simp), ih]
    · rw [List.filter_cons_of_pos (by simpa using hs)]
      by_cases hd : n = double
      · subst hd
        rw [placesFrom_double, placesFrom_double, ih]
      · rw [placesFrom_cons hs hd, placesFrom_cons hs hd, ih]

theorem placesFrom_components (dir : Location) (p : Path) :
    placesFrom dir (components p) = placesFrom dir (names p) := by
  unfold components
  cases names p with
  | nil => rfl
  | cons n ns =>
    dsimp only
    split
    · rename_i front
      have hs : n = single := eq_of_beq (Bool.and_eq_true_iff.mp front).2
      subst hs
      rw [placesFrom_filter, placesFrom_single]
    · rw [placesFrom, placesFrom]
      simp only [placesFrom_filter]

theorem ne_nil_of_mem_placesFrom (h : l ∈ placesFrom dir ns) : l ≠ [] := by
  induction ns generalizing dir with
  | nil => cases h
  | cons n ns ih =>
    by_cases hs : n = single
    · subst hs
      rw [placesFrom_single] at h
      exact ih h
    by_cases hd : n = double
    · subst hd
      rw [placesFrom_double] at h
      exact ih h
    · rw [placesFrom_cons hs hd] at h
      rcases List.mem_cons.mp h with rfl | h
      · exact List.append_ne_nil_of_right_ne_nil _ (List.cons_ne_nil _ _)
      · exact ih h

/-- A name as it stands between slashes. -/
def Piece (c : Bytes) : Prop := c ≠ [] ∧ slash ∉ c

theorem piece_of_mem_names {c : Bytes} (h : c ∈ names p) : Piece c := by
  obtain ⟨hm, full⟩ := List.mem_filter.mp h
  exact ⟨by simpa using full, Text.notMem_of_mem_splitOn hm⟩

theorem mem_names_of_mem_components {c : Bytes} (h : c ∈ components p) : c ∈ names p := by
  unfold components at h
  cases hn : names p with
  | nil =>
    rw [hn] at h
    cases h
  | cons n ns =>
    rw [hn] at h
    dsimp only at h
    split at h
    · exact List.mem_cons_of_mem n (List.mem_filter.mp h).1
    · rcases List.mem_cons.mp h with rfl | h
      · exact List.mem_cons_self
      · exact List.mem_cons_of_mem n (List.mem_filter.mp h).1

theorem names_joinWith {cs : List Bytes} (pieces : ∀ c ∈ cs, Piece c) :
    names (Text.joinWith [slash] cs) = cs := by
  by_cases some : cs = []
  · subst some
    rfl
  · rw [names, Text.joinWith_eq_intercalate, Text.splitOn_eq,
      List.splitOn_intercalate slash (fun c hc => (pieces c hc).2) some, List.filter_eq_self]
    exact fun c hc => by simpa using (pieces c hc).1

theorem names_ofComponents {cs : List Bytes} (pieces : ∀ c ∈ cs, Piece c) :
    names (ofComponents absolute cs) = cs := by
  have joined := names_joinWith pieces
  cases absolute with
  | false => exact joined
  | true =>
    have cut := names_append [] (Text.joinWith [slash] cs)
    rw [List.nil_append] at cut
    exact cut.trans joined

theorem isAbsolute_ofComponents {cs : List Bytes} (pieces : ∀ c ∈ cs, Piece c) :
    isAbsolute (ofComponents absolute cs) = absolute := by
  cases absolute with
  | true => rfl
  | false =>
    cases cs with
    | nil => rfl
    | cons c cs =>
      obtain ⟨full, plain⟩ := pieces c List.mem_cons_self
      cases c with
      | nil => exact absurd rfl full
      | cons b bs =>
        have hb : b ≠ slash := fun he => plain (he ▸ List.mem_cons_self)
        have front : ofComponents false ((b :: bs) :: cs) =
            b :: (Text.joinWith [slash] ((b :: bs) :: cs)).tail := by
          cases cs <;> rfl
        rw [front]
        simpa [isAbsolute] using hb

theorem exists_of_mem_ancestorsFrom {cs : List Bytes} (h : q ∈ ancestorsFrom absolute cs) :
    ∃ rest, rest <:+ cs ∧ q = ofComponents absolute rest.reverse := by
  induction cs with
  | nil => cases h
  | cons c cs ih =>
    rcases List.mem_cons.mp h with rfl | h
    · exact ⟨cs, List.suffix_cons c cs, rfl⟩
    · obtain ⟨rest, suffix, hq⟩ := ih h
      exact ⟨rest, suffix.trans (List.suffix_cons c cs), hq⟩

/-- The way to a parent is a part of the way. -/
theorem ancestor_way (h : q ∈ ancestors p) :
    isAbsolute q = isAbsolute p ∧
      ∀ dir, ∀ l ∈ placesFrom dir (names q), l ∈ placesFrom dir (names p) := by
  obtain ⟨rest, suffix, rfl⟩ := exists_of_mem_ancestorsFrom h
  have front : rest.reverse <+: components p := List.reverse_suffix.mp (by
    rw [List.reverse_reverse]
    exact suffix)
  have pieces : ∀ c ∈ rest.reverse, Piece c := fun c hc =>
    piece_of_mem_names (mem_names_of_mem_components (front.subset hc))
  refine ⟨isAbsolute_ofComponents pieces, ?_⟩
  intro dir l hl
  obtain ⟨more, whole⟩ := front
  rw [names_ofComponents pieces] at hl
  rw [← placesFrom_components, ← whole, placesFrom_append]
  exact List.mem_append_left _ hl

end Path

namespace FileSystem

def start (fs : FileSystem) (p : Path) : Location :=
  if Path.isAbsolute p then [] else fs.workingDirectory

def placeOf (fs : FileSystem) (p : Path) : Location := Path.placeFrom (fs.start p) (Path.names p)

def placesOf (fs : FileSystem) (p : Path) : List Location :=
  Path.placesFrom (fs.start p) (Path.names p)

def Bare (fs : FileSystem) (ls : List Location) : Prop :=
  ∀ l ∈ ls, ∀ target, fs.entry? l ≠ some (.link target)

/-- No link stands on the way of a path. -/
def Straight (fs : FileSystem) (p : Path) : Prop := fs.Bare (fs.placesOf p)

/-- What stands somewhere stands in a directory, and the working directory is there. -/
structure Rooted (fs : FileSystem) : Prop where
  parent : ∀ l e, fs.entry? l = some e → fs.entry? l.dropLast = some .directory
  home : fs.entry? fs.workingDirectory = some .directory

variable {fs left last : FileSystem} {aim : Aim} {links : Nat} {dir l : Location} {slashed : Bool}
  {todo : List Bytes} {spot : Spot} {p q : Path} {ls : List Location}

/-- A walk that meets no link comes to the place that the names spell, and all places on its way but
the last are directories. -/
theorem Walks.straight (h : Walks fs aim links dir slashed todo spot)
    (bare : fs.Bare (Path.placesFrom dir todo)) :
    spot.location = Path.placeFrom dir todo ∧
      ∀ l ∈ Path.placesFrom dir todo, l = spot.location ∨ fs.entry? l = some .directory := by
  induction h with
  | arrived => exact ⟨rfl, fun l hl => absurd hl List.not_mem_nil⟩
  | stay on ih =>
    rw [Path.placesFrom_single] at bare ⊢
    exact ih bare
  | up on ih =>
    rw [Path.placesFrom_double] at bare ⊢
    rw [Path.placeFrom_double]
    exact ih bare
  | missing named gone =>
    rw [Path.placesFrom_cons named.single named.double,
      Path.placeFrom_cons named.single named.double]
    exact ⟨rfl, fun l hl => .inl (List.mem_singleton.mp hl)⟩
  | down named there on ih =>
    rw [Path.placesFrom_cons named.single named.double] at bare ⊢
    rw [Path.placeFrom_cons named.single named.double]
    obtain ⟨arrives, passed⟩ := ih fun l hl => bare l (List.mem_cons_of_mem _ hl)
    refine ⟨arrives, ?_⟩
    intro l hl
    rcases List.mem_cons.mp hl with rfl | hl
    · exact .inr there
    · exact passed l hl
  | @kept k d s n target ns named there wanted =>
    rw [Path.placesFrom_cons named.single named.double] at bare
    exact absurd there (bare _ List.mem_cons_self target)
  | @along k d s n target ns t named there unwanted full on ih =>
    rw [Path.placesFrom_cons named.single named.double] at bare
    exact absurd there (bare _ List.mem_cons_self target)
  | @found k d s n ns e named there solid final =>
    obtain rfl : ns = [] := by
      cases ns with
      | nil => rfl
      | cons m ms => simp at final
    rw [Path.placesFrom_cons named.single named.double,
      Path.placeFrom_cons named.single named.double]
    exact ⟨rfl, fun l hl => .inl (List.mem_singleton.mp hl)⟩

/-- A walk from a directory to a place where nothing stands has named that place, and comes to it
from a directory. -/
theorem Walks.vacant (h : Walks fs aim links dir slashed todo spot) (rooted : fs.Rooted)
    (bare : fs.Bare (Path.placesFrom dir todo)) (from' : fs.entry? dir = some .directory)
    (gone : spot.entry = none) :
    spot.location ∈ Path.placesFrom dir todo ∧
      fs.entry? spot.location.dropLast = some .directory := by
  induction h with
  | arrived =>
    rw [from'] at gone
    cases gone
  | stay on ih =>
    rw [Path.placesFrom_single] at bare ⊢
    exact ih bare from' gone
  | up on ih =>
    rw [Path.placesFrom_double] at bare ⊢
    exact ih bare (rooted.parent _ _ from') gone
  | missing named free =>
    rw [Path.placesFrom_cons named.single named.double, List.dropLast_concat]
    exact ⟨List.mem_cons_self, from'⟩
  | down named there on ih =>
    rw [Path.placesFrom_cons named.single named.double] at bare ⊢
    obtain ⟨mine, above⟩ := ih (fun l hl => bare l (List.mem_cons_of_mem _ hl)) there gone
    exact ⟨List.mem_cons_of_mem _ mine, above⟩
  | @kept k d s n target ns named there wanted => cases gone
  | @along k d s n target ns t named there unwanted full on ih =>
    rw [Path.placesFrom_cons named.single named.double] at bare
    exact absurd there (bare _ List.mem_cons_self target)
  | found named there solid final => cases gone

theorem walks_of_locate (h : fs.locate aim p = .ok spot) :
    Walks fs aim mostLinks (fs.start p) (Path.endsInSlash p) (Path.names p) spot :=
  (locate_iff.mp h).2

/-- The name of a path leads along the way of the path, if it is not the root. -/
theorem walks_of_locateName (h : fs.locateName p = .ok spot) :
    Path.names p = [] ∧ spot = ⟨[], some .directory⟩ ∨
      ∃ slashed, Walks fs .keep mostLinks (fs.start p) slashed (Path.names p) spot := by
  obtain ⟨tail, hp, _⟩ := Path.exists_slashes p
  have names := Path.names_dropEnd p
  unfold locateName at h
  dsimp only at h
  generalize Text.dropEnd (· == Path.slash) p = front at h hp names
  split at h
  · rename_i root
    have empty : front = [] := List.isEmpty_iff.mp (Bool.and_eq_true_iff.mp root).1
    subst empty
    exact .inl ⟨names.symm, (Except.ok.inj h).symm⟩
  · have walks := walks_of_locate h
    have full : front ≠ [] := by
      rintro rfl
      exact (locate_iff.mp h).1.full rfl
    have same : fs.start p = fs.start front := by
      rw [hp, start, Path.isAbsolute_append full]
      rfl
    rw [names, ← same] at walks
    exact .inr ⟨_, walks⟩

theorem Rooted.start (h : fs.Rooted) (p : Path) : fs.entry? (fs.start p) = some .directory := by
  unfold FileSystem.start
  split
  · rfl
  · exact h.home

/-- A tree without links that is in order, as far as its list of entries tells. -/
def tidy (fs : FileSystem) : Bool :=
  fs.entry? fs.workingDirectory == some .directory && fs.entries.all fun t =>
    fs.entry? t.1.dropLast == some .directory && match t.2 with
      | .link _ => false
      | .file id _ => decide (id < fs.fresh)
      | _ => true

theorem sound_of_tidy (h : fs.tidy = true) : fs.Sound := by
  apply sound_of_entries
  rintro ⟨l, _⟩ listed id x rfl
  have own := List.all_eq_true.mp (Bool.and_eq_true_iff.mp h).2 _ listed
  exact of_decide_eq_true (Bool.and_eq_true_iff.mp own).2

theorem rooted_of_tidy (h : fs.tidy = true) : fs.Rooted := by
  obtain ⟨home, entries⟩ := Bool.and_eq_true_iff.mp h
  refine ⟨?_, eq_of_beq home⟩
  intro l e there
  by_cases hl : l = []
  · subst hl
    rfl
  · have own := List.all_eq_true.mp entries _ (mem_entries hl there)
    exact eq_of_beq (Bool.and_eq_true_iff.mp own).1

theorem straight_of_tidy (h : fs.tidy = true) (p : Path) : fs.Straight p := by
  intro l mine target there
  have hl := Path.ne_nil_of_mem_placesFrom mine
  have own := List.all_eq_true.mp (Bool.and_eq_true_iff.mp h).2 _ (mem_entries hl there)
  cases (Bool.and_eq_true_iff.mp own).2

theorem place_eq_of_locate (straight : fs.Straight p) (h : fs.locate aim p = .ok spot) :
    spot.location = fs.placeOf p := ((walks_of_locate h).straight straight).1

/-- A directory that is made stands at a place on the way of its path where nothing stood, and all
other places there are directories. -/
theorem makeDirectory_straight (rooted : fs.Rooted) (straight : fs.Straight p)
    (made : fs.makeDirectory p = .ok left) :
    ∃ l ∈ fs.placesOf p, fs.entry? l = none ∧ fs.entry? l.dropLast = some .directory ∧
      left = fs.put l .directory ∧ ∀ m ∈ fs.placesOf p, m = l ∨ fs.entry? m = some .directory := by
  obtain ⟨spot, located, gone, rfl⟩ := makeDirectory_eq made
  rcases walks_of_locateName located with ⟨_, rfl⟩ | ⟨slashed, walks⟩
  · cases gone
  · obtain ⟨mine, above⟩ := walks.vacant rooted straight (rooted.start p) gone
    exact ⟨spot.location, mine, walks.entry.symm.trans gone, above, rfl,
      (walks.straight straight).2⟩

/-- What directories are made on. -/
structure Ground (home : Location) (ls : List Location) (fs : FileSystem) : Prop where
  rooted : fs.Rooted
  bare : fs.Bare ls
  home : fs.workingDirectory = home

/-- A path whose way is among some places. -/
def Way (home : Location) (ls : List Location) (p : Path) : Prop :=
  ∀ l ∈ Path.placesFrom (if Path.isAbsolute p then [] else home) (Path.names p), l ∈ ls

/-- Directories have been made at some places where nothing stood. -/
def Dug (ls : List Location) (fs left : FileSystem) : Prop :=
  ∀ l, left.entry? l = fs.entry? l ∨
    l ∈ ls ∧ fs.entry? l = none ∧ left.entry? l = some .directory

variable {home : Location}

theorem Ground.places (h : Ground home ls fs) (p : Path) :
    fs.placesOf p = Path.placesFrom (if Path.isAbsolute p then [] else home) (Path.names p) := by
  rw [FileSystem.placesOf, start, h.home]

theorem Ground.straight (h : Ground home ls fs) (way : Way home ls p) : fs.Straight p := by
  intro l hl
  rw [h.places] at hl
  exact h.bare l (way l hl)

theorem Dug.trans (h : Dug ls fs left) (g : Dug ls left last) : Dug ls fs last := by
  intro l
  rcases g l with same | ⟨mine, gone, made⟩
  · rw [same]
    exact h l
  · rcases h l with same | ⟨_, gone', _⟩
    · exact .inr ⟨mine, same.symm.trans gone, made⟩
    · exact .inr ⟨mine, gone', made⟩

theorem ground_put (h : Ground home ls fs) (hl : l ∈ ls) (gone : fs.entry? l = none)
    (above : fs.entry? l.dropLast = some .directory) :
    Ground home ls (fs.put l .directory) ∧ Dug ls fs (fs.put l .directory) := by
  have stands := entry?_put (ne_nil_of_free gone) fs .directory
  have keeps {m : Location} {e : Entry} (there : fs.entry? m = some e) :
      entry? (fs.put l .directory) m = some e := by
    rw [stands, if_neg, there]
    rintro rfl
    rw [gone] at there
    cases there
  refine ⟨⟨⟨?_, keeps h.rooted.home⟩, ?_, h.home⟩, ?_⟩
  · intro m e there
    rw [stands] at there
    by_cases hm : m = l
    · exact keeps (hm ▸ above)
    · rw [if_neg hm] at there
      exact keeps (h.rooted.parent m e there)
  · intro m hm target there
    rw [stands] at there
    by_cases same : m = l
    · rw [if_pos same] at there
      cases there
    · rw [if_neg same] at there
      exact h.bare m hm target there
  · intro m
    rw [stands]
    by_cases same : m = l
    · subst same
      exact .inr ⟨hl, gone, if_pos rfl⟩
    · exact .inl (if_neg same)

theorem ground_makeDirectory (h : Ground home ls fs) (way : Way home ls p)
    (made : fs.makeDirectory p = .ok left) : Ground home ls left ∧ Dug ls fs left := by
  obtain ⟨l, mine, gone, above, rfl, _⟩ := makeDirectory_straight h.rooted (h.straight way) made
  rw [h.places] at mine
  exact ground_put h (way l mine) gone above

theorem ground_makeWithParents {above : List Path} (h : Ground home ls fs) (way : Way home ls p)
    (ways : ∀ q ∈ above, Way home ls q) :
    Ground home ls (fs.makeWithParents p above).2 ∧ Dug ls fs (fs.makeWithParents p above).2 := by
  refine rel_makeWithParents (P := Way home ls)
    (R := fun fs left => Ground home ls fs → Ground home ls left ∧ Dug ls fs left)
    (fun fs h => ⟨h, fun _ => .inl rfl⟩) (fun way made h => ground_makeDirectory h way made) ?_ fs
    way ways h
  intro fs left last first second h
  obtain ⟨ground, dug⟩ := first h
  obtain ⟨ground', dug'⟩ := second ground
  exact ⟨ground', dug.trans dug'⟩

/-- A directory that is made or found has directories on all its way. -/
theorem directories_of_makeOrFind (h : Ground home ls fs) (way : Way home ls p)
    (made : fs.makeOrFind p = (none, left)) :
    ∀ l ∈ fs.placesOf p, left.entry? l = some .directory := by
  have straight := h.straight way
  unfold makeOrFind at made
  cases hm : fs.makeDirectory p with
  | ok new =>
    rw [hm] at made
    obtain rfl := (Prod.mk.inj made).2
    obtain ⟨l, _, gone, _, rfl, passed⟩ := makeDirectory_straight h.rooted straight hm
    intro m hm
    rw [entry?_put (ne_nil_of_free gone)]
    rcases passed m hm with rfl | there
    · exact if_pos rfl
    · by_cases same : m = l
      · exact if_pos same
      · rw [if_neg same, there]
  | error e =>
    rw [hm] at made
    dsimp only at made
    by_cases found : fs.isDirectory p = true
    · rw [if_pos found] at made
      obtain rfl := (Prod.mk.inj made).2
      have there : fs.stat p = .ok .directory := by
        unfold isDirectory at found
        split at found
        · assumption
        · cases found
      obtain ⟨d, located⟩ := stat_iff.mp there
      have walks := walks_of_locate located
      intro m hm
      rcases (walks.straight straight).2 m hm with rfl | passed
      · exact walks.entry.symm
      · exact passed
    · rw [if_neg found] at made
      cases (Prod.mk.inj made).1

/-- Making a directory with its parents ends with that directory made or found. -/
theorem exists_makeOrFind {above : List Path} (full : p ≠ []) (h : Ground home ls fs)
    (ways : ∀ q ∈ above, Way home ls q) (made : fs.makeWithParents p above = (none, left)) :
    ∃ mid, Ground home ls mid ∧ mid.makeOrFind p = (none, left) := by
  have some : ¬p.isEmpty = true := by simpa using full
  cases above with
  | nil =>
    rw [makeWithParents, if_neg some] at made
    exact ⟨fs, h, made⟩
  | cons q qs =>
    rw [makeWithParents, if_neg some] at made
    cases hm : fs.makeDirectory p with
    | ok new =>
      rw [hm] at made
      refine ⟨fs, h, ?_⟩
      rw [makeOrFind, hm]
      exact made
    | error e =>
      rw [hm] at made
      have found (here : (if fs.isDirectory p = true then (none, fs) else (Option.some e, fs)) =
          (none, left)) : fs.makeOrFind p = (none, left) := by
        rw [makeOrFind, hm]
        exact here
      split at made
      · cases ‹_ = Except.ok _›
      · have ground : Ground home ls (fs.makeWithParents q qs).2 :=
          (ground_makeWithParents h (ways q List.mem_cons_self)
            fun r hr => ways r (List.mem_cons_of_mem q hr)).1
        generalize fs.makeWithParents q qs = t at made ground
        obtain ⟨error, mid⟩ := t
        cases error with
        | some e => cases (Prod.mk.inj made).1
        | none => exact ⟨mid, ground, made⟩
      · rename_i e' _ he
        cases he
        exact ⟨fs, h, found made⟩

/-- When a directory has been made with its parents, there are directories on all its way, and
nothing else has changed. -/
theorem entry?_of_makeDirectories (full : p ≠ []) (rooted : fs.Rooted) (straight : fs.Straight p)
    (made : fs.makeDirectories p = (none, left)) :
    (∀ l ∈ fs.placesOf p, left.entry? l = some .directory) ∧
      (∀ l, l ∉ fs.placesOf p → left.entry? l = fs.entry? l) ∧
      left.workingDirectory = fs.workingDirectory := by
  have ground : Ground fs.workingDirectory (fs.placesOf p) fs := ⟨rooted, straight, rfl⟩
  have way : Way fs.workingDirectory (fs.placesOf p) p := fun l hl => hl
  have ways : ∀ q ∈ Path.ancestors p, Way fs.workingDirectory (fs.placesOf p) q := by
    intro q hq l hl
    obtain ⟨same, part⟩ := Path.ancestor_way hq
    rw [same] at hl
    exact part _ l hl
  have dug := ground_makeWithParents ground way ways
  unfold makeDirectories at made
  rw [made] at dug
  obtain ⟨mid, ground', found⟩ := exists_makeOrFind full ground ways made
  refine ⟨?_, ?_, dug.1.home⟩
  · intro l hl
    apply directories_of_makeOrFind ground' way found
    rw [ground'.places]
    exact hl
  · intro l hl
    rcases dug.2 l with same | ⟨mine, _⟩
    · exact same
    · exact absurd mine hl

theorem entry?_clear {d : Location} (hd : d ≠ []) (fs : FileSystem) (l : Location) :
    entry? (fs.clear d) l = if d <+: l ∧ l ≠ d then none else fs.entry? l := by
  by_cases hl : l = []
  · subst hl
    have apart : ¬(d <+: [] ∧ [] ≠ d) := fun h => hd (List.prefix_nil.mp h.1)
    rw [if_neg apart]
    rfl
  · have cut := lookup_filter (fun k => !(d.isPrefixOf k && d != k)) fs.entries l
    rw [entry?_of_ne_nil hl, entry?_of_ne_nil hl, clear, cut]
    by_cases below : d <+: l ∧ l ≠ d
    · have inside : d.isPrefixOf l = true := List.isPrefixOf_iff_prefix.mpr below.1
      have other : (d != l) = true := bne_iff_ne.mpr below.2.symm
      rw [if_pos below, inside, other]
      rfl
    · have outside : (!(d.isPrefixOf l && d != l)) = true := by
        rw [Bool.not_eq_true', Bool.eq_false_iff]
        intro h
        obtain ⟨inside, other⟩ := Bool.and_eq_true_iff.mp h
        exact below ⟨List.isPrefixOf_iff_prefix.mp inside, (bne_iff_ne.mp other).symm⟩
      rw [if_neg below, if_pos outside]

theorem entry?_drop {d : Location} (hd : d ≠ []) (fs : FileSystem) (l : Location) :
    entry? (fs.drop d) l = if l = d then none else fs.entry? l := by
  by_cases hl : l = []
  · subst hl
    rw [if_neg hd.symm]
    rfl
  · rw [entry?_of_ne_nil hl, entry?_of_ne_nil hl, drop, lookup_filter (· != d)]
    by_cases same : l = d
    · rw [if_pos same, if_neg (by simpa using same)]
    · rw [if_neg same, if_pos (by simpa using same)]

/-- Nothing is left below a place, and what is elsewhere has stayed. At the place itself there is
nothing, or what has been there. -/
structure Emptied (d : Location) (fs left : FileSystem) : Prop where
  apart : ∀ l, l ≠ d → left.entry? l = if d <+: l then none else fs.entry? l
  own : left.entry? d = none ∨ left.entry? d = fs.entry? d
  home : left.workingDirectory = fs.workingDirectory

theorem Emptied.of_absent {d : Location} (gone : ∀ l, d <+: l → fs.entry? l = none) :
    Emptied d fs fs := by
  refine ⟨?_, .inr rfl, rfl⟩
  intro l _
  by_cases below : d <+: l
  · rw [if_pos below, gone l below]
  · rw [if_neg below]

theorem Emptied.keeps {d : Location} {e : Entry} (h : Emptied d fs left)
    (there : left.entry? l = some e) : fs.entry? l = some e := by
  by_cases hl : l = d
  · subst hl
    rcases h.own with gone | same
    · rw [gone] at there
      cases there
    · rw [← same, there]
  · rw [h.apart l hl] at there
    split at there
    · cases there
    · exact there

theorem emptied_clear {d : Location} (hd : d ≠ []) (fs : FileSystem) :
    Emptied d fs (fs.clear d) := by
  refine ⟨?_, .inr ?_, rfl⟩
  · intro l other
    rw [entry?_clear hd]
    by_cases below : d <+: l
    · rw [if_pos ⟨below, other⟩, if_pos below]
    · rw [if_neg fun h => below h.1, if_neg below]
  · rw [entry?_clear hd, if_neg fun h => h.2 rfl]

theorem Emptied.drop {d : Location} (hd : d ≠ []) (h : Emptied d fs left) :
    Emptied d fs (left.drop d) := by
  refine ⟨?_, .inl ?_, h.home⟩
  · intro l other
    rw [entry?_drop hd, if_neg other, h.apart l other]
  · rw [entry?_drop hd, if_pos rfl]

theorem Emptied.start {d : Location} (h : Emptied d fs left) (p : Path) :
    left.start p = fs.start p := by
  rw [FileSystem.start, FileSystem.start, h.home]

theorem Emptied.straight {d : Location} (h : Emptied d fs left) (straight : fs.Straight p) :
    left.Straight p := by
  intro l hl target there
  rw [placesOf, h.start] at hl
  exact straight l hl target (h.keeps there)

theorem Emptied.rooted {d : Location} (hd : d ≠ []) (h : Emptied d fs left) (rooted : fs.Rooted)
    (outside : ¬d <+: fs.workingDirectory) : left.Rooted := by
  have stays {l : Location} {e : Entry} (out : ¬d <+: l) (there : fs.entry? l = some e) :
      left.entry? l = some e := by
    rw [h.apart l fun same => out (same ▸ List.prefix_rfl), if_neg out, there]
  refine ⟨?_, ?_⟩
  · intro l e there
    apply stays _ (rooted.parent l e (h.keeps there))
    intro below
    -- Only the place itself may have a parent that is not below it.
    by_cases hl : l = d
    · subst hl
      have short := below.length_le
      have full := List.length_pos_iff.mpr hd
      rw [List.length_dropLast] at short
      omega
    · rw [h.apart l hl, if_pos (below.trans (List.dropLast_prefix l))] at there
      cases there
  · rw [h.home]
    exact stays outside rooted.home

theorem emptied_removeAll (straight : fs.Straight p) (own : fs.placeOf p ∈ fs.placesOf p)
    (removed : fs.removeAll p = (none, left)) : Emptied (fs.placeOf p) fs left := by
  have hd : fs.placeOf p ≠ [] := Path.ne_nil_of_mem_placesFrom own
  unfold removeAll at removed
  cases located : fs.locate .keep p with
  | error e =>
    rw [located] at removed
    cases removed
  | ok spot =>
    have here := place_eq_of_locate straight located
    have stands := (walks_of_locate located).entry
    rw [here] at stands
    simp only [located, here] at removed
    cases entry : spot.entry with
    | none =>
      rw [entry] at removed
      cases removed
    | some e =>
      rw [entry] at removed stands
      cases e with
      | link target => exact absurd stands.symm (straight _ own target)
      | file id x => cases removed
      | device dev => cases removed
      | program name => cases removed
      | directory =>
        have cleared := emptied_clear hd fs
        dsimp only at removed
        split at removed
        · rename_i last gone
          obtain rfl := (Prod.mk.inj removed).2
          obtain ⟨spot', located', _, _, rfl⟩ := removeDirectory_eq gone
          rcases walks_of_locateName located' with ⟨root, _⟩ | ⟨slashed, walks⟩
          · rw [placesOf, root] at own
            cases own
          · have same := (walks.straight (cleared.straight straight)).1
            rw [cleared.start] at same
            rw [same]
            exact cleared.drop hd
        · obtain rfl := (Prod.mk.inj removed).2
          exact cleared
        · cases (Prod.mk.inj removed).1

end FileSystem
end TestBench
