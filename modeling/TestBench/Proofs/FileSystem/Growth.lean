import TestBench.Proofs.FileSystem.Entry
/-!
# Walking in a file system that grows

A path leads to the same place as long as nothing on its way changes. While a run goes on, files are
written and new ones are made, and every path that led to something leads there still.
-/
namespace TestBench

def Entry.isPassed : Entry → Bool
  | .directory | .link _ => true
  | _ => false

namespace FileSystem

structure Named (aim : Aim) (slashed : Bool) (name : Bytes) (rest : List Bytes) : Prop where
  single : name ≠ Path.single
  double : name ≠ Path.double
  makeable : ¬(rest.isEmpty && slashed && aim = .make) = true
  short : ¬longestName < name.length

/-- The walks that come to a place. -/
inductive Walks (fs : FileSystem) (aim : Aim) :
    Nat → Location → Bool → List Bytes → Spot → Prop where
  | arrived {k : Nat} {d : Location} {s : Bool} : Walks fs aim k d s [] ⟨d, fs.entry? d⟩
  | stay {k : Nat} {d : Location} {s : Bool} {ns : List Bytes} {t : Spot}
      (on : Walks fs aim k d s ns t) : Walks fs aim k d s (Path.single :: ns) t
  | up {k : Nat} {d : Location} {s : Bool} {ns : List Bytes} {t : Spot}
      (on : Walks fs aim k d.dropLast s ns t) : Walks fs aim k d s (Path.double :: ns) t
  | missing {k : Nat} {d : Location} {s : Bool} {n : Bytes} (named : Named aim s n [])
      (gone : fs.entry? (d ++ [n]) = none) : Walks fs aim k d s [n] ⟨d ++ [n], none⟩
  | down {k : Nat} {d : Location} {s : Bool} {n : Bytes} {ns : List Bytes} {t : Spot}
      (named : Named aim s n ns) (there : fs.entry? (d ++ [n]) = some .directory)
      (on : Walks fs aim k (d ++ [n]) s ns t) : Walks fs aim k d s (n :: ns) t
  | kept {k : Nat} {d : Location} {s : Bool} {n target : Bytes} {ns : List Bytes}
      (named : Named aim s n ns) (there : fs.entry? (d ++ [n]) = some (.link target))
      (wanted : (ns.isEmpty && !s && aim = .keep) = true) :
      Walks fs aim k d s (n :: ns) ⟨d ++ [n], some (.link target)⟩
  | along {k : Nat} {d : Location} {s : Bool} {n target : Bytes} {ns : List Bytes} {t : Spot}
      (named : Named aim s n ns) (there : fs.entry? (d ++ [n]) = some (.link target))
      (unwanted : ¬(ns.isEmpty && !s && aim = .keep) = true) (full : ¬target.isEmpty = true)
      (on : Walks fs aim k (if Path.isAbsolute target then [] else d)
        (s || (ns.isEmpty && Path.endsInSlash target)) (Path.names target ++ ns) t) :
      Walks fs aim (k + 1) d s (n :: ns) t
  | found {k : Nat} {d : Location} {s : Bool} {n : Bytes} {ns : List Bytes} {e : Entry}
      (named : Named aim s n ns) (there : fs.entry? (d ++ [n]) = some e)
      (solid : e.isPassed = false) (final : (ns.isEmpty && !s) = true) :
      Walks fs aim k d s (n :: ns) ⟨d ++ [n], some e⟩

variable {fs new last : FileSystem} {aim : Aim} {links : Nat} {dir l : Location} {slashed : Bool}
  {todo : List Bytes} {e : Entry} {spot : Spot} {p : Path} {id : Nat}

theorem walks_of_walk (h : fs.walk aim links dir slashed todo = .ok spot) :
    Walks fs aim links dir slashed todo spot := by
  fun_induction walk fs aim links dir slashed todo with
  | case1 =>
    cases h
    exact .arrived
  | case2 links dir slashed rest ih => exact .stay (ih h)
  | case3 links dir slashed rest _ ih => exact .up (ih h)
  | case6 links dir slashed name rest h₁ h₂ h₃ h₄ here gone final =>
    cases h
    obtain rfl := List.isEmpty_iff.mp final
    exact .missing ⟨h₁, h₂, h₃, h₄⟩ gone
  | case8 links dir slashed name rest h₁ h₂ h₃ h₄ here there ih =>
    exact .down ⟨h₁, h₂, h₃, h₄⟩ there (ih h)
  | case9 links dir slashed name rest h₁ h₂ h₃ h₄ here target there wanted =>
    cases h
    exact .kept ⟨h₁, h₂, h₃, h₄⟩ there wanted
  | case12 dir slashed name rest h₁ h₂ h₃ h₄ here target there wanted full n ih =>
    exact .along ⟨h₁, h₂, h₃, h₄⟩ there wanted full (ih h)
  | case13 links dir slashed name rest h₁ h₂ h₃ h₄ here e hd hl there final =>
    cases h
    refine .found ⟨h₁, h₂, h₃, h₄⟩ there ?_ final
    cases e with
    | directory => exact absurd rfl hd
    | link target => exact absurd rfl (hl target)
    | file id x => rfl
    | device d => rfl
    | program n => rfl
  | _ => cases h

theorem walk_of_walks (h : Walks fs aim links dir slashed todo spot) :
    fs.walk aim links dir slashed todo = .ok spot := by
  induction h with
  | arrived => rw [walk]
  | stay on ih => rw [walk, if_pos rfl, ih]
  | up on ih => rw [walk, if_neg (by decide), if_pos rfl, ih]
  | missing named gone =>
    rw [walk, if_neg named.single, if_neg named.double, if_neg named.makeable, if_neg named.short]
    simp only [gone]
    rfl
  | down named there on ih =>
    rw [walk, if_neg named.single, if_neg named.double, if_neg named.makeable, if_neg named.short]
    simp only [there]
    exact ih
  | kept named there wanted =>
    rw [walk, if_neg named.single, if_neg named.double, if_neg named.makeable, if_neg named.short]
    simp only [there]
    rw [if_pos wanted]
  | along named there wanted full on ih =>
    rw [walk, if_neg named.single, if_neg named.double, if_neg named.makeable, if_neg named.short]
    simp only [there]
    rw [if_neg wanted, if_neg full]
    exact ih
  | @found links dir slashed name rest e named there solid final =>
    rw [walk, if_neg named.single, if_neg named.double, if_neg named.makeable, if_neg named.short]
    simp only [there]
    cases e with
    | directory => cases solid
    | link target => cases solid
    | file id x => exact if_pos final
    | device d => exact if_pos final
    | program n => exact if_pos final

theorem Walks.entry (h : Walks fs aim links dir slashed todo spot) :
    spot.entry = fs.entry? spot.location := by
  induction h with
  | arrived => rfl
  | stay on ih => exact ih
  | up on ih => exact ih
  | missing named gone => exact gone.symm
  | down named there on ih => exact ih
  | kept named there wanted => exact there.symm
  | along named there unwanted full on ih => exact ih
  | found named there solid final => exact there.symm

theorem Named.follow {name : Bytes} {rest : List Bytes} (h : Named aim slashed name rest) :
    Named .follow slashed name rest := by
  refine ⟨h.single, h.double, ?_, h.short⟩
  simp only [reduceCtorEq, decide_false, Bool.and_false, Bool.false_eq_true, not_false_eq_true]

/-- A path that leads somewhere when a file is to be made leads there as well when it is only
followed. -/
theorem Walks.follow (h : Walks fs .make links dir slashed todo spot) :
    Walks fs .follow links dir slashed todo spot := by
  induction h with
  | arrived => exact .arrived
  | stay on ih => exact .stay ih
  | up on ih => exact .up ih
  | missing named gone => exact .missing named.follow gone
  | down named there on ih => exact .down named.follow there ih
  | kept named there wanted =>
    simp only [reduceCtorEq, decide_false, Bool.and_false, Bool.false_eq_true] at wanted
  | along named there unwanted full on ih =>
    refine .along named.follow there ?_ full ih
    simp only [reduceCtorEq, decide_false, Bool.and_false, Bool.false_eq_true, not_false_eq_true]
  | found named there solid final => exact .found named.follow there solid final

def Keeps (fs new : FileSystem) : Prop := ∀ m e, fs.entry? m = some e → new.entry? m = some e

theorem Walks.keep (h : Walks fs aim links dir slashed todo spot) (keeps : fs.Keeps new)
    (there : spot.entry = some e) : Walks new aim links dir slashed todo spot := by
  induction h with
  | @arrived k d s =>
    have hd : fs.entry? d = new.entry? d := there.trans (keeps d e there).symm
    rw [hd]
    exact .arrived
  | stay on ih => exact .stay (ih there)
  | up on ih => exact .up (ih there)
  | missing named gone => cases there
  | down named stands on ih => exact .down named (keeps _ _ stands) (ih there)
  | kept named stands wanted => exact .kept named (keeps _ _ stands) wanted
  | along named stands unwanted full on ih =>
    exact .along named (keeps _ _ stands) unwanted full (ih there)
  | found named stands solid final => exact .found named (keeps _ _ stands) solid final

/-- What has come to stand where nothing stood is found by the path that led there. -/
theorem Walks.fill (h : Walks fs .make links dir slashed todo spot) (keeps : fs.Keeps new)
    (free : spot.entry = none) (placed : new.entry? spot.location = some e)
    (solid : e.isPassed = false) :
    Walks new .make links dir slashed todo ⟨spot.location, some e⟩ := by
  induction h with
  | @arrived k d s =>
    rw [← placed]
    exact .arrived
  | stay on ih => exact .stay (ih free placed)
  | up on ih => exact .up (ih free placed)
  | @missing k d s n named gone =>
    -- With a slash after the last name there is nothing to be made.
    refine .found named placed solid ?_
    cases s with
    | false => rfl
    | true => exact absurd rfl named.makeable
  | down named there on ih => exact .down named (keeps _ _ there) (ih free placed)
  | kept named there wanted => cases free
  | along named there unwanted full on ih =>
    exact .along named (keeps _ _ there) unwanted full (ih free placed)
  | found named there solid final => cases free

/-- A file system that has grown: every entry has stayed, and those that have come are new files. -/
structure Grown (fs new : FileSystem) : Prop where
  keeps : fs.Keeps new
  added : ∀ m e, new.entry? m = some e →
    fs.entry? m = some e ∨ ∃ id x, e = .file id x ∧ fs.fresh ≤ id
  fresh : fs.fresh ≤ new.fresh
  home : new.workingDirectory = fs.workingDirectory

theorem Grown.refl (fs : FileSystem) : fs.Grown fs :=
  ⟨fun _ _ h => h, fun _ _ h => .inl h, Nat.le_refl _, rfl⟩

theorem Grown.trans (h : fs.Grown new) (g : new.Grown last) : fs.Grown last := by
  refine ⟨fun m e hm => g.keeps m e (h.keeps m e hm), ?_, Nat.le_trans h.fresh g.fresh,
    g.home.trans h.home⟩
  intro m e hm
  rcases g.added m e hm with hm | ⟨id, x, he, hid⟩
  · exact h.added m e hm
  · exact .inr ⟨id, x, he, Nat.le_trans h.fresh hid⟩

/-- A path that leads to something has led to it before, or leads to a new file. -/
theorem Walks.before (h : Walks new aim links dir slashed todo spot) (grown : fs.Grown new)
    (there : spot.entry = some e) :
    Walks fs aim links dir slashed todo spot ∨ ∃ id x, e = .file id x ∧ fs.fresh ≤ id := by
  -- What a walk goes on from is no file, so it has been there before.
  have passed {m : Location} {e : Entry} (hm : new.entry? m = some e) (he : e.isPassed = true) :
      fs.entry? m = some e := by
    rcases grown.added m e hm with hm | ⟨id, x, rfl, _⟩
    · exact hm
    · cases he
  induction h with
  | @arrived k d s =>
    rcases grown.added d e there with hd | hn
    · left
      rw [show new.entry? d = fs.entry? d from there.trans hd.symm]
      exact .arrived
    · exact .inr hn
  | stay on ih => exact (ih there).imp_left .stay
  | up on ih => exact (ih there).imp_left .up
  | missing named gone => cases there
  | down named stands on ih => exact (ih there).imp_left (.down named (passed stands rfl))
  | kept named stands wanted => exact .inl (.kept named (passed stands rfl) wanted)
  | along named stands unwanted full on ih =>
    exact (ih there).imp_left (.along named (passed stands rfl) unwanted full)
  | found named stands solid final =>
    obtain rfl := Option.some.inj there
    exact (grown.added _ _ stands).imp_left fun hd => .found named hd solid final

structure Plain (p : Path) : Prop where
  clean : ¬p.contains 0 = true
  full : ¬p.isEmpty = true
  short : ¬longestPath ≤ p.length

theorem locate_iff : fs.locate aim p = .ok spot ↔ Plain p ∧
    Walks fs aim mostLinks (if Path.isAbsolute p then [] else fs.workingDirectory)
      (Path.endsInSlash p) (Path.names p) spot := by
  unfold locate
  constructor
  · intro h
    by_cases h₁ : p.contains 0 = true
    · rw [if_pos h₁] at h
      cases h
    rw [if_neg h₁] at h
    by_cases h₂ : p.isEmpty = true
    · rw [if_pos h₂] at h
      cases h
    rw [if_neg h₂] at h
    by_cases h₃ : longestPath ≤ p.length
    · rw [if_pos h₃] at h
      cases h
    rw [if_neg h₃] at h
    refine ⟨⟨h₁, h₂, h₃⟩, walks_of_walk ?_⟩
    dsimp only at h
    split at h
    · cases h
    · rename_i found
      cases h
      exact found
  · rintro ⟨⟨h₁, h₂, h₃⟩, h⟩
    rw [if_neg h₁, if_neg h₂, if_neg h₃]
    dsimp only
    rw [walk_of_walks h]

theorem stat_iff : fs.stat p = .ok e ↔ ∃ l, fs.locate .follow p = .ok ⟨l, some e⟩ := by
  unfold stat
  cases fs.locate .follow p with
  | error x =>
    refine iff_of_false (fun h => by cases h) ?_
    rintro ⟨l, h⟩
    cases h
  | ok spot =>
    obtain ⟨m, entry⟩ := spot
    cases entry with
    | none =>
      refine iff_of_false (fun h => by cases h) ?_
      rintro ⟨l, h⟩
      cases h
    | some d =>
      simp only [Except.ok.injEq, Spot.mk.injEq, Option.some.injEq, exists_eq_left']

theorem stat_keep (keeps : fs.Keeps new) (home : new.workingDirectory = fs.workingDirectory)
    (h : fs.stat p = .ok e) : new.stat p = .ok e := by
  obtain ⟨l, hl⟩ := stat_iff.mp h
  obtain ⟨plain, walks⟩ := locate_iff.mp hl
  rw [← home] at walks
  exact stat_iff.mpr ⟨l, locate_iff.mpr ⟨plain, walks.keep keeps rfl⟩⟩

theorem stat_before (grown : fs.Grown new) (h : new.stat p = .ok e) :
    fs.stat p = .ok e ∨ ∃ id x, e = .file id x ∧ fs.fresh ≤ id := by
  obtain ⟨l, hl⟩ := stat_iff.mp h
  obtain ⟨plain, walks⟩ := locate_iff.mp hl
  rw [grown.home] at walks
  exact (walks.before grown rfl).imp_left fun w =>
    stat_iff.mpr ⟨l, locate_iff.mpr ⟨plain, w⟩⟩

theorem stat_append (fs : FileSystem) (bs : Bytes) :
    (fs.append id bs).stat p = .ok e ↔ fs.stat p = .ok e :=
  ⟨stat_keep (fun _ _ h => h) rfl, stat_keep (fun _ _ h => h) rfl⟩

theorem stat_write (fs : FileSystem) (bs : Bytes) :
    (fs.write id bs).stat p = .ok e ↔ fs.stat p = .ok e :=
  ⟨stat_keep (fun _ _ h => h) rfl, stat_keep (fun _ _ h => h) rfl⟩

theorem keeps_create (free : fs.entry? l = none) (x : Bool) (bs : Bytes) :
    fs.Keeps (fs.create l x bs) := by
  intro m e hm
  have ne : m ≠ l := by
    rintro rfl
    rw [free] at hm
    cases hm
  rw [entry?_create (ne_nil_of_free free), if_neg ne, hm]

theorem grown_create (free : fs.entry? l = none) (x : Bool) (bs : Bytes) :
    fs.Grown (fs.create l x bs) := by
  refine ⟨keeps_create free x bs, ?_, Nat.le_succ _, rfl⟩
  intro m e hm
  rw [entry?_create (ne_nil_of_free free)] at hm
  by_cases h : m = l
  · rw [if_pos h] at hm
    exact .inr ⟨fs.fresh, x, (Option.some.inj hm).symm, Nat.le_refl _⟩
  · rw [if_neg h] at hm
    exact .inl hm

/-- What opening a file for writing comes to: an empty file that the path leads to, and that is new
if the path has not led to it before; or a device. -/
inductive Made (fs : FileSystem) (p : Path) : Handle → FileSystem → Prop where
  | file {id : Nat} {x : Bool} {opened : FileSystem} (named : opened.stat p = .ok (.file id x))
      (own : fs.stat p = .ok (.file id x) ∨ fs.fresh ≤ id) (grown : fs.Grown opened)
      (sound : fs.Sound → opened.Sound)
      (content : ∀ j, opened.content j = if j = id then [] else fs.content j) :
      Made fs p (.file id) opened
  | device {d : Device} (there : fs.stat p = .ok (.device d)) : Made fs p (.device d) fs

theorem grown_write (fs : FileSystem) (id : Nat) (bs : Bytes) : fs.Grown (fs.write id bs) :=
  ⟨fun _ _ h => h, fun _ _ h => .inl h, Nat.le_refl _, rfl⟩

theorem made_of_openWrite {handle : Handle} {opened : FileSystem}
    (h : fs.openWrite p = .ok (handle, opened)) : Made fs p handle opened := by
  unfold openWrite at h
  cases hl : fs.locate .make p with
  | error x =>
    rw [hl] at h
    cases h
  | ok spot =>
    obtain ⟨plain, walks⟩ := locate_iff.mp hl
    have followed : fs.locate .follow p = .ok spot := locate_iff.mpr ⟨plain, walks.follow⟩
    obtain ⟨place, entry⟩ := spot
    simp only [hl] at h
    cases entry with
    | none =>
      have free : fs.entry? place = none := walks.entry.symm
      dsimp only at h
      split at h
      · cases h
      · cases h
        have placed : entry? (fs.create place false []) place = some (.file fs.fresh false) := by
          rw [entry?_create (ne_nil_of_free free), if_pos rfl]
        have found := (walks.fill (keeps_create free false []) rfl placed rfl).follow
        refine .file (stat_iff.mpr ⟨place, locate_iff.mpr ⟨plain, found⟩⟩) (.inr (Nat.le_refl _))
          (grown_create free false []) ?_ (content_create fs place false [])
        exact fun sound => sound.create free false []
    | some e =>
      have there : fs.stat p = .ok e := stat_iff.mpr ⟨place, followed⟩
      cases e with
      | directory => cases h
      | link target => cases h
      | program n => cases h
      | file j x =>
        cases h
        exact .file ((stat_write fs []).mpr there) (.inl there) (grown_write fs j [])
          (fun sound => sound) (content_write fs j [])
      | device d =>
        cases d <;> cases h <;> exact .device there

/-- What a file system is after something was written at a path: it has grown, and no file that the
path does not lead to has changed. -/
structure Written (fs : FileSystem) (p : Path) (new : FileSystem) : Prop where
  grown : fs.Grown new
  sound : fs.Sound → new.Sound
  content : ∀ id, id < fs.fresh → (∀ x, fs.stat p ≠ .ok (.file id x)) →
    new.content id = fs.content id

theorem Written.refl (fs : FileSystem) (p : Path) : fs.Written p fs :=
  ⟨.refl fs, fun h => h, fun _ _ _ => rfl⟩

variable {handle : Handle} {opened left : FileSystem} {bs : Bytes}

theorem ne_of_own {k : Nat} {x : Bool} (own : fs.stat p = .ok (.file k x) ∨ fs.fresh ≤ k)
    (old : id < fs.fresh) (apart : ∀ y, fs.stat p ≠ .ok (.file id y)) : id ≠ k := by
  rintro rfl
  rcases own with there | new
  · exact apart x there
  · exact Nat.not_le_of_lt old new

theorem Made.written (h : Made fs p handle opened) : fs.Written p opened := by
  cases h with
  | @file k x _ named own grown sound content =>
    refine ⟨grown, sound, ?_⟩
    intro id hid apart
    rw [content, if_neg (ne_of_own own hid apart)]
  | device there => exact .refl fs p

theorem write_device {d : Device} (h : Handle.write fs bs (.device d) = .ok left) : left = fs := by
  cases d with
  | null => exact (Except.ok.inj h).symm
  | zero => exact (Except.ok.inj h).symm
  | terminal => cases h
  | full =>
    simp only [Handle.write] at h
    split at h
    · exact (Except.ok.inj h).symm
    · cases h

/-- Bytes written to a file that was opened anew are all that it holds. -/
theorem Made.write (h : Made fs p handle opened) (hw : handle.write opened bs = .ok left) :
    fs.Written p left ∧ (∀ id x, left.stat p = .ok (.file id x) → left.content id = bs) ∧
      ∀ id, (∀ x, left.stat p ≠ .ok (.file id x)) → left.content id = fs.content id := by
  have before := h.written
  cases h with
  | @file k y _ named own grown sound content =>
    obtain rfl := Except.ok.inj hw
    have holds (id : Nat) :
        (opened.append k bs).content id = if id = k then bs else fs.content id := by
      rw [content_append, content, content, if_pos rfl, List.nil_append]
      split <;> rfl
    have leads : (opened.append k bs).stat p = .ok (.file k y) := (stat_append opened bs).mpr named
    refine ⟨⟨grown.trans (grown_write opened k _), sound, ?_⟩, ?_, ?_⟩
    · intro id hid apart
      rw [holds, if_neg (ne_of_own own hid apart)]
    · intro id x there
      rw [leads] at there
      injection there with there
      injection there with there
      rw [holds, if_pos there.symm]
    · intro id apart
      rw [holds, if_neg]
      rintro rfl
      exact apart y leads
  | @device d there =>
    obtain rfl := write_device hw
    refine ⟨before, ?_, fun id _ => rfl⟩
    intro id x stands
    rw [there] at stands
    cases stands

/-- What a file system is after bytes were added to one file, and nothing else was done. -/
structure Appended (fs : FileSystem) (id : Nat) (bs : Bytes) (new : FileSystem) : Prop where
  entry : ∀ m, new.entry? m = fs.entry? m
  content : ∀ j, new.content j = if j = id then fs.content id ++ bs else fs.content j
  fresh : fs.fresh ≤ new.fresh
  home : new.workingDirectory = fs.workingDirectory

theorem appended_append (fs : FileSystem) (id : Nat) (bs : Bytes) :
    fs.Appended id bs (fs.append id bs) :=
  ⟨fun _ => rfl, content_append fs id bs, Nat.le_refl _, rfl⟩

theorem Appended.grown (h : fs.Appended id bs new) : fs.Grown new :=
  ⟨fun m _ hm => (h.entry m).trans hm, fun m _ hm => .inl ((h.entry m).symm.trans hm), h.fresh,
    h.home⟩

theorem Sound.lt_of_stat {x : Bool} (sound : fs.Sound) (h : fs.stat p = .ok (.file id x)) :
    id < fs.fresh := by
  obtain ⟨l, hl⟩ := stat_iff.mp h
  exact sound l id x (locate_iff.mp hl).2.entry.symm

theorem openRead_of_stat {x : Bool} (h : fs.stat p = .ok (.file id x)) :
    fs.openRead p = .ok (.file id) := by
  rw [openRead, h]
  rfl

theorem stat_of_openRead (h : fs.openRead p = .ok (.file id)) :
    ∃ x, fs.stat p = .ok (.file id x) := by
  unfold openRead at h
  cases hs : fs.stat p with
  | error e =>
    rw [hs] at h
    cases h
  | ok e =>
    rw [hs] at h
    cases e with
    | file j x =>
      cases h
      exact ⟨x, rfl⟩
    | directory => cases h
    | link target => cases h
    | program n => cases h
    | device d => cases d <;> cases h

theorem openAppend_of_stat {x : Bool} (h : fs.stat p = .ok (.file id x)) :
    fs.openAppend p = .ok (.file id) := by
  rw [openAppend, h]
  rfl

theorem readBytes_of_stat {x : Bool} (h : fs.stat p = .ok (.file id x)) :
    fs.readBytes p = .ok (fs.content id) := by
  rw [readBytes, openRead_of_stat h]
  rfl

/-- What is written to a file opened for appending is added to the file that the path leads to; a
device takes it and stays as it is. -/
theorem write_of_openAppend (ho : fs.openAppend p = .ok handle)
    (hw : handle.write fs bs = .ok left) :
    (∃ id x, fs.stat p = .ok (.file id x) ∧ left = fs.append id bs) ∨ left = fs := by
  unfold openAppend at ho
  cases hs : fs.stat p with
  | error e =>
    rw [hs] at ho
    cases ho
  | ok e =>
    rw [hs] at ho
    cases e with
    | directory => cases ho
    | link target => cases ho
    | program n => cases ho
    | file id x =>
      cases ho
      exact .inl ⟨id, x, rfl, (Except.ok.inj hw).symm⟩
    | device d =>
      right
      cases d with
      | terminal => cases ho
      | null =>
        cases ho
        exact write_device hw
      | zero =>
        cases ho
        exact write_device hw
      | full =>
        cases ho
        exact write_device hw

end FileSystem

end TestBench
