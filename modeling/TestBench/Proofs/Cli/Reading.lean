import TestBench.Cli.Help
import TestBench.Proofs.Text.Utf8
/-!
# How arguments are read

What each argument is read as, and what it does to the reading of a list: one equation for each way
in which an option, a value or a position is written, and from a step that goes on, back to the way
in which its argument is written.
-/
namespace TestBench.Cli

/-- An argument that does not begin with a dash. -/
def Plain (a : Bytes) : Prop := a.head? ≠ some dash

instance (a : Bytes) : Decidable (Plain a) := inferInstanceAs (Decidable (_ ≠ _))

/-- The double dash, after which every argument goes by its position. -/
def separator : Bytes := [dash, dash]

def shortConfig : Bytes := [dash, 99]

namespace Slot

def name : Slot → Bytes
  | .config => configName
  | .language => languageName

/-- The long name of an option as an argument. -/
def long (s : Slot) : Bytes := separator ++ s.name

/-- An option with its value in one argument. -/
def attached (s : Slot) (v : Bytes) : Bytes := s.long ++ equals :: v

end Slot

variable {a v x : Bytes} {p q : Progress} {s : Slot}

theorem read_plain (h : Plain a) : read a = .plain := by
  unfold read
  split
  · exact absurd rfl h
  · exact absurd rfl h
  · exact absurd rfl h
  · rfl

theorem read_separator : read separator = .escape := rfl

theorem read_long (s : Slot) : read s.long = .long s.name none := by
  cases s <;> decide

theorem read_attached (s : Slot) (v : Bytes) :
    read (s.attached v) = .long s.name (some v) := by
  cases s <;> rfl

theorem read_short (r : Bytes) : read (shortConfig ++ r) = .short (99 :: r) := rfl

theorem eq_separator_of_read (h : read a = .escape) : a = separator := by
  unfold read at h
  split at h
  · rfl
  · cases h
  · cases h
  · cases h

theorem eq_of_read_short {cluster : Bytes} (h : read a = .short cluster) :
    cluster ≠ [] ∧ a = dash :: cluster := by
  unfold read at h
  split at h
  · cases h
  · cases h
  · obtain rfl := Reading.short.inj h
    exact ⟨List.cons_ne_nil _ _, rfl⟩
  · cases h

/-- A long option has its name up to the first equals sign, and its value after it. -/
theorem eq_of_read_long {name : Bytes} {value : Option Bytes} (h : read a = .long name value) :
    a = separator ++ name ++ value.elim [] (equals :: ·) := by
  unfold read at h
  split at h
  · cases h
  · rename_i r _
    obtain ⟨rfl, rfl⟩ := Reading.long.inj h
    have whole := List.takeWhile_append_dropWhile (p := (· != equals)) (l := r)
    have rest : r.drop (r.takeWhile (· != equals)).length = r.dropWhile (· != equals) := by
      have cut := congrArg (List.drop (r.takeWhile (· != equals)).length) whole
      rw [List.drop_left] at cut
      exact cut.symm
    have stops := List.head?_dropWhile_not (· != equals) r
    rw [rest, List.append_assoc]
    refine congrArg (separator ++ ·) ?_
    cases after : r.dropWhile (· != equals) with
    | nil =>
      rw [after] at whole
      exact whole.symm
    | cons b v =>
      rw [after, List.head?_cons] at stops
      rw [after] at whole
      obtain rfl : b = equals := by simpa using stops
      exact whole.symm
  · cases h
  · cases h

/-! ### The values of options -/

/-- A value that an option takes: a path that is not empty, or a text. -/
def Slot.Accepts : Slot → Bytes → Prop
  | .config, v => v ≠ []
  | .language, v => (Utf8.text? v).isSome = true

namespace Progress

def given (p : Progress) : Slot → Option Bytes
  | .config => p.config
  | .language => p.language

def give (p : Progress) (s : Slot) (v : Bytes) : Progress :=
  match s with
  | .config => { p with config := some v, waiting := none }
  | .language => { p with language := some v, waiting := none }

theorem fill_again (h : (p.given s).isSome = true) (v : Bytes) : p.fill s v = none := by
  cases s with
  | config =>
    have there : p.config.isSome = true := h
    simp only [fill, there, Bool.true_or, if_true]
  | language =>
    have there : p.language.isSome = true := h
    simp only [fill, there, Bool.true_or, if_true]

theorem fill_unfit (h : ¬s.Accepts v) (p : Progress) : p.fill s v = none := by
  cases s with
  | config =>
    have empty : v.isEmpty = true := List.isEmpty_iff.mpr (Decidable.not_not.mp h)
    simp only [fill, empty, Bool.or_true, if_true]
  | language =>
    have flawed : (Utf8.text? v).isNone = true := by simpa [Slot.Accepts] using h
    simp only [fill, flawed, Bool.or_true, if_true]

theorem fill_fresh (first : p.given s = none) (h : s.Accepts v) :
    p.fill s v = some (p.give s v) := by
  cases s with
  | config =>
    have none : p.config.isSome = false :=
      Option.isSome_eq_false_iff.mpr (Option.isNone_iff_eq_none.mpr first)
    have full : v.isEmpty = false := List.isEmpty_eq_false_iff.mpr h
    simp only [fill, none, full, Bool.or_self, Bool.false_eq_true, if_false]
    rfl
  | language =>
    have none : p.language.isSome = false :=
      Option.isSome_eq_false_iff.mpr (Option.isNone_iff_eq_none.mpr first)
    have text : (Utf8.text? v).isNone = false := Option.isNone_eq_false_iff.mpr h
    simp only [fill, none, text, Bool.or_self, Bool.false_eq_true, if_false]
    rfl

theorem fill_waiting (p : Progress) (w : Option Slot) (s : Slot) (v : Bytes) :
    { p with waiting := w }.fill s v = p.fill s v := by
  cases s <;> rfl

theorem given_give (p : Progress) (s t : Slot) (v : Bytes) :
    (p.give s v).given t = if s = t then some v else p.given t := by
  cases s <;> cases t <;> rfl

theorem fill_eq_some (h : p.fill s v = some q) :
    p.given s = none ∧ s.Accepts v ∧ q = p.give s v := by
  cases first : p.given s with
  | some w =>
    rw [fill_again (by rw [first]; rfl)] at h
    cases h
  | none =>
    by_cases accepts : s.Accepts v
    · rw [fill_fresh first accepts] at h
      exact ⟨rfl, accepts, (Option.some.inj h).symm⟩
    · rw [fill_unfit accepts] at h
      cases h

end Progress

/-! ### One step of the reading -/

theorem step_escaped (past : p.escaped = true) (v : Bytes) :
    step p v = .ofOption (p.position v) := if_pos past

theorem step_separator (early : p.escaped = false) (free : p.waiting = none) :
    step p separator = .onward { p with escaped := true } := by
  simp only [step, early, free, read_separator, Bool.false_eq_true, if_false]

theorem step_position (early : p.escaped = false) (free : p.waiting = none)
    (plain : read v = .plain) : step p v = .ofOption (p.position v) := by
  simp only [step, early, free, plain, Bool.false_eq_true, if_false]

theorem step_value (early : p.escaped = false) (waits : p.waiting = some s)
    (plain : read v = .plain) : step p v = .ofOption (p.fill s v) := by
  simp only [step, early, waits, plain, Bool.false_eq_true, if_false]

theorem languageName_ne : languageName ≠ configName := by decide

theorem long_none (p : Progress) (s : Slot) :
    long p s.name none = .onward { p with waiting := some s } := by
  cases s with
  | config => simp only [long, Slot.name, if_true]
  | language => simp only [long, Slot.name, if_neg languageName_ne, if_true]

theorem long_some (p : Progress) (s : Slot) (v : Bytes) :
    long p s.name (some v) = .ofOption (p.fill s v) := by
  cases s with
  | config => simp only [long, Slot.name, if_true]
  | language => simp only [long, Slot.name, if_neg languageName_ne, if_true]

theorem step_long (early : p.escaped = false) (free : p.waiting = none) (s : Slot) :
    step p s.long = .onward { p with waiting := some s } := by
  simp only [step, early, free, read_long, long_none, Bool.false_eq_true, if_false]

theorem step_attached (early : p.escaped = false) (free : p.waiting = none) (s : Slot)
    (v : Bytes) : step p (s.attached v) = .ofOption (p.fill s v) := by
  simp only [step, early, free, read_attached, long_some, Bool.false_eq_true, if_false]

theorem step_shortConfig (early : p.escaped = false) (free : p.waiting = none) :
    step p shortConfig = .onward { p with waiting := some .config } := by
  have letter : read shortConfig = .short [99] := read_short []
  simp only [step, early, free, letter, short, List.isEmpty_nil, Bool.false_eq_true, if_false,
    if_true]

/-- How an argument that is not the last word is written: the double dash, an option that waits for
its value, an option with its value, the value of an option that waits, or a position. -/
inductive Taken (p : Progress) : Bytes → Progress → Prop where
  | separator (free : p.waiting = none) : Taken p separator { p with escaped := true }
  | long (free : p.waiting = none) (s : Slot) : Taken p s.long { p with waiting := some s }
  | short (free : p.waiting = none) : Taken p shortConfig { p with waiting := some .config }
  | attached {s : Slot} {v : Bytes} {q : Progress} (free : p.waiting = none)
    (filled : p.fill s v = some q) : Taken p (s.attached v) q
  | cluster {r v : Bytes} {q : Progress} (free : p.waiting = none)
    (filled : p.fill .config v = some q) : Taken p (shortConfig ++ r) q
  | value {s : Slot} {v : Bytes} {q : Progress} (plain : read v = .plain)
    (waits : p.waiting = some s) (filled : p.fill s v = some q) : Taken p v q
  | position {v : Bytes} {q : Progress} (plain : read v = .plain) (free : p.waiting = none)
    (put : p.position v = some q) : Taken p v q

theorem Step.ofOption_onward {o : Option Progress} : Step.ofOption o = .onward q ↔ o = some q := by
  cases o with
  | none => exact iff_of_false (fun h => by cases h) (fun h => by cases h)
  | some r => exact ⟨fun h => congrArg some (Step.onward.inj h), fun h => by cases h; rfl⟩

theorem taken_of_long {name : Bytes} {value : Option Bytes} (free : p.waiting = none)
    (reads : read x = .long name value) (h : long p name value = .onward q) : Taken p x q := by
  have written := eq_of_read_long reads
  have named (s : Slot) (same : name = s.name) : Taken p x q := by
    subst same
    cases value with
    | none =>
      rw [long_none] at h
      cases h
      rw [written, Option.elim_none, List.append_nil]
      exact .long free s
    | some v =>
      rw [long_some] at h
      rw [written]
      exact .attached free (Step.ofOption_onward.mp h)
  by_cases config : name = configName
  · exact named .config config
  by_cases language : name = languageName
  · exact named .language language
  simp only [long, if_neg config, if_neg language] at h
  split at h
  · cases h
  · split at h <;> cases h

theorem taken_of_short {cluster : Bytes} (free : p.waiting = none)
    (reads : read x = .short cluster) (h : short p cluster = .onward q) : Taken p x q := by
  obtain ⟨full, rfl⟩ := eq_of_read_short reads
  unfold short at h
  split at h
  · exact absurd rfl full
  · rename_i r
    by_cases last : r = []
    · subst last
      simp only [List.isEmpty_nil, if_true] at h
      cases h
      exact .short free
    · have full : r.isEmpty = false := List.isEmpty_eq_false_iff.mpr last
      simp only [full, Bool.false_eq_true, if_false] at h
      exact .cluster free (Step.ofOption_onward.mp h)
  · cases h
  · cases h
  · cases h

/-- An argument that begins with a dash cannot be the value of an option that waits. -/
theorem step_refused (early : p.escaped = false) (waits : p.waiting = some s)
    (other : read x ≠ .plain) : step p x = .decided .usage := by
  simp only [step, early, waits, Bool.false_eq_true, if_false]

/-- A step that goes on has taken an argument that is written in one of these ways. -/
theorem taken_of_step (early : p.escaped = false) (h : step p x = .onward q) : Taken p x q := by
  cases waits : p.waiting with
  | some s =>
    by_cases plain : read x = .plain
    · rw [step_value early waits plain] at h
      exact .value plain waits (Step.ofOption_onward.mp h)
    · rw [step_refused early waits plain] at h
      cases h
  | none =>
    cases reads : read x with
    | plain =>
      rw [step_position early waits reads] at h
      exact .position reads waits (Step.ofOption_onward.mp h)
    | escape =>
      obtain rfl := eq_separator_of_read reads
      rw [step_separator early waits] at h
      cases h
      exact .separator waits
    | long name value =>
      simp only [step, early, reads, waits, Bool.false_eq_true, if_false] at h
      exact taken_of_long waits reads h
    | short cluster =>
      simp only [step, early, reads, waits, Bool.false_eq_true, if_false] at h
      exact taken_of_short waits reads h

end TestBench.Cli
