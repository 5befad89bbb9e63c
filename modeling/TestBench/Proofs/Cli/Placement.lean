import TestBench.Proofs.Cli.Reading
/-!
# Where options stand

An argument list is made of its positions and its options, each option with its value as a unit. How
a unit is written and where it stands between the positions, or before the double dash, makes no
difference: what is read depends on the positions in their order and on the values of the options.
-/
namespace TestBench.Cli

/-- A unit of an argument list: a position, or an option with its value, which is in the same
argument or in the next one. -/
inductive Part where
  | position (v : Bytes)
  | attached (s : Slot) (v : Bytes)
  | apart (s : Slot) (v : Bytes)
  | short (v : Bytes)
deriving DecidableEq, Repr

namespace Part

def words : Part → List Bytes
  | .position v => [v]
  | .attached s v => [s.attached v]
  | .apart s v => [s.long, v]
  | .short v => [shortConfig, v]

def position? : Part → Option Bytes
  | .position v => some v
  | _ => none

/-- The value that a unit gives to an option. -/
def value? (s : Slot) : Part → Option Bytes
  | .position _ => none
  | .attached t v | .apart t v => if t = s then some v else none
  | .short v => if s = .config then some v else none

/-- What stands in an argument of its own does not begin with a dash. -/
def Fit : Part → Prop
  | .position v | .apart _ v | .short v => Plain v
  | .attached _ _ => True

instance : (part : Part) → Decidable part.Fit
  | .position v | .apart _ v | .short v => inferInstanceAs (Decidable (Plain v))
  | .attached _ _ => .isTrue trivial

/-- After the double dash there are positions only, and they may be anything. -/
def Readable (escaped : Bool) (part : Part) : Prop :=
  if escaped then ∃ v, part = .position v else part.Fit

end Part

def positionsOf (parts : List Part) : List Bytes := parts.filterMap Part.position?

def valuesOf (parts : List Part) (s : Slot) : List Bytes := parts.filterMap (Part.value? s)

/-- An argument list: the name of the program, what stands before the double dash and, if there is a
double dash, the positions after it. -/
structure Line where
  program : Bytes
  before : List Part
  after : Option (List Bytes)

namespace Line

def words (l : Line) : List Bytes :=
  l.program :: (l.before.flatMap Part.words ++ l.after.elim [] (separator :: ·))

def parts (l : Line) : List Part := l.before ++ (l.after.getD []).map .position

def positions (l : Line) : List Bytes := positionsOf l.parts

def values (l : Line) : Slot → List Bytes := valuesOf l.parts

def Fit (l : Line) : Prop := ∀ part ∈ l.before, part.Fit

end Line

/-- Units that can be taken: a plan and a target at most, and each option at most once. -/
structure Acceptable (parts : List Part) : Prop where
  few : (positionsOf parts).length ≤ 2
  plan : (positionsOf parts)[0]? ≠ some []
  target : ∀ v, (positionsOf parts)[1]? = some v → (Utf8.text? v).isSome = true
  once : ∀ s, (valuesOf parts s).length ≤ 1
  fine : ∀ s, ∀ v ∈ valuesOf parts s, s.Accepts v

namespace Progress

/-- What some units leave when they have all been taken. -/
structure Holds (p : Progress) (parts : List Part) : Prop where
  few : (positionsOf parts).length ≤ 2
  plan : p.plan = (positionsOf parts)[0]?
  target : p.target = (positionsOf parts)[1]?
  given : ∀ s, (p.given s).toList = valuesOf parts s
  free : p.waiting = none

def take (p : Progress) : Part → Option Progress
  | .position v => p.position v
  | .attached s v | .apart s v => p.fill s v
  | .short v => p.fill .config v

end Progress

variable {parts done : List Part} {part : Part} {p q : Progress} {s : Slot} {v : Bytes}

theorem positionsOf_append (xs ys : List Part) :
    positionsOf (xs ++ ys) = positionsOf xs ++ positionsOf ys := List.filterMap_append

theorem valuesOf_append (xs ys : List Part) (s : Slot) :
    valuesOf (xs ++ ys) s = valuesOf xs s ++ valuesOf ys s := List.filterMap_append

theorem Acceptable.left {xs ys : List Part} (h : Acceptable (xs ++ ys)) : Acceptable xs := by
  obtain ⟨few, plan, target, once, fine⟩ := h
  simp only [positionsOf_append, valuesOf_append, List.length_append, List.mem_append] at *
  have front {i : Nat} {v : Bytes} (there : (positionsOf xs)[i]? = some v) :
      (positionsOf xs ++ positionsOf ys)[i]? = some v := by
    rw [List.getElem?_append_left (List.getElem?_eq_some_iff.mp there).1, there]
  refine ⟨by omega, fun empty => plan (front empty), fun v there => target v (front there), ?_,
    fun s v hv => fine s v (.inl hv)⟩
  intro s
  have := once s
  omega

/-! ### One unit -/

theorem valuesOf_position (s : Slot) (v : Bytes) : valuesOf [.position v] s = [] := rfl

theorem Progress.Holds.start : Progress.start.Holds [] :=
  ⟨Nat.zero_le 2, rfl, rfl, fun s => by cases s <;> rfl, rfl⟩

theorem Progress.Holds.put {v : Bytes} (h : p.Holds done) (few : (positionsOf done).length < 2)
    (plan : q.plan = (positionsOf done ++ [v])[0]?)
    (target : q.target = (positionsOf done ++ [v])[1]?) (given : q.given = p.given)
    (free : q.waiting = p.waiting) : q.Holds (done ++ [.position v]) := by
  have positions : positionsOf (done ++ [.position v]) = positionsOf done ++ [v] :=
    positionsOf_append _ _
  refine ⟨?_, by rw [positions, plan], by rw [positions, target], ?_, free.trans h.free⟩
  · rw [positions, List.length_append, List.length_singleton]
    exact few
  · intro s
    rw [valuesOf_append, valuesOf_position, List.append_nil, given, h.given]

/-- A position is taken for the plan or else for the target, if it may be. -/
theorem Progress.Holds.position (h : p.Holds done) (v : Bytes) :
    (∃ q, p.position v = some q ∧ q.Holds (done ++ [.position v]) ∧ q.escaped = p.escaped) ∨
      p.position v = none ∧ ¬Acceptable (done ++ [.position v]) := by
  have positions : positionsOf (done ++ [.position v]) = positionsOf done ++ [v] :=
    positionsOf_append _ _
  have few := h.few
  have plan := h.plan
  have target := h.target
  match ps : positionsOf done with
  | [] =>
    rw [ps] at plan target positions
    by_cases empty : v = []
    · refine .inr ⟨?_, fun ok => ok.plan ?_⟩
      · simp only [Progress.position, plan, empty, List.getElem?_nil, List.isEmpty_nil, if_true]
      · rw [positions, empty]
        rfl
    · refine .inl ⟨{ p with plan := some v }, ?_, ?_, rfl⟩
      · have full : v.isEmpty = false := List.isEmpty_eq_false_iff.mpr empty
        simp only [Progress.position, plan, List.getElem?_nil, full, Bool.false_eq_true, if_false]
      · exact h.put (by rw [ps]; exact Nat.zero_lt_two) (by rw [ps]; rfl) (by rw [ps]; exact target)
          rfl rfl
  | [first] =>
    rw [ps] at plan target positions
    cases text : Utf8.text? v with
    | none =>
      refine .inr ⟨?_, fun ok => ?_⟩
      · simp only [Progress.position, plan, target, text, List.getElem?_cons_zero,
          List.getElem?_cons_succ, List.getElem?_nil, Option.isNone_none, if_true]
      · have known := ok.target v (by rw [positions]; rfl)
        rw [text] at known
        cases known
    | some t =>
      refine .inl ⟨{ p with target := some v }, ?_, ?_, rfl⟩
      · simp only [Progress.position, plan, target, text, List.getElem?_cons_zero,
          List.getElem?_cons_succ, List.getElem?_nil, Option.isNone_some, Bool.false_eq_true,
          if_false]
      · exact h.put (by rw [ps]; exact Nat.one_lt_two) (by rw [ps]; exact plan) (by rw [ps]; rfl)
          rfl rfl
  | first :: second :: rest =>
    rw [ps] at plan target positions
    refine .inr ⟨?_, fun ok => ?_⟩
    · simp only [Progress.position, plan, target, List.getElem?_cons_zero,
        List.getElem?_cons_succ]
    · have many := ok.few
      simp only [positions, List.length_append, List.length_cons, List.length_nil] at many
      omega

/-- A unit that gives a value to an option. -/
def Part.Gives (part : Part) (s : Slot) (v : Bytes) : Prop :=
  part = .attached s v ∨ part = .apart s v ∨ s = .config ∧ part = .short v

theorem Part.Gives.values (h : part.Gives s v) (t : Slot) :
    valuesOf [part] t = if s = t then [v] else [] := by
  have own : part.value? t = if s = t then some v else none := by
    rcases h with rfl | rfl | ⟨rfl, rfl⟩
    · rfl
    · rfl
    · cases t <;> rfl
  rw [valuesOf, List.filterMap_cons, own]
  by_cases same : s = t
  · rw [if_pos same, if_pos same]
    rfl
  · rw [if_neg same, if_neg same]
    rfl

theorem Part.Gives.positions (h : part.Gives s v) : positionsOf [part] = [] := by
  rcases h with rfl | rfl | ⟨rfl, rfl⟩ <;> rfl

namespace Progress

theorem take_of_gives (h : part.Gives s v) (p : Progress) : p.take part = p.fill s v := by
  rcases h with rfl | rfl | ⟨rfl, rfl⟩ <;> rfl

/-- A value is taken for its option, if the option has none and may have this one. -/
theorem Holds.fill (h : p.Holds done) (gives : part.Gives s v) :
    (∃ q, p.take part = some q ∧ q.Holds (done ++ [part]) ∧ q.escaped = p.escaped) ∨
      p.take part = none ∧ ¬Acceptable (done ++ [part]) := by
  have positions : positionsOf (done ++ [part]) = positionsOf done := by
    rw [positionsOf_append, gives.positions, List.append_nil]
  have values (t : Slot) : valuesOf (done ++ [part]) t =
      (p.given t).toList ++ if s = t then [v] else [] := by
    rw [valuesOf_append, gives.values, h.given]
  rw [take_of_gives gives]
  cases first : p.given s with
  | some w =>
    refine .inr ⟨fill_again (by rw [first]; rfl) v, fun ok => ?_⟩
    have twice := ok.once s
    rw [values, first, if_pos rfl] at twice
    exact Nat.not_succ_le_self 1 twice
  | none =>
    by_cases accepts : s.Accepts v
    · refine .inl ⟨p.give s v, fill_fresh first accepts, ⟨?_, ?_, ?_, ?_, ?_⟩, by cases s <;> rfl⟩
      · rw [positions]
        exact h.few
      · rw [positions, ← h.plan]
        cases s <;> rfl
      · rw [positions, ← h.target]
        cases s <;> rfl
      · intro t
        rw [values, given_give]
        by_cases same : s = t
        · subst same
          rw [if_pos rfl, if_pos rfl, first]
          rfl
        · rw [if_neg same, if_neg same, List.append_nil]
      · cases s <;> rfl
    · refine .inr ⟨fill_unfit accepts p, fun ok => accepts (ok.fine s v ?_)⟩
      rw [values, if_pos rfl]
      exact List.mem_append_right _ List.mem_cons_self

theorem Holds.take (h : p.Holds done) (part : Part) :
    (∃ q, p.take part = some q ∧ q.Holds (done ++ [part]) ∧ q.escaped = p.escaped) ∨
      p.take part = none ∧ ¬Acceptable (done ++ [part]) := by
  cases part with
  | position v => exact h.position v
  | attached s v => exact h.fill (.inl rfl)
  | apart s v => exact h.fill (.inr (.inl rfl))
  | short v => exact h.fill (.inr (.inr ⟨rfl, rfl⟩))

end Progress

/-! ### A list of units -/

theorem parseFrom_ofOption {a : Bytes} {o : Option Progress} (h : step p a = .ofOption o)
    (rest : List Bytes) : parseFrom p (a :: rest) = o.elim .usage (parseFrom · rest) := by
  rw [parseFrom, h]
  cases o <;> rfl

theorem parseFrom_waiting {a : Bytes} (h : step p a = .onward { p with waiting := some s })
    (early : p.escaped = false) (plain : read v = .plain) (rest : List Bytes) :
    parseFrom p (a :: v :: rest) = (p.fill s v).elim .usage (parseFrom · rest) := by
  have value : step { p with waiting := some s } v = .ofOption (p.fill s v) := by
    rw [← Progress.fill_waiting p (some s)]
    exact step_value early rfl plain
  rw [parseFrom, h]
  exact parseFrom_ofOption value rest

/-- A unit is read as what it stands for. -/
theorem parseFrom_words (free : p.waiting = none) (readable : part.Readable p.escaped)
    (rest : List Bytes) :
    parseFrom p (part.words ++ rest) = (p.take part).elim .usage (parseFrom · rest) := by
  cases past : p.escaped with
  | true =>
    rw [past] at readable
    obtain ⟨v, rfl⟩ := readable
    exact parseFrom_ofOption (step_escaped past v) rest
  | false =>
    rw [past] at readable
    cases part with
    | position v => exact parseFrom_ofOption (step_position past free (read_plain readable)) rest
    | attached s v => exact parseFrom_ofOption (step_attached past free s v) rest
    | apart s v => exact parseFrom_waiting (step_long past free s) past (read_plain readable) rest
    | short v => exact parseFrom_waiting (step_shortConfig past free) past (read_plain readable) rest

/-- Units that are acceptable are all taken; any others end the reading. -/
theorem parseFrom_parts (h : p.Holds done) (readable : ∀ part ∈ parts, part.Readable p.escaped)
    (rest : List Bytes) :
    (∃ q, q.Holds (done ++ parts) ∧ q.escaped = p.escaped ∧
      parseFrom p (parts.flatMap Part.words ++ rest) = parseFrom q rest) ∨
    ¬Acceptable (done ++ parts) ∧ parseFrom p (parts.flatMap Part.words ++ rest) = .usage := by
  induction parts generalizing p done with
  | nil => exact .inl ⟨p, by rwa [List.append_nil], rfl, rfl⟩
  | cons part parts ih =>
    have reads := parseFrom_words h.free (readable part List.mem_cons_self)
      (parts.flatMap Part.words ++ rest)
    rw [← List.append_assoc, ← List.flatMap_cons] at reads
    rw [reads, ← List.singleton_append, ← List.append_assoc]
    rcases h.take part with ⟨q, taken, holds, same⟩ | ⟨refused, unfit⟩
    · rw [taken, Option.elim_some, ← same]
      apply ih holds
      intro other there
      rw [same]
      exact readable other (List.mem_cons_of_mem part there)
    · rw [refused]
      exact .inr ⟨fun ok => unfit ok.left, rfl⟩

theorem Progress.Holds.escape (h : p.Holds parts) : { p with escaped := true }.Holds parts :=
  ⟨h.few, h.plan, h.target, fun s => (by cases s <;> rfl : _ = _).trans (h.given s), h.free⟩

/-- After the double dash everything is a position. -/
theorem parseFrom_separator (h : p.Holds done) (early : p.escaped = false) (vs : List Bytes) :
    (∃ q : Progress, q.Holds (done ++ vs.map .position) ∧
      parseFrom p (separator :: vs) = q.finish) ∨
    ¬Acceptable (done ++ vs.map .position) ∧ parseFrom p (separator :: vs) = .usage := by
  have past : parseFrom p (separator :: vs) = parseFrom { p with escaped := true } vs := by
    rw [parseFrom, step_separator early h.free]
  have words : (vs.map Part.position).flatMap Part.words = vs := by
    rw [List.flatMap_map]
    exact List.flatMap_singleton' vs
  have readable : ∀ part ∈ vs.map Part.position, part.Readable true := by simp [Part.Readable]
  have rest := parseFrom_parts h.escape readable []
  rw [words, List.append_nil, ← past] at rest
  rcases rest with ⟨q, holds, _, reads⟩ | refused
  · exact .inl ⟨q, holds, reads⟩
  · exact .inr refused

/-- An argument list is read for what its units give, or it is refused because they cannot be
taken. -/
theorem parse_line {l : Line} (fit : l.Fit) :
    (∃ q : Progress, q.Holds l.parts ∧ parse l.words = q.finish) ∨
      ¬Acceptable l.parts ∧ parse l.words = .usage := by
  obtain ⟨program, before, after⟩ := l
  rcases parseFrom_parts .start fit (after.elim [] (separator :: ·)) with
    ⟨q, holds, early, reads⟩ | ⟨unfit, refused⟩
  · cases after with
    | none =>
      refine .inl ⟨q, ?_, reads⟩
      rw [Line.parts, Option.getD_none, List.map_nil, List.append_nil]
      exact holds
    | some vs =>
      rcases parseFrom_separator holds early vs with ⟨r, holds', reads'⟩ | ⟨unfit, refused⟩
      · exact .inl ⟨r, holds', reads.trans reads'⟩
      · exact .inr ⟨unfit, reads.trans refused⟩
  · exact .inr ⟨fun ok => unfit ok.left, refused⟩

theorem Progress.Holds.finish_run {plan : Bytes} {target : String} (h : p.Holds parts)
    (positions : positionsOf parts = [plan, Utf8.ofText target]) :
    p.finish = .run ⟨plan, target, p.config, p.language.bind Utf8.text?⟩ := by
  have there : p.plan = some plan := by rw [h.plan, positions]; rfl
  have last : p.target = some (Utf8.ofText target) := by rw [h.target, positions]; rfl
  simp only [Progress.finish, h.free, there, last, Utf8.text?_ofText]

theorem Progress.Holds.finish_usage (h : p.Holds parts) (other : (positionsOf parts).length ≠ 2) :
    p.finish = .usage := by
  have last : p.target = none := by
    have few := h.few
    rw [h.target, List.getElem?_eq_none]
    omega
  simp only [Progress.finish, h.free, last]
  cases p.plan <;> rfl

theorem Progress.Holds.given_eq {o : Option Bytes} (h : p.Holds parts)
    (values : valuesOf parts s = o.toList) : p.given s = o := by
  have first := congrArg List.head? ((h.given s).trans values)
  simpa only [Option.head?_toList] using first

/-- A plan that is named, a target that is a text, and a value at most for each option. -/
theorem Acceptable.of_values {plan : Bytes} {target : String} {config : Option Bytes}
    {language : Option String} (named : plan ≠ []) (full : ∀ c ∈ config, c ≠ [])
    (positions : positionsOf parts = [plan, Utf8.ofText target])
    (configs : valuesOf parts .config = config.toList)
    (languages : valuesOf parts .language = (language.map Utf8.ofText).toList) :
    Acceptable parts := by
  refine ⟨?_, ?_, ?_, ?_, ?_⟩
  · rw [positions]
    exact Nat.le_refl 2
  · rw [positions]
    exact fun same => named (Option.some.inj same)
  · intro v there
    rw [positions] at there
    obtain rfl := Option.some.inj there
    rw [Utf8.text?_ofText]
    rfl
  · intro s
    cases s with
    | config => rw [configs]; exact Option.length_toList_le
    | language => rw [languages]; exact Option.length_toList_le
  · intro s v there
    cases s with
    | config =>
      rw [configs, Option.mem_toList] at there
      exact full v there
    | language =>
      rw [languages, Option.mem_toList] at there
      obtain ⟨t, _, rfl⟩ := Option.map_eq_some_iff.mp there
      exact Option.isSome_iff_exists.mpr ⟨t, Utf8.text?_ofText t⟩

/-- Whatever the units of an argument list and wherever they stand: if there are two positions, a
plan and a target, and the options are given once at most, they are what is read; if there is
another number of positions, the usage is shown and the code is one. -/
theorem arguments_do_not_depend_on_placement {l : Line} (fit : l.Fit) (env : Environment)
    (m : Markup) (colored : Bool) :
    (∀ (plan : Bytes) (target : String) (config : Option Bytes) (language : Option String),
      plan ≠ [] → (∀ c ∈ config, c ≠ []) → l.positions = [plan, Utf8.ofText target] →
      l.values .config = config.toList → l.values .language = (language.map Utf8.ofText).toList →
      (answer env m colored l.words).result = .ok ⟨plan, target, config, language⟩ ∧
        (answer env m colored l.words).printed = .empty) ∧
    (l.positions.length ≠ 2 →
      (answer env m colored l.words).result = .error 1 ∧
        (answer env m colored l.words).printed =
          .toOut (Console.Manner.usage ⟨(answer env m colored l.words).locale, colored⟩)) := by
  constructor
  · intro plan target config language named full positions configs languages
    rcases parse_line fit with ⟨q, holds, parsed⟩ | ⟨unfit, _⟩
    · have own : q.config = config := holds.given_eq configs
      have spoken : q.language = language.map Utf8.ofText := holds.given_eq languages
      have text : (language.map Utf8.ofText).bind Utf8.text? = language := by
        cases language with
        | none => rfl
        | some t => exact Utf8.text?_ofText t
      rw [holds.finish_run positions, own, spoken, text] at parsed
      simp only [answer, parsed, and_self]
    · exact absurd (.of_values named full positions configs languages) unfit
  · intro other
    have parsed : parse l.words = .usage := by
      rcases parse_line fit with ⟨q, holds, parsed⟩ | ⟨_, refused⟩
      · rw [parsed, holds.finish_usage other]
      · exact refused
    simp only [answer, parsed, and_self]

namespace Mixed

/-- A configuration before the plan, whose path is no text, a language that looks like an option,
and a target that begins with a dash. -/
def line (more : List Bytes) : Line :=
  ⟨Utf8.ofText "run_plan", [.short (Utf8.ofText "c=d"), .position [255, 61],
    .attached .language (Utf8.ofText "--lang=en")], some (Utf8.ofText "-ü" :: more)⟩

end Mixed

theorem arguments_do_not_depend_on_placement_of_mixed :
    (Mixed.line []).Fit ∧
      (answer [] ⟨true⟩ false (Mixed.line []).words).result =
        .ok ⟨[255, 61], "-ü", some (Utf8.ofText "c=d"), some "--lang=en"⟩ ∧
      (answer [] ⟨true⟩ false (Mixed.line [separator]).words).result = .error 1 := by
  have fit (more : List Bytes) : (Mixed.line more).Fit := by
    simp only [Mixed.line, Line.Fit, List.forall_mem_cons]
    exact ⟨by decide, by decide, by decide, by simp⟩
  refine ⟨fit [], ?_, ?_⟩
  · exact ((arguments_do_not_depend_on_placement (fit []) [] ⟨true⟩ false).1 [255, 61] "-ü"
      (some (Utf8.ofText "c=d")) (some "--lang=en") (by decide) (by decide) rfl rfl rfl).1
  · exact ((arguments_do_not_depend_on_placement (fit [separator]) [] ⟨true⟩ false).2
      (by decide)).1

end TestBench.Cli
