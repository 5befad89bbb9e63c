import TestBench.Proofs.Cli.Reading
/-!
# The language of the messages

The language is looked for before the arguments are read. What is found is the option that is read,
if there is one; but the search does not stop at the double dash, and it begins with the name of the
program.
-/
namespace TestBench.Cli

/-- An argument that looks like the option for the language, with a text as its value or none. -/
def NamesLanguage (a : Bytes) : Prop :=
  a = Slot.language.long ∨ ∃ v, (Utf8.text? v).isSome = true ∧ a = Slot.language.attached v

/-- What stands after the first double dash. -/
def pastSeparator (args : List Bytes) : List Bytes := (args.dropWhile (· != separator)).tail

variable {a v x : Bytes} {args rest : List Bytes} {p q : Progress} {s : Slot} {r : Arguments}

theorem pastSeparator_cons (other : x ≠ separator) (rest : List Bytes) :
    pastSeparator (x :: rest) = pastSeparator rest := by
  have differs : (x != separator) = true := bne_iff_ne.mpr other
  exact congrArg List.tail (List.dropWhile_cons_of_pos differs)

/-! ### The search -/

theorem text?_attached (v : Bytes) :
    (Utf8.text? (Slot.language.attached v)).isSome = (Utf8.text? v).isSome := by
  have front : Slot.language.attached v = Utf8.encode "--lang=".toList ++ v := by
    rw [Slot.attached, Slot.long, List.append_assoc]
    rfl
  rw [front, Utf8.text?, Utf8.decode?_encode_append, Utf8.text?, Option.isSome_map,
    Option.isSome_map, Option.isSome_map]

theorem scanLanguage_long (rest : List Bytes) :
    scanLanguage (Slot.language.long :: rest) = rest.head?.bind Utf8.text? := by
  have text : (Utf8.text? Slot.language.long).isSome = true := by decide
  simp only [scanLanguage, read_long, Slot.name, text, decide_true, Bool.and_self, if_true]

theorem scanLanguage_attached (text : (Utf8.text? v).isSome = true) (rest : List Bytes) :
    scanLanguage (Slot.language.attached v :: rest) = Utf8.text? v := by
  simp only [scanLanguage, read_attached, Slot.name, text?_attached, text, decide_true,
    Bool.and_self, if_true]

theorem scanLanguage_cons (other : ¬NamesLanguage x) (rest : List Bytes) :
    scanLanguage (x :: rest) = scanLanguage rest := by
  rw [scanLanguage]
  split
  · rename_i name value reads
    have skipped : (name = languageName && (Utf8.text? x).isSome) = false := by
      by_cases named : name = languageName
      · subst named
        have written := eq_of_read_long reads
        cases value with
        | none =>
          refine absurd (.inl ?_) other
          rw [written, Option.elim_none, List.append_nil]
          rfl
        | some v =>
          have flawed : ¬(Utf8.text? v).isSome = true := fun text => other (.inr ⟨v, text, written⟩)
          have same : (Utf8.text? x).isSome = (Utf8.text? v).isSome := by
            rw [written]
            exact text?_attached v
          rw [same, Bool.eq_false_iff.mpr flawed, Bool.and_false]
      · rw [decide_eq_false named, Bool.false_and]
    rw [if_neg (by rw [skipped]; exact Bool.false_ne_true)]
  · rfl

theorem not_namesLanguage_of_read (h : ∀ value, read x ≠ .long languageName value) :
    ¬NamesLanguage x := by
  rintro (rfl | ⟨v, _, rfl⟩)
  · exact h none (read_long .language)
  · exact h (some v) (read_attached .language v)

/-! ### The reading -/

theorem position_fields (h : p.position v = some q) :
    q.language = p.language ∧ q.waiting = p.waiting ∧ q.escaped = p.escaped := by
  unfold Progress.position at h
  split at h
  · split at h
    · cases h
    · cases h
      exact ⟨rfl, rfl, rfl⟩
  · split at h
    · cases h
    · cases h
      exact ⟨rfl, rfl, rfl⟩
  · cases h

theorem language_of_finish (h : p.finish = .run r) :
    r.language = p.language.bind Utf8.text? ∧ p.waiting = none := by
  unfold Progress.finish at h
  split at h
  · split at h
    · cases h
      exact ⟨rfl, ‹_›⟩
    · cases h
  · cases h

theorem ofOption_ne_run (o : Option Progress) : Step.ofOption o ≠ .decided (.run r) := by
  cases o <;> exact fun h => by cases h

theorem long_ne_run (p : Progress) (name : Bytes) (value : Option Bytes) :
    long p name value ≠ .decided (.run r) := by
  have named (s : Slot) : long p s.name value ≠ .decided (.run r) := by
    cases value with
    | none =>
      rw [long_none]
      exact Step.noConfusion
    | some v =>
      rw [long_some]
      exact ofOption_ne_run _
  by_cases config : name = configName
  · exact config ▸ named .config
  by_cases language : name = languageName
  · exact language ▸ named .language
  simp only [long, if_neg config, if_neg language]
  cases value <;> split <;> (try split) <;> exact fun h => by cases h

theorem short_ne_run (p : Progress) (cluster : Bytes) : short p cluster ≠ .decided (.run r) := by
  unfold short
  split
  · exact Step.noConfusion
  · dsimp only
    split
    · exact Step.noConfusion
    · exact ofOption_ne_run _
  · exact fun h => by cases h
  · exact fun h => by cases h
  · exact fun h => by cases h

/-- Only the end of the list makes the arguments of a run. -/
theorem step_ne_run (p : Progress) (x : Bytes) : step p x ≠ .decided (.run r) := by
  unfold step
  split
  · exact ofOption_ne_run _
  · split
    · exact ofOption_ne_run _
    · exact ofOption_ne_run _
    · exact fun h => by cases h
    · exact Step.noConfusion
    · exact long_ne_run _ _ _
    · exact short_ne_run _ _

theorem exists_step_of_run (h : parseFrom p (x :: rest) = .run r) :
    ∃ q, step p x = .onward q ∧ parseFrom q rest = .run r := by
  rw [parseFrom] at h
  cases taken : step p x with
  | onward q =>
    rw [taken] at h
    exact ⟨q, rfl, h⟩
  | decided d =>
    rw [taken] at h
    exact absurd (taken.trans (congrArg Step.decided h)) (step_ne_run p x)

theorem language_past (past : p.escaped = true) (h : parseFrom p args = .run r) :
    r.language = p.language.bind Utf8.text? := by
  induction args generalizing p with
  | nil => exact (language_of_finish h).1
  | cons x rest ih =>
    obtain ⟨q, taken, h⟩ := exists_step_of_run h
    rw [step_escaped past] at taken
    obtain ⟨language, _, escaped⟩ := position_fields (Step.ofOption_onward.mp taken)
    rw [← language]
    exact ih (escaped.trans past) h

/-- A language that has been given is the one that is read. -/
theorem language_given (there : p.language = some v) (h : parseFrom p args = .run r) :
    r.language = Utf8.text? v := by
  induction args generalizing p with
  | nil => rw [(language_of_finish h).1, there, Option.bind_some]
  | cons x rest ih =>
    obtain ⟨q, taken, h'⟩ := exists_step_of_run h
    cases past : p.escaped with
    | true => rw [language_past past h, there, Option.bind_some]
    | false =>
      refine ih ?_ h'
      have filled {s : Slot} {w : Bytes} (filled : p.fill s w = some q) : q.language = some v := by
        obtain ⟨first, _, rfl⟩ := Progress.fill_eq_some filled
        cases s with
        | config => exact there
        | language =>
          rw [Progress.given, there] at first
          cases first
      cases taken_of_step past taken with
      | separator free => exact there
      | long free s => exact there
      | short free => exact there
      | attached free filled' => exact filled filled'
      | cluster free filled' => exact filled filled'
      | value plain waits filled' => exact filled filled'
      | position plain free put => exact (position_fields put).1.trans there

/-- The value of an option for the language stands in the next argument: it is what is found, and
what is read. -/
theorem scan_of_waiting (early : p.escaped = false) (waits : p.waiting = some .language)
    (h : parseFrom p rest = .run r) :
    p.language = none ∧ r.language.isSome = true ∧ rest.head?.bind Utf8.text? = r.language := by
  cases rest with
  | nil => cases waits.symm.trans (language_of_finish h).2
  | cons v rest =>
    obtain ⟨q, taken, h⟩ := exists_step_of_run h
    by_cases plain : read v = .plain
    · rw [step_value early waits plain, Step.ofOption_onward] at taken
      obtain ⟨first, text, rfl⟩ := Progress.fill_eq_some taken
      have read := language_given rfl h
      exact ⟨first, by rw [read]; exact text, read.symm⟩
    · rw [step_refused early waits plain] at taken
      cases taken

theorem not_namesLanguage_of_plain (plain : read x = .plain) : ¬NamesLanguage x :=
  not_namesLanguage_of_read fun value => by rw [plain]; exact Reading.noConfusion

theorem ne_separator_of_plain (plain : read x = .plain) : x ≠ separator := by
  rintro rfl
  cases plain

theorem not_namesLanguage_short (cluster : Bytes) : ¬NamesLanguage (shortConfig ++ cluster) :=
  not_namesLanguage_of_read fun value => by rw [read_short]; exact Reading.noConfusion

theorem ne_separator_short (cluster : Bytes) : shortConfig ++ cluster ≠ separator := by
  intro same
  cases (read_short cluster).symm.trans (same ▸ read_separator)

theorem ne_separator_long (s : Slot) : s.long ≠ separator := by
  cases s <;> decide

theorem ne_separator_attached (s : Slot) (v : Bytes) : s.attached v ≠ separator := by
  intro same
  cases (read_attached s v).symm.trans (same ▸ read_separator)

/-- Up to the double dash what is found is what is read; what stands after it is searched too. -/
theorem scan_eq (early : p.escaped = false) (free : p.waiting ≠ some .language)
    (h : parseFrom p args = .run r) :
    scanLanguage args =
      (if p.language.isSome then none else r.language).or (scanLanguage (pastSeparator args)) := by
  induction args generalizing p with
  | nil =>
    rw [(language_of_finish h).1]
    cases p.language <;> rfl
  | cons x rest ih =>
    obtain ⟨q, taken, h'⟩ := exists_step_of_run h
    have passed (unnamed : ¬NamesLanguage x) (other : x ≠ separator) (early : q.escaped = false)
        (free : q.waiting ≠ some .language) (same : q.language = p.language) :
        scanLanguage (x :: rest) = (if p.language.isSome then none else r.language).or
          (scanLanguage (pastSeparator (x :: rest))) := by
      rw [scanLanguage_cons unnamed, pastSeparator_cons other, ← same]
      exact ih early free h'
    cases taken_of_step early taken with
    | separator free =>
      have unnamed : ¬NamesLanguage separator :=
        not_namesLanguage_of_read fun value => by rw [read_separator]; exact Reading.noConfusion
      have past : pastSeparator (separator :: rest) = rest := rfl
      have language : r.language = p.language.bind Utf8.text? :=
        language_past (p := { p with escaped := true }) rfl h'
      rw [scanLanguage_cons unnamed, past, language]
      cases p.language <;> rfl
    | long free' s =>
      cases s with
      | config =>
        have unnamed : ¬NamesLanguage Slot.config.long :=
          not_namesLanguage_of_read fun value => by
            rw [read_long]
            exact fun same => languageName_ne (Reading.long.inj same).1.symm
        exact passed unnamed (ne_separator_long _) early (fun h => by cases h) rfl
      | language =>
        obtain ⟨first, there, found⟩ :=
          scan_of_waiting (p := { p with waiting := some .language }) early rfl h'
        obtain ⟨t, spoken⟩ := Option.isSome_iff_exists.mp there
        have first : p.language = none := first
        rw [scanLanguage_long, found, first, spoken]
        rfl
    | short free =>
      exact passed (not_namesLanguage_short []) (ne_separator_short []) early
        (fun h => by cases h) rfl
    | @attached s v _ free filled =>
      obtain ⟨first, accepts, rfl⟩ := Progress.fill_eq_some filled
      cases s with
      | config =>
        have unnamed : ¬NamesLanguage (Slot.config.attached v) :=
          not_namesLanguage_of_read fun value => by
            rw [read_attached]
            exact fun same => languageName_ne (Reading.long.inj same).1.symm
        exact passed unnamed (ne_separator_attached _ v) early (fun h => by cases h) rfl
      | language =>
        have first : p.language = none := first
        obtain ⟨t, spoken⟩ := Option.isSome_iff_exists.mp accepts
        rw [scanLanguage_attached accepts, language_given rfl h', first, spoken]
        rfl
    | @cluster cluster v _ free filled =>
      obtain ⟨_, _, rfl⟩ := Progress.fill_eq_some filled
      exact passed (not_namesLanguage_short _) (ne_separator_short _) early
        (fun h => by cases h) rfl
    | @value s v _ plain waits filled =>
      obtain ⟨_, _, rfl⟩ := Progress.fill_eq_some filled
      have unnamed := not_namesLanguage_of_plain plain
      have other := ne_separator_of_plain plain
      cases s with
      | config => exact passed unnamed other early (fun h => by cases h) rfl
      | language => exact absurd waits free
    | position plain free' put =>
      obtain ⟨language, waiting, escaped⟩ := position_fields put
      exact passed (not_namesLanguage_of_plain plain) (ne_separator_of_plain plain)
        (escaped.trans early) (waiting ▸ free) language

theorem answer_locale (env : Environment) (m : Markup) (colored : Bool) (args : List Bytes) :
    (answer env m colored args).locale = Locale.resolve env (scanLanguage args) := by
  unfold answer
  cases parse args <;> rfl

/-- The language of the messages is the one that is read, or else one that is found past the double
dash. So the search agrees with the reading exactly if an option gives the language or nothing past
the double dash looks like one. -/
theorem language_found_iff {program : Bytes} (named : ¬NamesLanguage program)
    (understood : parse (program :: args) = .run r) (env : Environment) (m : Markup)
    (colored : Bool) :
    (answer env m colored (program :: args)).locale =
        Locale.resolve env (r.language.or (scanLanguage (pastSeparator args))) ∧
      (scanLanguage (program :: args) = r.language ↔
        (r.language = none → scanLanguage (pastSeparator args) = none)) := by
  have found : scanLanguage (program :: args) =
      r.language.or (scanLanguage (pastSeparator args)) := by
    rw [scanLanguage_cons named]
    exact scan_eq (p := .start) rfl (fun h => by cases h) understood
  rw [answer_locale, found]
  refine ⟨rfl, ?_⟩
  cases r.language with
  | none => exact ⟨fun h _ => h, fun h => h rfl⟩
  | some t =>
    refine ⟨fun _ absent => ?_, fun _ => rfl⟩
    cases absent

namespace Stray

def words (args : List String) : List Bytes := args.map Utf8.ofText

def given : List Bytes := words ["p", "--lang", "en", "--", "--lang=zh-CN"]

end Stray

theorem language_found_iff_of_given :
    parse (Utf8.ofText "run_plan" :: Stray.given) =
        .run ⟨Utf8.ofText "p", "--lang=zh-CN", none, some "en"⟩ ∧
      (answer [] ⟨false⟩ false (Utf8.ofText "run_plan" :: Stray.given)).locale = .english := by
  have named : ¬NamesLanguage (Utf8.ofText "run_plan") :=
    not_namesLanguage_of_plain (read_plain (by decide))
  have understood : parse (Utf8.ofText "run_plan" :: Stray.given) =
      .run ⟨Utf8.ofText "p", "--lang=zh-CN", none, some "en"⟩ := by decide +kernel
  exact ⟨understood, (language_found_iff named understood [] ⟨false⟩ false).1⟩

/-- A target past the double dash is taken for the language of the messages, and so is the name of
the program. Neither is an option, and the language of the system is English here. -/
theorem language_taken_from_target :
    (parse (Stray.words ["run_plan", "p", "--", "--lang=zh-CN"]) =
        .run ⟨Utf8.ofText "p", "--lang=zh-CN", none, none⟩ ∧
      (answer [] ⟨false⟩ false (Stray.words ["run_plan", "p", "--", "--lang=zh-CN"])).locale ≠
        Locale.resolve [] none) ∧
    parse (Stray.words ["--lang=zh-CN", "p", "t"]) = .run ⟨Utf8.ofText "p", "t", none, none⟩ ∧
      (answer [] ⟨false⟩ false (Stray.words ["--lang=zh-CN", "p", "t"])).locale ≠
        Locale.resolve [] none := by
  rw [answer_locale, answer_locale]
  exact ⟨⟨by decide +kernel, by decide +kernel⟩, by decide +kernel, by decide +kernel⟩

end TestBench.Cli
