import Mathlib
import TestBench.Config
import TestBench.Proofs.Toml.Keys
/-!
# What a configuration file gives

Each setting is what the file gives under its key, or else its own default. The file is refused
exactly if one of the settings that it gives is of the wrong kind. What else stands in the file, and
in which order, makes no difference.
-/
namespace TestBench.Config

open Toml Entries

variable {α : Type} {read : Value → Option α} {means : Value → α → Prop} {default : α} {t t' : Table}
  {key : String} {x : α}

/-- The setting under a key: what is given there, or the default if nothing is. -/
def Takes (means : Value → α → Prop) (default : α) (t : Table) (key : String) (x : α) : Prop :=
  (∀ v, (key, v) ∈ t → means v x) ∧ ((∀ v, (key, v) ∉ t) → x = default)

theorem setting_of_mem {v : Value} (keys : Distinct t) (there : (key, v) ∈ t) :
    setting read default t key = read v := by
  simp only [setting, (lookup_iff keys).mpr there]

theorem setting_of_notMem (absent : ∀ v, (key, v) ∉ t) :
    setting read default t key = some default := by
  simp only [setting, lookup_eq_none.mpr absent]

theorem setting_eq_some (keys : Distinct t)
    (reads : ∀ v, (key, v) ∈ t → ∀ x, read v = some x ↔ means v x) :
    setting read default t key = some x ↔ Takes means default t key x := by
  by_cases given : ∃ v, (key, v) ∈ t
  · obtain ⟨v, there⟩ := given
    rw [setting_of_mem keys there, reads v there]
    constructor
    · intro own
      refine ⟨fun w hw => ?_, fun absent => absurd there (absent v)⟩
      rwa [keys.eq_of_mem hw there]
    · exact fun takes => takes.1 v there
  · have absent := not_exists.mp given
    rw [setting_of_notMem absent, Option.some.injEq]
    constructor
    · rintro rfl
      exact ⟨fun v there => absurd there (absent v), fun _ => rfl⟩
    · exact fun takes => (takes.2 absent).symm

theorem exists_takes (default : α) (keys : Distinct t) :
    (∃ x, Takes means default t key x) ↔ ∀ v, (key, v) ∈ t → ∃ x, means v x := by
  constructor
  · rintro ⟨x, takes⟩ v there
    exact ⟨x, takes.1 v there⟩
  · intro fits
    by_cases given : ∃ v, (key, v) ∈ t
    · obtain ⟨v, there⟩ := given
      obtain ⟨x, own⟩ := fits v there
      refine ⟨x, fun w hw => ?_, fun absent => absurd there (absent v)⟩
      rwa [keys.eq_of_mem hw there]
    · have absent := not_exists.mp given
      exact ⟨default, fun v there => absurd there (absent v), fun _ => rfl⟩

def IsText (v : Value) (s : String) : Prop := v = .string s

def AreTexts (v : Value) (ss : List String) : Prop := v = .array (ss.map .string)

def IsSeconds (v : Value) (n : Nat) : Prop := v = .integer n ∧ n < 2 ^ 64

/-- A setting that may be missing. -/
def IsGiven (means : Value → α → Prop) (v : Value) (x : Option α) : Prop := ∃ y, x = some y ∧ means v y

theorem exists_isGiven (means : Value → α → Prop) {v : Value} (h : ∃ y, means v y) :
    ∃ x, IsGiven means v x := by
  obtain ⟨y, own⟩ := h
  exact ⟨some y, y, rfl, own⟩

theorem string?_eq_some (v : Value) (s : String) : string? v = some s ↔ IsText v s := by
  cases v <;> simp [string?, IsText]

theorem mapM_string? (vs : List Value) (ss : List String) :
    vs.mapM string? = some ss ↔ vs = ss.map .string := by
  induction vs generalizing ss with
  | nil => simp [eq_comm]
  | cons v vs ih =>
    simp only [List.mapM_cons, Option.bind_eq_bind, Option.bind_eq_some_iff, Option.pure_def,
      Option.some.injEq, string?_eq_some, IsText, ih]
    constructor
    · rintro ⟨s, rfl, rest, rfl, rfl⟩
      rfl
    · intro same
      obtain ⟨s, rest, rfl, rfl, rfl⟩ := List.map_eq_cons_iff.mp same.symm
      exact ⟨s, rfl, rest, rfl, rfl⟩

theorem strings?_eq_some (v : Value) (ss : List String) : strings? v = some ss ↔ AreTexts v ss := by
  cases v <;> simp [strings?, AreTexts, mapM_string?]

theorem seconds?_eq_some (v : Value) (n : Nat) : seconds? v = some n ↔ IsSeconds v n := by
  cases v with
  | integer m =>
    have bound : Nat.pow 2 64 = 2 ^ 64 := rfl
    simp only [seconds?, IsSeconds, bound, Value.integer.injEq, Bool.and_eq_true,
      decide_eq_true_eq]
    split
    · rw [Option.some.injEq]
      omega
    · simp only [reduceCtorEq, false_iff]
      omega
  | _ => simp [seconds?, IsSeconds]

theorem map_some_eq_some (reads : ∀ v x, read v = some x ↔ means v x) (v : Value) (x : Option α) :
    (read v).map some = some x ↔ IsGiven means v x := by
  rw [Option.map_eq_some_iff, IsGiven]
  constructor
  · rintro ⟨y, own, rfl⟩
    exact ⟨y, rfl, (reads v y).mp own⟩
  · rintro ⟨y, rfl, own⟩
    exact ⟨y, (reads v y).mpr own, rfl⟩

end TestBench.Config

namespace TestBench

open Toml Config
open Entries (Distinct)

/-- A runner as a table of a configuration file gives it. -/
structure Runner.Follows (t : Table) (r : Runner) : Prop where
  program : Takes IsText Runner.standard.program t "program" r.program
  args : Takes AreTexts Runner.standard.args t "args" r.args

namespace Config

def IsRunner (v : Value) (r : Runner) : Prop := ∃ o own, v = .table o own ∧ Runner.Follows own r

/-- A configuration as the table of a file gives it, each setting by itself. -/
structure Follows (t : Table) (c : Config) : Prop where
  language : Takes (IsGiven IsText) none t "language" c.language
  logBase : Takes IsText standard.logBase t "log_base" c.logBase
  settleSecs : Takes IsSeconds standard.settleSecs t "settle_secs" c.settleSecs
  timeoutSecs : Takes (IsGiven IsSeconds) none t "timeout_secs" c.timeoutSecs
  runner : Takes IsRunner Runner.standard t "runner" c.runner

/-- Each setting that a table gives is of its kind. -/
structure WellTyped (t : Table) : Prop where
  language : ∀ v, ("language", v) ∈ t → ∃ s, v = .string s
  logBase : ∀ v, ("log_base", v) ∈ t → ∃ s, v = .string s
  settleSecs : ∀ v, ("settle_secs", v) ∈ t → ∃ n : Nat, v = .integer n ∧ n < 2 ^ 64
  timeoutSecs : ∀ v, ("timeout_secs", v) ∈ t → ∃ n : Nat, v = .integer n ∧ n < 2 ^ 64
  program : ∀ o own v, ("runner", .table o own) ∈ t → ("program", v) ∈ own → ∃ s, v = .string s
  args : ∀ o own v, ("runner", .table o own) ∈ t → ("args", v) ∈ own →
    ∃ ss : List String, v = .array (ss.map .string)

variable {t t' : Table} {c : Config}

theorem runnerOfTable_settings (t : Table) (r : Runner) :
    runnerOfTable t = some r ↔
      setting string? Runner.standard.program t "program" = some r.program ∧
        setting strings? Runner.standard.args t "args" = some r.args := by
  rw [runnerOfTable]
  split
  · rename_i program args hp ha
    rw [hp, ha]
    cases r
    simp
  · rename_i missing
    refine ⟨fun h => absurd h (Option.some_ne_none r).symm, fun given => ?_⟩
    exact absurd given.2 (missing _ _ given.1)

theorem ofTable_settings (t : Table) (c : Config) :
    ofTable t = some c ↔
      setting (fun v => (string? v).map some) none t "language" = some c.language ∧
        setting string? standard.logBase t "log_base" = some c.logBase ∧
        setting seconds? standard.settleSecs t "settle_secs" = some c.settleSecs ∧
        setting (fun v => (seconds? v).map some) none t "timeout_secs" = some c.timeoutSecs ∧
        setting runner? .standard t "runner" = some c.runner := by
  rw [ofTable]
  split
  · rename_i language logBase settle timeout runner hl hb hs ht hr
    rw [hl, hb, hs, ht, hr]
    cases c
    simp
  · rename_i missing
    refine ⟨fun h => absurd h (Option.some_ne_none c).symm, fun given => ?_⟩
    obtain ⟨language, logBase, settle, timeout, runner⟩ := given
    exact absurd runner (missing _ _ _ _ _ language logBase settle timeout)

theorem runnerOfTable_eq_some (keys : Distinct t) (r : Runner) :
    runnerOfTable t = some r ↔ Runner.Follows t r := by
  rw [runnerOfTable_settings, setting_eq_some keys fun v _ => string?_eq_some v,
    setting_eq_some keys fun v _ => strings?_eq_some v]
  exact ⟨fun h => ⟨h.1, h.2⟩, fun h => ⟨h.program, h.args⟩⟩

/-- A runner of the table, if there is one, is a table itself. -/
def HasRunnerTable (t : Table) : Prop := ∀ v, ("runner", v) ∈ t → ∃ o own, v = .table o own

theorem runner?_eq_some (regular : t.IsRegular) (tables : HasRunnerTable t) {v : Value}
    (there : ("runner", v) ∈ t) (r : Runner) : runner? v = some r ↔ IsRunner v r := by
  obtain ⟨o, own, rfl⟩ := tables v there
  have keys : Table.IsRegular own := regular.inner ((Entries.lookup_iff regular.keys).mpr there)
  rw [runner?, runnerOfTable_eq_some keys.keys]
  constructor
  · exact fun follows => ⟨o, own, rfl, follows⟩
  · rintro ⟨o', own', same, follows⟩
    cases same
    exact follows

/-- A table gives a configuration by giving each of its settings. -/
theorem ofTable_eq_some (regular : t.IsRegular) (tables : HasRunnerTable t) (c : Config) :
    ofTable t = some c ↔ Follows t c := by
  have texts := string?_eq_some
  rw [ofTable_settings, setting_eq_some regular.keys fun v _ => map_some_eq_some texts v,
    setting_eq_some regular.keys fun v _ => texts v,
    setting_eq_some regular.keys fun v _ => seconds?_eq_some v,
    setting_eq_some regular.keys fun v _ => map_some_eq_some seconds?_eq_some v,
    setting_eq_some regular.keys fun v there => runner?_eq_some regular tables there]
  constructor
  · rintro ⟨language, logBase, settle, timeout, runner⟩
    exact ⟨language, logBase, settle, timeout, runner⟩
  · rintro ⟨language, logBase, settle, timeout, runner⟩
    exact ⟨language, logBase, settle, timeout, runner⟩

theorem Follows.wellTyped (h : Follows t c) : WellTyped t := by
  obtain ⟨language, logBase, settle, timeout, runner⟩ := h
  refine ⟨fun v there => ?_, fun v there => ?_, fun v there => ?_, fun v there => ?_,
    fun o own v there held => ?_, fun o own v there held => ?_⟩
  · obtain ⟨s, _, own⟩ := language.1 v there
    exact ⟨s, own⟩
  · exact ⟨_, logBase.1 v there⟩
  · exact ⟨_, settle.1 v there⟩
  · obtain ⟨n, _, own⟩ := timeout.1 v there
    exact ⟨n, own⟩
  · obtain ⟨_, _, same, follows⟩ := runner.1 _ there
    cases same
    exact ⟨_, follows.program.1 v held⟩
  · obtain ⟨_, _, same, follows⟩ := runner.1 _ there
    cases same
    exact ⟨_, follows.args.1 v held⟩

theorem WellTyped.exists_runner (typed : WellTyped t) (regular : t.IsRegular)
    (tables : HasRunnerTable t) {v : Value} (there : ("runner", v) ∈ t) : ∃ r, IsRunner v r := by
  obtain ⟨o, own, rfl⟩ := tables v there
  have keys : Distinct own := (regular.inner ((Entries.lookup_iff regular.keys).mpr there)).keys
  obtain ⟨program, hp⟩ := (exists_takes Runner.standard.program keys).mpr
    fun v => typed.program o own v there
  obtain ⟨args, ha⟩ := (exists_takes Runner.standard.args keys).mpr
    fun v => typed.args o own v there
  exact ⟨⟨program, args⟩, o, own, rfl, hp, ha⟩

/-- There is a configuration for a table exactly if its settings are of their kinds. -/
theorem exists_follows (regular : t.IsRegular) (tables : HasRunnerTable t) :
    (∃ c, Follows t c) ↔ WellTyped t := by
  refine ⟨?_, fun typed => ?_⟩
  · rintro ⟨c, follows⟩
    exact follows.wellTyped
  obtain ⟨language, hl⟩ := (exists_takes none regular.keys).mpr
    fun v there => exists_isGiven IsText (typed.language v there)
  obtain ⟨logBase, hb⟩ := (exists_takes standard.logBase regular.keys).mpr typed.logBase
  obtain ⟨settle, hs⟩ := (exists_takes standard.settleSecs regular.keys).mpr typed.settleSecs
  obtain ⟨timeout, ht⟩ := (exists_takes none regular.keys).mpr
    fun v there => exists_isGiven IsSeconds (typed.timeoutSecs v there)
  obtain ⟨runner, hr⟩ := (exists_takes Runner.standard regular.keys).mpr
    fun v there => typed.exists_runner regular tables there
  exact ⟨⟨language, logBase, settle, timeout, runner⟩, hl, hb, hs, ht, hr⟩

/-- Two tables that hold the same under some keys. -/
def AgreeOn (keys : List String) (t t' : Table) : Prop :=
  ∀ key ∈ keys, ∀ v, (key, v) ∈ t ↔ (key, v) ∈ t'

/-- Two tables that give the same settings, in whatever order and whatever else they hold. -/
structure SameSettings (t t' : Table) : Prop where
  own : AgreeOn ["language", "log_base", "settle_secs", "timeout_secs"] t t'
  runner : ∀ o inner, ("runner", .table o inner) ∈ t → ∃ o' inner',
    ("runner", .table o' inner') ∈ t' ∧ AgreeOn ["program", "args"] inner inner'
  runner' : ∀ o' inner', ("runner", .table o' inner') ∈ t' → ∃ o inner,
    ("runner", .table o inner) ∈ t ∧ AgreeOn ["program", "args"] inner inner'

theorem AgreeOn.symm {keys : List String} (h : AgreeOn keys t t') : AgreeOn keys t' t :=
  fun key hk v => (h key hk v).symm

theorem SameSettings.symm (h : SameSettings t t') : SameSettings t' t := by
  refine ⟨h.own.symm, fun o inner there => ?_, fun o inner there => ?_⟩
  · obtain ⟨o', inner', there', same⟩ := h.runner' o inner there
    exact ⟨o', inner', there', same.symm⟩
  · obtain ⟨o', inner', there', same⟩ := h.runner o inner there
    exact ⟨o', inner', there', same.symm⟩

theorem Takes.of_agree {means : Value → α → Prop} {default x : α} {keys : List String}
    {key : String} (same : AgreeOn keys t t') (there : key ∈ keys) (h : Takes means default t key x) :
    Takes means default t' key x :=
  ⟨fun v hv => h.1 v ((same key there v).mpr hv),
    fun absent => h.2 fun v hv => absent v ((same key there v).mp hv)⟩

theorem Follows.of_same (same : SameSettings t t') (tables : HasRunnerTable t)
    (tables' : HasRunnerTable t') (h : Follows t c) : Follows t' c := by
  refine ⟨h.language.of_agree same.own (by simp), h.logBase.of_agree same.own (by simp),
    h.settleSecs.of_agree same.own (by simp), h.timeoutSecs.of_agree same.own (by simp), ?_, ?_⟩
  · intro v there'
    obtain ⟨o', inner', rfl⟩ := tables' v there'
    obtain ⟨o, inner, there, agree⟩ := same.runner' o' inner' there'
    obtain ⟨_, _, given, follows⟩ := h.runner.1 _ there
    cases given
    exact ⟨o', inner', rfl, follows.program.of_agree agree (by simp),
      follows.args.of_agree agree (by simp)⟩
  · intro absent
    apply h.runner.2
    intro v there
    obtain ⟨o, inner, rfl⟩ := tables v there
    obtain ⟨o', inner', there', _⟩ := same.runner o inner there
    exact absent _ there'

theorem load_eq_ok {fs : FileSystem} {p : Path} {s : String} (held : fs.readText p = .ok s)
    (parsed : parse s = some t) (tables : HasRunnerTable t) :
    load fs p = .ok c ↔ Follows t c := by
  rw [← ofTable_eq_some (isRegular_parse parsed) tables]
  simp only [load, held, parsed, Option.bind_some]
  cases ofTable t <;> simp

/-- A file that reads as a table, with a table for the runner if with any runner at all, is loaded
exactly if the settings in it are texts, numbers of seconds and lists of texts as they should be.
Then each setting is the one that the file gives, or its default where the file gives none. Two
files that give the same settings are loaded alike, whatever else they hold and in whatever order. -/
theorem load_takes_what_is_given {fs : FileSystem} {p : Path} {s : String} {t : Table}
    (held : fs.readText p = .ok s) (parsed : parse s = some t) (tables : HasRunnerTable t) :
    ((∃ c, load fs p = .ok c) ↔ WellTyped t) ∧
    (∀ c, load fs p = .ok c ↔ Follows t c) ∧
    ∀ (fs' : FileSystem) (p' : Path) (s' : String) (t' : Table), fs'.readText p' = .ok s' →
      parse s' = some t' → HasRunnerTable t' → SameSettings t t' →
      ∀ c, load fs p = .ok c ↔ load fs' p' = .ok c := by
  have gives (c : Config) : load fs p = .ok c ↔ Follows t c := load_eq_ok held parsed tables
  refine ⟨?_, gives, fun fs' p' s' t' held' parsed' tables' same c => ?_⟩
  · simp only [gives]
    exact exists_follows (isRegular_parse parsed) tables
  · rw [gives, load_eq_ok held' parsed' tables']
    exact ⟨.of_same same tables tables', .of_same same.symm tables' tables⟩

namespace Reordered

def text : String := "log_base = \"l\"\n[runner]\nprogram = \"r\"\n"

/-- The same settings in another order and other notations, with keys that are not known. -/
def again : String := "new = true\nrunner = \x7bextra = [], program = 'r'\x7d\nlog_base = 'l' # logs\n"

def files : FileSystem :=
  ⟨[([Utf8.ofText "a"], .file 0 false), ([Utf8.ofText "b"], .file 1 false)],
    [(0, Utf8.ofText text), (1, Utf8.ofText again)], 2, []⟩

def table : Table :=
  [("log_base", .string "l"), ("runner", .table .header [("program", .string "r")])]

def tableAgain : Table :=
  [("new", .boolean true),
    ("runner", .table .inline [("extra", .array []), ("program", .string "r")]),
    ("log_base", .string "l")]

def config : Config := ⟨none, "l", 2, none, ⟨"r", ["run_test.py"]⟩⟩

theorem follows : Follows table config := by
  have runner : Runner.Follows [("program", .string "r")] config.runner := by
    refine ⟨?_, ?_⟩
    · simp [Takes, config, IsText]
    · simp [Takes, config, Runner.standard]
  refine ⟨?_, ?_, ?_, ?_, ?_⟩
  · simp [Takes, table, config]
  · simp [Takes, table, config, IsText]
  · simp [Takes, table, config, standard]
  · simp [Takes, table, config]
  · simp [Takes, table, IsRunner, runner]

end Reordered

theorem load_takes_what_is_given_of_reordered :
    Reordered.files.readText (Utf8.ofText "a") = .ok Reordered.text ∧
      parse Reordered.text = some Reordered.table ∧ HasRunnerTable Reordered.table ∧
      load Reordered.files (Utf8.ofText "a") = .ok Reordered.config ∧
      Reordered.files.readText (Utf8.ofText "b") = .ok Reordered.again ∧
      parse Reordered.again = some Reordered.tableAgain ∧ HasRunnerTable Reordered.tableAgain ∧
      SameSettings Reordered.table Reordered.tableAgain ∧
      load Reordered.files (Utf8.ofText "b") = .ok Reordered.config := by
  have held : Reordered.files.readText (Utf8.ofText "a") = .ok Reordered.text := by cbv
  have held' : Reordered.files.readText (Utf8.ofText "b") = .ok Reordered.again := by cbv
  have parsed : parse Reordered.text = some Reordered.table := by cbv
  have parsed' : parse Reordered.again = some Reordered.tableAgain := by cbv
  have tables : HasRunnerTable Reordered.table := by simp [HasRunnerTable, Reordered.table]
  have tables' : HasRunnerTable Reordered.tableAgain := by
    simp [HasRunnerTable, Reordered.tableAgain]
  have same : SameSettings Reordered.table Reordered.tableAgain := by
    refine ⟨?_, ?_, ?_⟩
    · simp [AgreeOn, Reordered.table, Reordered.tableAgain]
    · simp [AgreeOn, Reordered.table, Reordered.tableAgain]
    · simp [AgreeOn, Reordered.table, Reordered.tableAgain]
  obtain ⟨_, gives, alike⟩ := load_takes_what_is_given held parsed tables
  have loaded := (gives Reordered.config).mpr Reordered.follows
  exact ⟨held, parsed, tables, loaded, held', parsed', tables', same,
    (alike _ _ _ _ held' parsed' tables' same _).mp loaded⟩

end Config
end TestBench
