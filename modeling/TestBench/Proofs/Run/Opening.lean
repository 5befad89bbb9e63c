import Mathlib
import TestBench.Proofs.Run.Session
/-!
# What comes before the preparation

A session reads its arguments and its configuration, opens its plan and expands its log base before
it changes any file. Whatever of this fails, and for whatever reason, it has changed nothing and has
started no child.
-/
namespace TestBench

/-- The file that the configuration is taken from: the one that is named, or else the standard one
if it is there. -/
def Config.source (fs : FileSystem) : Option Path → Option Path
  | some p => some p
  | none => if fs.isFile standardFile then some standardFile else none

namespace Config

variable {fs : FileSystem} {named : Option Path} {p : Path}

theorem resolve_eq_load (taken : source fs named = some p) : resolve fs named = load fs p := by
  cases named with
  | some q =>
    obtain rfl := Option.some.inj taken
    rfl
  | none =>
    unfold source at taken
    by_cases there : fs.isFile standardFile = true
    · rw [if_pos there] at taken
      obtain rfl := Option.some.inj taken
      exact if_pos there
    · rw [if_neg there] at taken
      cases taken

theorem load_unread {e : IoError} (unread : fs.readText p = .error e) :
    load fs p = .error (.configUnreadable p e) := by
  simp only [load, unread]

theorem load_undecoded {text : String} (held : fs.readText p = .ok text)
    (undecoded : (Toml.parse text).bind ofTable = none) :
    load fs p = .error (.configInvalid p) := by
  simp only [load, held, undecoded]

/-- There is a configuration unless the file that it is taken from cannot be read or decoded. -/
theorem resolve_cases (fs : FileSystem) (named : Option Path) :
    (∃ config, resolve fs named = .ok config) ∨ ∃ p, source fs named = some p ∧
      ((∃ e, fs.readText p = .error e) ∨
        ∃ text, fs.readText p = .ok text ∧ (Toml.parse text).bind ofTable = none) := by
  cases taken : source fs named with
  | none =>
    refine .inl ⟨.standard, ?_⟩
    cases named with
    | some q => cases taken
    | none =>
      unfold source at taken
      by_cases there : fs.isFile standardFile = true
      · rw [if_pos there] at taken
        cases taken
      · exact if_neg there
  | some p =>
    cases held : fs.readText p with
    | error e => exact .inr ⟨p, rfl, .inl ⟨e, held⟩⟩
    | ok text =>
      cases decoded : (Toml.parse text).bind ofTable with
      | none => exact .inr ⟨p, rfl, .inr ⟨text, held, decoded⟩⟩
      | some config =>
        refine .inl ⟨config, ?_⟩
        rw [resolve_eq_load taken]
        simp only [load, held, decoded]

end Config

namespace Cli

variable {w : Surroundings} {fs : FileSystem} {args : List Bytes} {a : Arguments} {code : Nat}

/-- The code that ends a session at once. Help and version are no failure. -/
def Request.code? : Request → Option Nat
  | .run _ => none
  | .help | .version => some 0
  | .usage => some 1

/-- Why a session does not come to its preparation, and the code that it ends with: it is asked for
its help or its version, or its arguments are not understood; its configuration cannot be read or
decoded; its plan cannot be opened; or the log base names a variable that is not there. -/
inductive Unbegun (env : Environment) (fs : FileSystem) (args : List Bytes) : Nat → Prop where
  | answered {code : Nat} (ends : (parse args).code? = some code) : Unbegun env fs args code
  | configUnread {a : Arguments} {p : Path} {e : IoError} (understood : parse args = .run a)
      (taken : Config.source fs a.config = some p) (unread : fs.readText p = .error e) :
      Unbegun env fs args 1
  | configUndecoded {a : Arguments} {p : Path} {text : String} (understood : parse args = .run a)
      (taken : Config.source fs a.config = some p) (held : fs.readText p = .ok text)
      (undecoded : (Toml.parse text).bind Config.ofTable = none) : Unbegun env fs args 1
  | planUnopened {a : Arguments} {e : IoError} (understood : parse args = .run a)
      (closed : fs.openRead a.testPlan = .error e) : Unbegun env fs args 1
  | logBaseUndefined {a : Arguments} {config : Config} {name : String}
      (understood : parse args = .run a) (resolved : Config.resolve fs a.config = .ok config)
      (undefined : Expand.full env config.logBase = .error name) : Unbegun env fs args 1

theorem openRun_error_of_plan {env : Environment} {config : Config} {e : IoError}
    (closed : fs.openRead a.testPlan = .error e) :
    openRun env fs a config = .error (.planUnopened a.testPlan e) := by
  simp only [openRun, Plan.Reader.open, closed]

theorem openRun_error_of_logBase {env : Environment} {config : Config} {name : String}
    (undefined : Expand.full env config.logBase = .error name) :
    ∃ f, openRun env fs a config = .error f := by
  have unmade : Context.make config env a.target =
      .error (.logBaseUndefined config.logBase name) := by
    simp only [Context.make, Config.logBasePath, undefined]
  unfold openRun
  cases Plan.Reader.open fs a.testPlan with
  | error f => exact ⟨f, rfl⟩
  | ok r =>
    simp only [unmade]
    exact ⟨_, rfl⟩

/-- A plan that can be opened and a log base that can be expanded are all that a run needs besides
its configuration. -/
theorem exists_openRun {env : Environment} {config : Config} {s : String}
    {h : FileSystem.Handle} (opened : fs.openRead a.testPlan = .ok h)
    (defined : Expand.full env config.logBase = .ok s) :
    ∃ o, openRun env fs a config = .ok o := by
  simp only [openRun, Plan.Reader.open, opened, Context.make, Config.logBasePath, defined]
  exact ⟨_, rfl⟩

/-- A session that fails before its preparation. -/
structure Untouched (fs : FileSystem) (c : Conduct) : Prop where
  failed : ∃ f, c.exit = .error f
  files : c.files = fs
  launches : c.launches = []

theorem untouched_of_config (inForce : Locale) {f : Failure}
    (unresolved : Config.resolve fs a.config = .error f) :
    Untouched fs (conduct w inForce a fs) := by
  rw [conduct, unresolved]
  exact ⟨⟨f, rfl⟩, rfl, rfl⟩

theorem untouched_of_openRun (inForce : Locale)
    (shut : ∀ config, Config.resolve fs a.config = .ok config →
      ∃ f, openRun w.env fs a config = .error f) :
    Untouched fs (conduct w inForce a fs) := by
  cases resolved : Config.resolve fs a.config with
  | error f => exact untouched_of_config inForce resolved
  | ok config =>
    obtain ⟨f, unopened⟩ := shut config resolved
    simp only [conduct, resolved, unopened]
    exact ⟨⟨f, rfl⟩, rfl, rfl⟩

theorem Unbegun.answered_or_untouched (h : Unbegun w.env fs args code) :
    (parse args).code? = some code ∨
      code = 1 ∧ ∃ a, parse args = .run a ∧ ∀ inForce, Untouched fs (conduct w inForce a fs) := by
  cases h with
  | answered ends => exact .inl ends
  | configUnread understood taken unread =>
    refine .inr ⟨rfl, _, understood, fun inForce => ?_⟩
    have failed := (Config.resolve_eq_load taken).trans (Config.load_unread unread)
    exact untouched_of_config inForce failed
  | configUndecoded understood taken held undecoded =>
    refine .inr ⟨rfl, _, understood, fun inForce => ?_⟩
    have failed := (Config.resolve_eq_load taken).trans (Config.load_undecoded held undecoded)
    exact untouched_of_config inForce failed
  | planUnopened understood closed =>
    refine .inr ⟨rfl, _, understood, fun inForce => ?_⟩
    exact untouched_of_openRun inForce fun config _ => ⟨_, openRun_error_of_plan closed⟩
  | logBaseUndefined understood resolved undefined =>
    refine .inr ⟨rfl, _, understood, fun inForce => ?_⟩
    apply untouched_of_openRun inForce
    intro config resolved'
    obtain rfl := Except.ok.inj (resolved.symm.trans resolved')
    exact openRun_error_of_logBase undefined

variable (w : Surroundings) (m : Markup) (colored : Bool) (fs : FileSystem) (args : List Bytes)

theorem session_answered (ends : (parse args).code? = some code) :
    (session w m colored args fs).exit = code ∧ (session w m colored args fs).launches = [] ∧
      (session w m colored args fs).files = fs := by
  unfold session answer
  cases request : parse args with
  | run a =>
    rw [request] at ends
    cases ends
  | help | version | usage =>
    rw [request] at ends
    exact ⟨Option.some.inj ends, rfl, rfl⟩

theorem session_understood (understood : parse args = .run a) :
    ∃ inForce, (session w m colored args fs).files = (conduct w inForce a fs).files ∧
      (session w m colored args fs).launches = (conduct w inForce a fs).launches ∧
      ∀ f, (conduct w inForce a fs).exit = .error f → (session w m colored args fs).exit = 1 := by
  refine ⟨(answer w.env m colored args).locale, ?_⟩
  simp only [session, answer, understood]
  generalize conduct w _ a fs = c
  obtain ⟨exit, locale, notices, files, launches⟩ := c
  cases exit with
  | error f => exact ⟨rfl, rfl, fun _ _ => rfl⟩
  | ok k =>
    refine ⟨rfl, rfl, ?_⟩
    rintro _ ⟨⟩

/-- A session that is asked for its help or its version, or whose arguments, configuration, plan or
log base are no good, ends with its code, has started no child and leaves every file as it was, its
old logs and results among them. Any other session has its arguments, its configuration and its plan
before the preparation begins to change the files. -/
theorem session_untouched_if_unbegun :
    (∀ code, Unbegun w.env fs args code →
      (session w m colored args fs).exit = code ∧
        (session w m colored args fs).launches = [] ∧
        (session w m colored args fs).files = fs) ∧
    ((∀ code, ¬Unbegun w.env fs args code) →
      ∃ a config o inForce, parse args = .run a ∧ Config.resolve fs a.config = .ok config ∧
        openRun w.env fs a config = .ok o ∧
        (session w m colored args fs).files =
          (perform w (runLocale w.env inForce a config) (targetNotices a.target) config o
            fs).files ∧
        (session w m colored args fs).launches =
          (perform w (runLocale w.env inForce a config) (targetNotices a.target) config o
            fs).launches) := by
  constructor
  · intro code h
    rcases h.answered_or_untouched with ends | ⟨rfl, a, understood, untouched⟩
    · exact session_answered w m colored fs args ends
    · obtain ⟨inForce, files, launches, exit⟩ := session_understood w m colored fs args understood
      obtain ⟨⟨f, failed⟩, same, none⟩ := untouched inForce
      exact ⟨exit f failed, launches.trans none, files.trans same⟩
  · intro none
    cases request : parse args with
    | help => exact absurd (.answered (by rw [request]; rfl)) (none 0)
    | version => exact absurd (.answered (by rw [request]; rfl)) (none 0)
    | usage => exact absurd (.answered (by rw [request]; rfl)) (none 1)
    | run a =>
      rcases Config.resolve_cases fs a.config with
        ⟨config, resolved⟩ | ⟨p, taken, ⟨e, unread⟩ | ⟨text, held, undecoded⟩⟩
      · cases opened : fs.openRead a.testPlan with
        | error e => exact absurd (.planUnopened request opened) (none 1)
        | ok h =>
          cases defined : Expand.full w.env config.logBase with
          | error name => exact absurd (.logBaseUndefined request resolved defined) (none 1)
          | ok s =>
            obtain ⟨o, ready⟩ := exists_openRun opened defined
            obtain ⟨inForce, files, launches, _⟩ := session_understood w m colored fs args request
            refine ⟨a, config, o, inForce, rfl, resolved, ready, ?_, ?_⟩
            · rw [files]
              simp only [conduct, resolved, ready]
            · rw [launches]
              simp only [conduct, resolved, ready]
      · exact absurd (.configUnread request taken unread) (none 1)
      · exact absurd (.configUndecoded request taken held undecoded) (none 1)

namespace Stale

/-- Logs and results of an earlier run, and a standard configuration whose log base names a variable
that is not there. -/
def files : FileSystem :=
  let at' (names : List String) : Location := names.map Utf8.ofText
  ⟨[(at' ["logs"], .directory), (at' ["logs", "t"], .directory),
      (at' ["logs", "t", "001_a.log"], .file 0 false), (at' ["t_results.txt"], .file 1 false),
      (at' ["p"], .file 2 false), (at' ["RunPlan.toml"], .file 3 false),
      (at' ["e.toml"], .file 4 false)],
    [(0, Utf8.ofText "old\n"), (1, Utf8.ofText "old\n"), (2, Utf8.ofText "a,none,1,2,enabled\n"),
      (3, Utf8.ofText "log_base = \"$L\"\n"), (4, [])], 5, []⟩

def surroundings : Surroundings :=
  ⟨[], .alike fun fs _ _ _ => ⟨.error .notUtf8, "", fs, 0⟩, .never, 0, 9⟩

def words (args : List String) : List Bytes := ("run_plan" :: args).map Utf8.ofText

end Stale

/-- No arguments, help, a directory and a plan in place of a configuration, a plan that is not
there, and a log base that cannot be expanded. -/
theorem session_untouched_if_unbegun_of_stale (m : Markup) (colored : Bool) :
    ∀ t ∈ [([], 1), (["-h", "p"], 0), (["p", "t", "-clogs"], 1), (["-c", "p", "p", "t"], 1),
        (["--config=e.toml", "q", "t"], 1), (["p", "t"], 1)],
      let c := session Stale.surroundings m colored (Stale.words t.1) Stale.files
      c.exit = t.2 ∧ c.launches = [] ∧ c.files = Stale.files := by
  have untouched (args : List String) (code : Nat)
      (h : Unbegun Stale.surroundings.env Stale.files (Stale.words args) code) :=
    (session_untouched_if_unbegun Stale.surroundings m colored Stale.files
      (Stale.words args)).1 code h
  simp only [List.forall_mem_cons]
  refine ⟨untouched [] 1 (.answered (by cbv)), untouched ["-h", "p"] 0 (.answered (by cbv)),
    untouched _ 1 ?_, untouched _ 1 ?_, untouched _ 1 ?_, untouched _ 1 ?_, by simp⟩
  · exact .configUnread (a := ⟨Utf8.ofText "p", "t", some (Utf8.ofText "logs"), none⟩)
      (p := Utf8.ofText "logs") (e := .system .isDirectory) (by cbv) rfl (by cbv)
  · have held : Stale.files.readText (Utf8.ofText "p") = .ok "a,none,1,2,enabled\n" := by cbv
    exact .configUndecoded (a := ⟨Utf8.ofText "p", "t", some (Utf8.ofText "p"), none⟩)
      (by cbv) rfl held (by cbv)
  · exact .planUnopened (a := ⟨Utf8.ofText "q", "t", some (Utf8.ofText "e.toml"), none⟩)
      (e := .system .noEntry) (by cbv) (by cbv)
  · have resolved : Config.resolve Stale.files none =
        .ok { Config.standard with logBase := "$L" } := by cbv
    exact .logBaseUndefined (a := ⟨Utf8.ofText "p", "t", none, none⟩) (by cbv) resolved
      (show Expand.full [] "$L" = .error "L" by cbv)

end Cli
end TestBench
