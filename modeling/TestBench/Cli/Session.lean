import TestBench.Cli.Help
import TestBench.Run.Loop
/-!
# A session

From an argument list to a finished run: settings, preparation, the plan loop and the summary. What
fails before the preparation leaves the files as they were.
-/
namespace TestBench.Cli

/-- What surrounds a session: how children behave, when the operator interrupts, the time of its
start in seconds, and how many items of a plan it takes at most. -/
structure Surroundings where
  env : Environment
  children : Child.Children
  stop : StopRequest
  now : Nat
  bound : Nat

structure Session where
  exit : Nat
  locale : Locale
  printed : Console.Printed
  files : FileSystem
  launches : List Run.Launch

def interruptedCode : Nat := 130

structure Conduct where
  exit : Except Failure Nat
  locale : Locale
  notices : List Console.Notice
  files : FileSystem
  launches : List Run.Launch

/-- The language of a run: that of the command line, else that of the configuration, else the one
in force. -/
def runLocale (env : Environment) (inForce : Locale) (args : Arguments) (config : Config) : Locale :=
  match args.language, config.language with
  | none, some language => Locale.resolve env (some language)
  | _, _ => inForce

def targetNotices (target : String) : List Console.Notice :=
  if isKnownTarget target then [] else [.unknownTarget target knownTargets]

/-- What a run needs before it changes any file. -/
structure Opened where
  reader : Plan.Reader
  context : Context

def openRun (env : Environment) (fs : FileSystem) (args : Arguments) (config : Config) :
    Except Failure Opened :=
  match Plan.Reader.open fs args.testPlan with
  | .error f => .error f
  | .ok r =>
    match Context.make config env args.target with
    | .error f => .error f
    | .ok c => .ok ⟨r, c⟩

def Surroundings.setup (w : Surroundings) (config : Config) (o : Opened) : Run.Setup :=
  ⟨w.env, config, o.context, w.children, w.stop⟩

def exitCode (s : Summary) : Nat := if s.interrupted then interruptedCode else 0

def perform (w : Surroundings) (l : Locale) (told : List Console.Notice) (config : Config)
    (o : Opened) (fs : FileSystem) : Conduct :=
  match Records.prepare fs o.context with
  | (some f, left) => ⟨.error f, l, told, left, []⟩
  | (none, ready) =>
    let header := .header o.reader.path o.context (Timestamp.ofUnix w.now)
    match Run.plan (w.setup config o) w.bound o.reader (.start ready) with
    | .completed p =>
      ⟨.ok (exitCode p.summary), l,
        told ++ [header] ++ p.notices
          ++ [.summary p.summary (Timestamp.ofUnix (w.now + p.clock / 1000))], p.files,
        p.launches⟩
    | .failed f p => ⟨.error f, l, told ++ [header] ++ p.notices, p.files, p.launches⟩
    | .unfinished p => ⟨.ok 0, l, told ++ [header] ++ p.notices, p.files, p.launches⟩

def conduct (w : Surroundings) (inForce : Locale) (args : Arguments) (fs : FileSystem) : Conduct :=
  match Config.resolve fs args.config with
  | .error f => ⟨.error f, inForce, [], fs, []⟩
  | .ok config =>
    let l := runLocale w.env inForce args config
    let told := targetNotices args.target
    match openRun w.env fs args config with
    | .error f => ⟨.error f, l, told, fs, []⟩
    | .ok o => perform w l told config o fs

/-- A whole session. A failure is reported on the error output and ends with code one. -/
def session (w : Surroundings) (m : Markup) (colored : Bool) (args : List Bytes)
    (fs : FileSystem) : Session :=
  let a := answer w.env m colored args
  match a.result with
  | .error code => ⟨code, a.locale, a.printed, fs, []⟩
  | .ok arguments =>
    let c := conduct w a.locale arguments fs
    let printed := Console.transcript ⟨c.locale, colored⟩ c.notices
    match c.exit with
    | .ok code => ⟨code, c.locale, printed, c.files, c.launches⟩
    | .error f =>
      ⟨1, c.locale, printed.append (.toErr ("Error: " ++ f.message ++ "\n")), c.files, c.launches⟩

end TestBench.Cli
