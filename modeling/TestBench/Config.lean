import TestBench.Failure
import TestBench.FileSystem.Access
import TestBench.Time
import TestBench.Toml.Document
/-!
# Run configuration

The settings of a run, each with a default of its own, and how they are read from a TOML document.
Keys that name no setting are passed over.
-/
namespace TestBench

structure Runner where
  program : String
  args : List String
deriving DecidableEq, Repr

structure Config where
  language : Option String
  logBase : String
  settleSecs : Nat
  timeoutSecs : Option Nat
  runner : Runner
deriving DecidableEq, Repr

def Runner.standard : Runner := ⟨"python", ["run_test.py"]⟩

namespace Config

def standard : Config := ⟨none, "logs", 2, none, .standard⟩

/-- The configuration file that is taken when none is named. -/
def standardFile : Path := Path.ofText "RunPlan.toml"

def settleMillis (c : Config) : Nat := c.settleSecs * 1000

def timeoutMillis (c : Config) : Option Nat := c.timeoutSecs.map (· * 1000)

/-- The directory for logs, its variables and its tilde replaced. -/
def logBasePath (c : Config) (env : Environment) : Except Failure Path :=
  match Expand.full env c.logBase with
  | .error name => .error (.logBaseUndefined c.logBase name)
  | .ok s => .ok (Path.ofText s)

open Toml

def string? : Value → Option String
  | .string s => some s
  | _ => none

def strings? : Value → Option (List String)
  | .array vs => vs.mapM string?
  | _ => none

/-- A number of seconds, below `2 ^ 64`. -/
def seconds? : Value → Option Nat
  | .integer n => if 0 ≤ n && n < Nat.pow 2 64 then some n.toNat else none
  | _ => none

/-- The setting under a key: its default if the key is missing, nothing if it has another kind of
value. -/
def setting {α : Type} (read : Value → Option α) (default : α) (t : Table) (key : String) :
    Option α :=
  match t.lookup key with
  | none => some default
  | some v => read v

def runnerOfTable (t : Table) : Option Runner :=
  match setting string? Runner.standard.program t "program",
      setting strings? Runner.standard.args t "args" with
  | some program, some args => some ⟨program, args⟩
  | _, _ => none

/-- A runner may also be given by position: the program first, its arguments second. -/
def runnerOfItems : List Value → Option Runner
  | [] => some .standard
  | [p] => (string? p).map fun program => ⟨program, Runner.standard.args⟩
  | p :: a :: _ =>
    match string? p, strings? a with
    | some program, some args => some ⟨program, args⟩
    | _, _ => none

/-- A runner. A date stands for a table without any of a runner's keys. -/
def runner? : Value → Option Runner
  | .table _ t => runnerOfTable t
  | .array vs => runnerOfItems vs
  | .moment => some .standard
  | _ => none

def ofTable (t : Table) : Option Config :=
  match setting (fun v => (string? v).map some) none t "language",
      setting string? standard.logBase t "log_base",
      setting seconds? standard.settleSecs t "settle_secs",
      setting (fun v => (seconds? v).map some) none t "timeout_secs",
      setting runner? .standard t "runner" with
  | some language, some logBase, some settle, some timeout, some runner =>
    some ⟨language, logBase, settle, timeout, runner⟩
  | _, _, _, _, _ => none

def load (fs : FileSystem) (p : Path) : Except Failure Config :=
  match fs.readText p with
  | .error e => .error (.configUnreadable p e)
  | .ok s =>
    match (parse s).bind ofTable with
    | none => .error (.configInvalid p)
    | some c => .ok c

/-- A named file has to be there; without one the standard file is taken if it is there, and the
defaults otherwise. -/
def resolve (fs : FileSystem) : Option Path → Except Failure Config
  | some p => load fs p
  | none => if fs.isFile standardFile then load fs standardFile else .ok standard

end Config
end TestBench
