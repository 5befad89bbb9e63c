import TestBench.Config
import TestBench.Plan.Line
import TestBench.Text.Words
/-!
# The context of a run

The target of a run, where its logs go and where its results are kept, and the command that each
enabled row of the plan stands for.
-/
namespace TestBench

/-- The targets that the bench is known to support; others are accepted with a warning. -/
def knownTargets : List String := ["p4080ds", "p3041ds", "p5020ds", "p4080ds_hw"]

def isKnownTarget (target : String) : Bool := knownTargets.contains target

structure Context where
  target : String
  logDir : Path
  resultsPath : Path
deriving DecidableEq, Repr

namespace Context

def resultsFileName (target : String) : String := target ++ "_results.txt"

/-- The log directory of a target lies in the base directory; the results file lies in the working
directory. -/
def make (config : Config) (env : Environment) (target : String) : Except Failure Context :=
  match config.logBasePath env with
  | .error f => .error f
  | .ok base => .ok ⟨target, Path.join base (.ofText target), .ofText (resultsFileName target)⟩

end Context

def rowArguments (row : Plan.Row) (ctx : Context) : List String :=
  [row.testName, row.subTestName, row.paramA, row.paramB, ctx.target, ctx.resultsPath.display]

structure Invocation where
  program : String
  args : List String
deriving DecidableEq, Repr

namespace Invocation

/-- The program with its variables replaced, and the runner's arguments before those of the row. -/
def make (runner : Runner) (env : Environment) (row : Plan.Row) (ctx : Context) :
    Except Failure Invocation :=
  match Expand.full env runner.program with
  | .error name => .error (.programUndefined runner.program name)
  | .ok program => .ok ⟨program, runner.args ++ rowArguments row ctx⟩

/-- A command cannot hold a NUL. It keeps a mark in place of a word with one, and does not start. -/
def heldWord (w : String) : String :=
  if w.toList.contains '\x00' then "<string-with-nul>" else w

def argv (i : Invocation) : List String := (i.program :: i.args).map heldWord

def line (i : Invocation) : String := Words.commandLine i.program i.args

end Invocation
end TestBench
