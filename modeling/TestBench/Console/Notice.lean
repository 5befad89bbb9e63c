import TestBench.Console.Catalog
import TestBench.Run.Context
import TestBench.Run.Outcome
import TestBench.Text.Style
/-!
# Notices

What a run tells its operator, and how each notice is written: the language, the colors, and whether
it goes to the output or to the error output.
-/
namespace TestBench.Console

inductive Notice where
  | header (plan : Path) (ctx : Context) (startedAt : Timestamp)
  | unknownTarget (target : String) (known : List String)
  | banner (number : Nat) (row : Plan.Row)
  | malformed (m : Plan.Malformed)
  | command (i : Invocation)
  | outcome (row : Plan.Row) (o : Outcome)
  | logFailed (chain : List String)
  | shutdown
  | summary (s : Summary) (finishedAt : Timestamp)
  | usage
deriving DecidableEq, Repr

structure Manner where
  locale : Locale
  colored : Bool
deriving DecidableEq, Repr

structure Printed where
  out : String
  err : String
deriving DecidableEq, Repr

namespace Printed

def empty : Printed := ⟨"", ""⟩

def append (a b : Printed) : Printed := ⟨a.out ++ b.out, a.err ++ b.err⟩

def toOut (s : String) : Printed := ⟨s, ""⟩

def toErr (s : String) : Printed := ⟨"", s⟩

end Printed

def programName : String := "run_plan"

namespace Manner

def plain (w : Manner) (m : Message) (values : List (String × String)) : String :=
  m.text w.locale values

def styled (w : Manner) (s : Style) (m : Message) (values : List (String × String)) : String :=
  s.paint w.colored (m.text w.locale values)

def header (w : Manner) (plan : Path) (ctx : Context) (startedAt : Timestamp) : String :=
  w.styled .cyan .loadingPlan [("path", plan.display)] ++ "\n"
    ++ w.styled .cyan .logDirectory [("path", ctx.logDir.display)] ++ "\n"
    ++ w.styled .cyan .resultsFile [("path", ctx.resultsPath.display)] ++ "\n"
    ++ w.styled .bold .startedAt [("time", startedAt.render)] ++ "\n"

def unknownTarget (w : Manner) (target : String) (known : List String) : String :=
  w.styled .yellow .unknownTarget
    [("target", target), ("targets", String.intercalate ", " known)] ++ "\n"

def banner (w : Manner) (number : Nat) (row : Plan.Row) : String :=
  "\n" ++ w.styled .bold .rowBanner [("number", Decimal.text number)] ++ "\n\n"
    ++ w.plain .rowLine [("name", row.testName), ("sub", row.subTestName), ("flag", row.flag)]
    ++ "\n"

def malformed (w : Manner) (m : Plan.Malformed) : String :=
  w.styled .red .malformedRow [("detail", m.message)] ++ "\n"

def command (w : Manner) (line : String) : String :=
  w.styled .blue .commandMark [] ++ " " ++ line ++ "\n"

def notExecuted (w : Manner) (name : String) : String :=
  w.styled .dimmed .notExecuted [("name", name)] ++ "\n"

def duration (w : Manner) (d : Duration) : String :=
  w.plain .testDuration [("duration", d.hms)] ++ "\n"

def exitWarning (w : Manner) (name : String) : Child.Exit → String
  | .exited s =>
    if s.success then ""
    else w.styled .yellow .exitedUncleanly [("name", name), ("status", s.text)] ++ "\n"
  | .timedOut limit =>
    w.styled .yellow .timedOut [("name", name), ("timeout", Decimal.text (limit / 1000))] ++ "\n"

def outcome (w : Manner) (row : Plan.Row) : Outcome → String
  | .executed exit d => w.exitWarning row.displayName exit ++ w.duration d
  | .spawnFailed e d =>
    w.styled .yellow .spawnFailed [("name", row.displayName), ("error", e)] ++ "\n" ++ w.duration d
  | .notExecuted => w.notExecuted row.displayName

def logFailed (w : Manner) (chain : List String) : String :=
  w.styled .yellow .logFailed [("error", String.intercalate ": " chain)] ++ "\n"

def shutdown (w : Manner) : String := "\n" ++ w.styled .yellow .shutdown [] ++ "\n"

def summary (w : Manner) (s : Summary) (finishedAt : Timestamp) : String :=
  "\n\n" ++ w.styled .bold .closingBanner [] ++ "\n"
    ++ w.plain .finishedAt [("time", finishedAt.render)] ++ "\n"
    ++ w.plain .counts [("rows", Decimal.text s.rows), ("executed", Decimal.text s.executed),
        ("not_executed", Decimal.text s.notExecuted), ("malformed", Decimal.text s.malformed)]
    ++ "\n"
    ++ (if 0 < s.runnerProblems then
        w.styled .yellow .runnerProblems [("count", Decimal.text s.runnerProblems)] ++ "\n" else "")
    ++ (if s.interrupted then w.styled .yellowBold .interrupted [] ++ "\n" else "")
    ++ w.styled .bold .totalDuration [("duration", s.duration.hms)] ++ "\n"

def usage (w : Manner) : String :=
  w.plain .usage [("program", programName)] ++ "\n\n"
    ++ w.plain .usageTargets [("targets", String.intercalate ", " knownTargets)] ++ "\n\n"

end Manner

def Notice.print (w : Manner) : Notice → Printed
  | .header plan ctx time => .toOut (w.header plan ctx time)
  | .unknownTarget target known => .toOut (w.unknownTarget target known)
  | .banner number row => .toOut (w.banner number row)
  | .malformed m => .toErr (w.malformed m)
  | .command i => .toOut (w.command i.line)
  | .outcome row o => .toOut (w.outcome row o)
  | .logFailed chain => .toErr (w.logFailed chain)
  | .shutdown => .toOut w.shutdown
  | .summary s time => .toOut (w.summary s time)
  | .usage => .toOut w.usage

def transcript (w : Manner) (ns : List Notice) : Printed :=
  ns.foldl (fun p n => p.append (n.print w)) .empty

end TestBench.Console
