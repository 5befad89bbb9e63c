import TestBench.Child.Launch
import TestBench.Console.Notice
import TestBench.Plan.Reader
import TestBench.Run.Records
/-!
# The plan loop

The rows of a plan are taken one after the other: an enabled row launches the runner and waits for
it, a disabled row is recorded as not executed, a malformed line is reported and counted. A request
to stop counts before each item and during the pause after an executed row, and never while a
runner is at work.
-/
namespace TestBench

/-- A moment of a run: how many items have been taken from the plan, the milliseconds since the
start, and the files. -/
structure Moment where
  taken : Nat
  clock : Nat
  files : FileSystem

/-- A request to stop: by which moments it has been made, how much of a pause passes before it is
made, and whether the operator is told. -/
structure StopRequest where
  made : Moment → Bool
  pause : Moment → Nat → Nat
  announced : Bool

namespace StopRequest

def never : StopRequest := ⟨fun _ => false, fun _ d => d, false⟩

def atOnce : StopRequest := ⟨fun _ => true, fun _ _ => 0, false⟩

def atItem (k : Nat) : StopRequest := ⟨fun m => k < m.taken, fun _ d => d, false⟩

def after (ms : Nat) : StopRequest :=
  ⟨fun m => ms ≤ m.clock, fun m d => min d (ms - m.clock), false⟩

/-- Made by an interrupt that comes as soon as a file is there. -/
def whenFile (p : Path) : StopRequest :=
  ⟨fun m => m.files.pathExists p, fun _ d => d, true⟩

end StopRequest

namespace Run

/-- What stays the same during a run. -/
structure Setup where
  env : Environment
  config : Config
  context : Context
  children : Child.Children
  stop : StopRequest

/-- A child that was started: the number of its row, its command, the files it found, and what came
of it. -/
structure Launch where
  number : Nat
  invocation : Invocation
  found : FileSystem
  report : Child.Report

def Setup.launch (s : Setup) (number : Nat) (i : Invocation) (files : FileSystem) : Launch :=
  ⟨number, i, files, s.children.ofRow number files i.program i.args s.config.timeoutMillis⟩

/-- What a launch is to its row, however the child ends. -/
def Launch.outcome (l : Launch) : Outcome :=
  let d := Duration.ofMillis l.report.elapsed
  match l.report.result with
  | .ok exit => .executed exit d
  | .error e => .spawnFailed (l.invocation.program ++ ": " ++ e.message) d

structure Progress where
  files : FileSystem
  clock : Nat
  taken : Nat
  stopped : Bool
  summary : Summary
  notices : List Console.Notice
  launches : List Launch

namespace Progress

def start (files : FileSystem) : Progress := ⟨files, 0, 0, false, .zero, [], []⟩

def tell (p : Progress) (n : Console.Notice) : Progress := { p with notices := p.notices ++ [n] }

def after (p : Progress) (l : Launch) : Progress :=
  { p with files := l.report.files, clock := p.clock + l.report.elapsed, launches := p.launches ++ [l] }

def moment (p : Progress) : Moment := ⟨p.taken, p.clock, p.files⟩

/-- Looks whether the request to stop has been made by now. -/
def poll (p : Progress) (r : StopRequest) : Progress :=
  if p.stopped then p
  else if r.made p.moment then
    let q := { p with stopped := true }
    if r.announced then q.tell .shutdown else q
  else p

/-- At the head of the loop: an item has been taken from the plan, and a look is taken at the
request before anything is done about it. -/
def pull (p : Progress) (r : StopRequest) : Progress := { p with taken := p.taken + 1 }.poll r

def interrupt (p : Progress) : Progress := { p with summary := { p.summary with interrupted := true } }

def announce (p : Progress) (row : Plan.Row) : Progress :=
  let number := p.summary.rows + 1
  { p with summary := { p.summary with rows := number } }.tell (.banner number row)

def conclude (p : Progress) (row : Plan.Row) (o : Outcome) : Progress :=
  { p.tell (.outcome row o) with summary := p.summary.record o }

end Progress

/-- Where an item leaves the run. -/
inductive Turn where
  | onward (p : Progress)
  | interrupted (p : Progress)
  | failed (f : Failure) (p : Progress)

/-- Keeps the output of a child in the log of its row. A log that cannot be written is reported. -/
def keepLog (s : Setup) (number : Nat) (row : Plan.Row) (output : String) (p : Progress) :
    Progress :=
  let w := Records.writeLog p.files (Records.logPath s.context.logDir number row.displayName) output
  let p := { p with files := w.2 }
  match w.1 with
  | some f => p.tell (.logFailed f.chain)
  | none => p

def runEnabled (s : Setup) (number : Nat) (row : Plan.Row) (p : Progress) :
    Except Failure Outcome × Progress :=
  match Invocation.make s.config.runner s.env row s.context with
  | .error f => (.error f, p)
  | .ok i =>
    let l := s.launch number i p.files
    let p := ((p.tell (.command i)).after l).poll s.stop
    (.ok l.outcome, keepLog s number row l.report.output p)

def recordDisabled (s : Setup) (row : Plan.Row) (p : Progress) : Except Failure Outcome × Progress :=
  let t := Records.appendNotExecuted p.files s.context.resultsPath row.displayName
  let p := { p with files := t.2 }
  match t.1 with
  | some f => (.error f, p)
  | none => (.ok .notExecuted, p)

/-- The pause after an executed row, cut short by a request to stop. -/
def settle (s : Setup) (p : Progress) : Progress :=
  if p.stopped then p
  else { p with clock := p.clock + s.stop.pause p.moment s.config.settleMillis }.poll s.stop

def takeRow (s : Setup) (row : Plan.Row) (p : Progress) : Turn :=
  let p := p.announce row
  match if row.isEnabled then runEnabled s p.summary.rows row p else recordDisabled s row p with
  | (.error f, p) => .failed f p
  | (.ok o, p) =>
    let p := p.conclude row o
    .onward (if o = .notExecuted then p else settle s p)

def process (s : Setup) (item : Plan.Item) (p : Progress) : Turn :=
  match item with
  | .error f => .failed f p
  | .ok (.malformed m) =>
    .onward { p.tell (.malformed m) with
      summary := { p.summary with malformed := p.summary.malformed + 1 } }
  | .ok (.row row) => takeRow s row p

def takeItem (s : Setup) (item : Plan.Item) (p : Progress) : Turn :=
  let p := p.pull s.stop
  if p.stopped then .interrupted p.interrupt else process s item p

/-- How a run ends. A bound on the number of items may end it before its plan does. -/
inductive Finish where
  | completed (p : Progress)
  | failed (f : Failure) (p : Progress)
  | unfinished (p : Progress)

def Progress.close (p : Progress) : Progress :=
  { p with summary := { p.summary with duration := .ofMillis p.clock } }

def items (s : Setup) : List Plan.Item → Progress → Finish
  | [], p => .completed p.close
  | item :: rest, p =>
    match takeItem s item p with
    | .onward p => items s rest p
    | .interrupted p => .completed p.close
    | .failed f p => .failed f p

/-- Runs the items of a plan file, which is read while the run goes on. -/
def plan (s : Setup) : Nat → Plan.Reader → Progress → Finish
  | 0, _, p => .unfinished p
  | n + 1, r, p =>
    match r.next p.files with
    | (none, _) => .completed p.close
    | (some item, r) =>
      match takeItem s item p with
      | .onward p => plan s n r p
      | .interrupted p => .completed p.close
      | .failed f p => .failed f p

end Run
end TestBench
