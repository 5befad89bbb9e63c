import TestBench.Script.Trap
/-!
# Jobs

The children of a shell, in jobs of one or more stages, and the waiting for their ends.
-/
namespace TestBench.Script

open Process

namespace Job

def has (j : Job) (pid : Nat) : Bool := j.stages.any (·.pid = pid)

def noteEnd (j : Job) (pid : Nat) (status : Child.Status) : Job :=
  let stages := j.stages.map fun s => if s.pid = pid then { s with status := some status } else s
  let ended := stages.all (·.status.isSome)
  { j with stages := stages, ended := ended, changed := j.changed || ended }

/-- The status of a job as a number: that of its last stage. -/
def code (j : Job) : Int :=
  match j.stages.getLast?.bind (·.status) with
  | none => 0
  | some st =>
    match st.code?, st.signal? with
    | some c, _ => c
    | none, some n => n + 128
    | none, none => 0

def coreText (st : Child.Status) : String := if st.dumped then " (core dumped)" else ""

/-- The end of a process by a signal, unless nobody cares. -/
def obituary (st : Child.Status) : Option Chars :=
  match st.signal? with
  | none => none
  | some n =>
    if n = Signal.interrupt || n = Signal.pipe then none
    else some (str (Signal.describe n ++ coreText st))

def stateText (j : Job) : Chars :=
  if !j.ended then str "Running"
  else match j.stages.getLast?.bind (·.status) with
    | none => str "Done"
    | some st =>
      match st.code?, st.signal? with
      | some 0, _ => str "Done"
      | some c, _ => str "Done(" ++ Decimal.render c ++ [')']
      | none, some n => str (Signal.describe n ++ coreText st)
      | none, none => str "Done"

end Job

namespace Run

def job? (number : Nat) : Run (Option Job) := return (← get).jobs.find? (·.number = number)

def putJob (j : Job) : Run Unit :=
  modify fun s => { s with jobs := s.jobs.map fun k => if k.number = j.number then j else k }

def dropJob (number : Nat) : Run Unit :=
  modify fun s => { s with jobs := s.jobs.filter (·.number != number) }

/-- Starts a job without stages. It takes the first number that is free, or that of a job whose end
has been waited for. -/
def newJob : Run Nat := do
  let jobs := (← get).jobs
  let isFree := fun (n : Nat) =>
    match jobs.find? (·.number = n) with
    | none => true
    | some j => j.ended && j.waited
  let number := (((List.range (jobs.length + 1)).map (· + 1)).find? isFree).getD 1
  dropJob number
  modify fun s => { s with jobs := ⟨number, [], false, false, false⟩ :: s.jobs }
  pure number

def addStage (number pid : Nat) : Run Unit :=
  modify fun s =>
    { s with jobs := s.jobs.map fun j =>
        if j.number = number then { j with stages := j.stages ++ [⟨pid, none⟩] } else j }

/-- Notes the end of a child; answers with the number of its job. -/
def noteEnd (pid : Nat) (status : Child.Status) : Run (Option Nat) := do
  match (← get).jobs.find? fun j => !j.ended && j.has pid with
  | none => pure none
  | some j =>
    putJob (j.noteEnd pid status)
    pure (some j.number)

def noteWaited (waited : Option Nat) (pid : Nat) (status : Child.Status) : Run Unit := do
  let number ← noteEnd pid status
  if number.isSome && number = waited then
    match Job.obituary status with
    | some text => remark (text ++ ['\n'])
    | none => pure ()

def collect (waited : Option Nat) : Nat → Run Unit
  | 0 => pure ()
  | n + 1 => do
    match ← call (.await none .none) with
    | .ended pid status =>
      noteWaited waited pid status
      collect waited n
    | _ => pure ()

def collectAll : Run Unit := do
  if !(← get).jobs.isEmpty then collect none stepBound

/-- Waits until a job has ended, whatever signals arrive. -/
def awaitJob (number : Nat) : Nat → Run Unit
  | 0 => pure ()
  | n + 1 => do
    match ← job? number with
    | none => pure ()
    | some j =>
      if j.ended then pure ()
      else match ← call (.await none .untilEnd) with
        | .ended pid status =>
          noteWaited (some number) pid status
          awaitJob number n
        | _ => pure ()

def finishJob (number : Nat) : Run Int := do
  awaitJob number stepBound
  match ← job? number with
  | none => pure 0
  | some j =>
    collect (some number) stepBound
    if j.ended then dropJob number
    pure j.code

/-- Waits for the end of some child, at most until a signal arrives. Answers whether one did. -/
def awaitAny (waited : Option Nat) : Run Bool := do
  match ← call (.await none .untilSignal) with
  | .ended pid status =>
    noteWaited waited pid status
    pure false
  | .interrupted => pure true
  | _ => pure false

/-- A job by its number after a percent sign, or the one of most interest. Without a terminal no job
can be moved to the front. -/
def jobNamed (name : Option Chars) (toMove : Bool) : Run Job := do
  let jobs := (← get).jobs
  let found : Except Chars Job := match name with
    | none | some ['%'] | some ['%', '%'] | some ['%', '+'] =>
      (jobs.head?.map .ok).getD (.error (str "No current job"))
    | some ['%', '-'] => ((jobs.drop 1).head?.map .ok).getD (.error (str "No previous job"))
    | some cs =>
      let number := match cs with
        | '%' :: ds => if ds.all Char.isDigit then some (Text.valueIn 10 ds) else none
        | _ => none
      match number.bind fun n => jobs.find? (·.number = n) with
      | some j => .ok j
      | none => .error (str "No such job: " ++ cs)
  match found with
  | .error m => fail m
  | .ok j =>
    if toMove then
      fail (str "job " ++ name.getD (str "(null)") ++ str " not created under job control")
    else pure j

end Run
end TestBench.Script
