import TestBench.Script.Job
import TestBench.Script.Line
/-!
# What runs commands

The parts of a shell that need commands to be run without knowing how: scripts in a text, traps, the
end of a shell, and its children.
-/
namespace TestBench.Script

open Process

/-- Whether a command is the last of its shell, and whether its status is being tested. -/
structure Flags where
  last : Bool
  tested : Bool
deriving DecidableEq, Repr

def Flags.none : Flags := ⟨false, false⟩
def Flags.forTest : Flags := ⟨false, true⟩

structure Engine where
  evaluate : Flags → Command → Run Int

namespace Engine

/-- Notes what reading a line leaves. The line that has been reached is the first of those of all
texts that are being read. -/
def noteReading (r : ReadLine) : Run Unit :=
  modify fun s => { s with documents := r.documents, fresh := r.fresh, reading := r.line :: s.reading.drop 1 }

def syntaxFault {α : Type} (line : Nat) (message : Chars) : Run α := do
  modify fun s => { s with line := line }
  Run.fail message

def runText (e : Engine) (flags : Flags) : Nat → Chars → Nat → Int → Run Int
  | 0, _, _, status => pure status
  | n + 1, text, line, status => do
    let s ← get
    match readLine text line true s.aliases s.documents s.fresh with
    | .error (.wrong l _ message) => syntaxFault l message
    | .error .more => pure status
    | .ok r =>
      noteReading r
      match r.command with
      | none => pure status
      | some command =>
        let status ← match command with
          | some c => e.evaluate { flags with last := flags.last && r.atEnd } c
          | none => pure status
        if (← get).skip != .nothing then pure status
        else runText e flags n r.rest r.line status

def run (e : Engine) (flags : Flags) (text : Chars) : Run Int := do
  let outer := (← get).reading
  modify fun s => { s with reading := 1 :: outer }
  let status ← runText e flags stepBound text 1 0
  modify fun s => { s with reading := outer }
  pure status

/-- Does what is to be done for signals that have arrived. Each of them leaves the status as it
was, unless a function has been left. -/
def heedEach (e : Engine) (status : Int) : List Nat → Run Unit
  | [] => pure ()
  | n :: ns => do
    if (← get).skip = .nothing then
      modify fun s => { s with pending := s.pending.filter (· != n) }
      match ← Run.trap? n with
      | none => pure ()
      | some action =>
        let _ ← e.run .none action
        if (← get).skip != .back then Run.setStatus status
      heedEach e status ns

def heed (e : Engine) : Run Unit := do
  if ← Run.hasTraps then
    let _ ← Run.arrivals
  let s ← get
  if !s.pending.isEmpty then
    let status := s.atTrap.getD s.status
    set { s with atTrap := some status }
    heedEach e status (s.pending.mergeSort (· ≤ ·))
    modify fun t => { t with atTrap := s.atTrap }

def closeFrames : Run Unit := do
  (← get).kept.forM fun _ => Run.closeFrame

def settleStatus (cause : Stop) : Run Unit := do
  closeFrames
  modify fun s =>
    { s with
      status := match s.atTrap with
        | some n => if cause = .exit || s.skip = .plainBack then n else s.status
        | none => s.status
      atTrap := none
      skip := .nothing
      loops := 0 }

/-- Ends a shell after the cause for it: its last trap is run. Answers with the exit code. -/
def finish (e : Engine) (cause : Except Stop Unit) : Run Nat := do
  let causeOf := fun (c : Except Stop Unit) (otherwise : Stop) =>
    match c with
    | .error s => s
    | .ok _ => otherwise
  let cause := causeOf cause .done
  settleStatus cause
  modify fun s => { s with atTrap := some s.status }
  let cause ← match ← Run.trap? 0 with
    | none => pure cause
    | some action =>
      modify fun s => { s with traps := s.traps.filter (·.1 != 0) }
      let ended ← Run.attempt do
        let _ ← e.run .none action
      if ended matches .ok _ then modify fun s => { s with skip := .plainBack }
      pure (causeOf ended cause)
  settleStatus cause
  Run.flush
  pure ((← get).status % 256).toNat

/-- What a shell does first when it has been divided off another. -/
def enterChild : Run Unit := do
  Run.clearTraps
  modify fun s =>
    { s with isRoot := false, jobs := [], pending := [], reading := s.reading.getLast?.toList }
  if (← get).options.contains "interactive" then
    Run.arrange Signal.quit
    Run.arrange Signal.terminate

def emptyInput : Run Unit := do
  let _ ← Run.call (.close 0)
  let _ ← Run.call (.openPath (Path.ofText "/dev/null") .reading)

inductive Place where
  | front
  | back (first : Bool)
deriving DecidableEq, Repr

def fork (e : Engine) (job : Option Nat) (place : Place) (body : Run Unit) : Run Nat := do
  let s ← get
  let child : Run Nat := do
    enterChild
    match place with
    | .front => pure ()
    | .back first =>
      Run.ignoreForEver Signal.interrupt
      Run.ignoreForEver Signal.quit
      if first then emptyInput
    let ended ← Run.attempt body
    e.finish ended
  let act : Act Nat := do
    let (code, _) ← child.run s
    pure (match code with
      | .ok n => n
      | .error _ => 2)
  let pid ← ExceptT.lift (StateT.lift (Act.fork act))
  match job with
  | some j => Run.addStage j pid
  | none => pure ()
  if place != .front then modify fun s => { s with background := some pid }
  pure pid

end Engine
end TestBench.Script
