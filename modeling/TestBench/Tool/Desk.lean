import TestBench.Process.Program
import TestBench.Tool.Quote
/-!
# The desk of a tool

What a small program has at hand: its name, the output that it has not handed over yet, the input
that it has read ahead, and the code it will end with. Output is handed over in blocks, and before
any message.
-/
namespace TestBench.Tool

open Process

/-- `failed` tells that output could not be handed over, `mute` that a message could not. -/
structure Desk where
  name : Chars
  failure : Nat
  held : Bytes
  failed : Bool
  mute : Bool
  ahead : Bytes
  broken : Bool
  code : Nat

abbrev Job := StateT Desk Act

/-- More steps than any tool takes. -/
def stepBound : Nat := 1000000000

def call (c : Call) : Job c.Answer := StateT.lift (Act.call c)

def writeAll (fd : Nat) : Nat → Bytes → Job (Option Errno)
  | 0, _ => pure none
  | n + 1, bs => do
    if bs.isEmpty then pure none
    else match ← call (.write fd bs) with
      | .error e => pure (some e)
      | .ok k => writeAll fd n (bs.drop k)

def blockSize : Nat := 4096

/-- Hands bytes over; answers with what went wrong. -/
def handOver (bs : Bytes) : Job (Option Errno) := do
  let problem ← writeAll 1 stepBound bs
  if problem.isSome then modify fun d => { d with failed := true }
  pure problem

def flush : Job (Option Errno) := do
  let held := (← get).held
  modify fun d => { d with held := [] }
  handOver held

/-- Adds to the output. Whole blocks are handed over. -/
def putBytes (bs : Bytes) : Job (Option Errno) := do
  let all := (← get).held ++ bs
  if all.length ≤ blockSize then
    modify fun d => { d with held := all }
    pure none
  else
    let full := all.length / blockSize * blockSize
    modify fun d => { d with held := all.drop full }
    handOver (all.take full)

def put (cs : Chars) : Job Unit := do
  let _ ← putBytes (Chars.toBytes cs)

def remark (cs : Chars) : Job Unit := do
  if (← writeAll 2 stepBound (Chars.toBytes cs)).isSome then
    modify fun d => { d with mute := true }

def warn (parts : List Chars) : Job Unit := do
  let _ ← flush
  remark ((← get).name ++ str ": " ++ parts.flatten ++ ['\n'])

def fail : Job Unit := modify fun d => { d with code := 1 }

def complain (parts : List Chars) : Job Unit := do
  warn parts
  fail

def reason (e : Errno) : Chars := str ": " ++ str e.describe

/-- Ends the tool. Output that cannot be handed over is a failure, and so is a message. -/
def finish {α : Type} (code : Nat) : Job α := do
  let problem ← flush
  let problem := match problem, ← call (.describe 1) with
    | none, .error e => some e
    | problem, _ => problem
  let d ← get
  if d.failed then remark (d.name ++ str ": write error" ++ (problem.map reason).getD [] ++ ['\n'])
  let d ← get
  StateT.lift (Act.exit (if d.failed || d.mute then d.failure else code))

def die {α : Type} (parts : List Chars) : Job α := do
  warn parts
  finish (← get).failure

/-- Ends a tool whose output has failed; what is left of it is dropped. -/
def dieOfOutput {α : Type} (parts : List Chars) : Job α := do
  modify fun d => { d with held := [], failed := false }
  die parts

def hint : Job Unit := do
  let name := (← get).name
  remark (str "Try '" ++ name ++ str " --help' for more information.\n")

def misuse {α : Type} (parts : List Chars) : Job α := do
  warn parts
  hint
  finish (← get).failure

/-- A tool under the name it is called by, with the code that stands for failure. -/
def run (name : Chars) (failure : Nat) (job : Job Unit) : Act Nat := do
  let ended := job >>= fun _ => do
    let d ← get
    finish (α := Nat) d.code
  Prod.fst <$> ended.run ⟨name, failure, [], false, false, [], false, 0⟩

/-- A line of the input, which is read in blocks; an unended one at its end. -/
def inputLine : Nat → Bytes → Job Bytes
  | 0, line => pure line.reverse
  | n + 1, line => do
    match (← get).ahead with
    | b :: rest =>
      modify fun d => { d with ahead := rest }
      if b = 10 then pure line.reverse else inputLine n (b :: line)
    | [] =>
      match ← call (.read 0 blockSize) with
      | .ok [] => pure line.reverse
      | .ok bs =>
        modify fun d => { d with ahead := bs }
        inputLine n line
      | .error _ =>
        modify fun d => { d with broken := true }
        pure line.reverse

/-- Gives back what has been read ahead and closes the input; whether it could be read is told only
now. -/
def closeInput : Job Unit := do
  let d ← get
  if !d.ahead.isEmpty then
    let _ ← call (.seek 0 (-(d.ahead.length : Int)))
  let closed ← call (.close 0)
  if d.broken then
    complain (str "error closing file" :: match closed with
      | .ok _ => []
      | .error e => [reason e])

def readAll (fd size : Nat) : Nat → List Bytes → Job (Except Errno Bytes)
  | 0, parts => pure (.ok parts.reverse.flatten)
  | n + 1, parts => do
    match ← call (.read fd size) with
    | .error e => pure (.error e)
    | .ok bs =>
      if bs.isEmpty then pure (.ok parts.reverse.flatten) else readAll fd size n (bs :: parts)

end TestBench.Tool
