import TestBench.Process.Program
import TestBench.Script.Syntax
import TestBench.Text.Decimal
/-!
# The state of a shell

What a shell knows while it runs a script, how it stops, and how it writes its output and its
messages.
-/
namespace TestBench.Script

open Process

/-- Why a shell stops: it was asked to, its last command is done, or something went wrong. -/
inductive Stop where
  | exit
  | done
  | error
deriving DecidableEq, Repr

/-- Commands that are passed over: up to the end of loops, of a turn of a loop, or of a function. -/
inductive Skip where
  | nothing
  | leave
  | again
  | back
  | plainBack
deriving DecidableEq, Repr

structure Variable where
  name : Chars
  value : Option Chars
  exported : Bool
  readOnly : Bool
  fixed : Bool
deriving DecidableEq, Repr

/-- What is put back when a function ends: a variable as it was, or the options. -/
inductive Kept where
  | variable (name : Chars) (before : Option Variable)
  | options (on : List String)

structure Stage where
  pid : Nat
  status : Option Child.Status
deriving DecidableEq, Repr

structure Job where
  number : Nat
  stages : List Stage
  ended : Bool
  changed : Bool
  waited : Bool
deriving DecidableEq, Repr

/-- What a descriptor was before a redirection: closed, open with a copy kept, or as it is. -/
inductive Former where
  | closed
  | copied (kept : Nat)
  | same
deriving DecidableEq, Repr

/-- What the shell has arranged for a signal; one that was ignored from the start stays so. -/
inductive Arranged where
  | standard
  | caught
  | ignored
  | ignoredForEver
deriving DecidableEq, Repr

namespace Table

/-- The row of a table in which a name is kept. -/
def row (rows : Nat) (name : Chars) : Nat :=
  ((name.head?.map fun c => c.toNat * 16).getD 0 + name.foldl (fun n c => n + c.toNat) 0) % rows

def ordered {α : Type} (rows : Nat) (key : α → Chars) (all : List α) : List α :=
  all.mergeSort fun a b => row rows (key a) ≤ row rows (key b)

end Table

structure Shell where
  name : Chars
  pid : Nat
  isRoot : Bool
  line : Nat
  reading : List Nat
  running : Option Chars
  bindings : List Variable
  kept : List (List Kept)
  parameters : List Chars
  optionIndex : Nat
  optionOffset : Option Nat
  options : List String
  functions : List (Chars × Command)
  depth : Nat
  aliases : List (Chars × Chars)
  found : List (Chars × Nat)
  traps : List (Nat × Chars)
  arranged : List (Nat × Arranged)
  pending : List Nat
  status : Int
  atTrap : Option Int
  substituted : Int
  background : Option Nat
  skip : Skip
  skipped : Nat
  loops : Nat
  jobs : List Job
  documents : List (Nat × Word)
  fresh : Nat
  inDirectory : Chars
  mask : Nat
  opening : List (Nat × Former)
  held : List Chars
  heldSize : Nat
  broken : Bool
  errors : Nat
  tracing : Bool

abbrev Run := ExceptT Stop (StateT Shell Act)

/-- More steps than any script takes. -/
def stepBound : Nat := 1000000000

namespace Run

def call (c : Call) : Run c.Answer := ExceptT.lift (StateT.lift (Act.call c))

def exitNow {α : Type} (code : Nat) : Run α := ExceptT.lift (StateT.lift (Act.exit code))

/-- What comes of a part of a script, also if it stops. -/
def attempt {α : Type} (r : Run α) : Run (Except Stop α) :=
  ExceptT.mk do
    let e ← r.run
    pure (.ok e)

def settle {α : Type} : Except Stop α → Run α
  | .ok a => pure a
  | .error s => throw s

/-- Does something after a part of a script in any case. -/
def ensuring {α : Type} (r : Run α) (after : Run Unit) : Run α := do
  let e ← attempt r
  after
  settle e

def writeAll (fd : Nat) : Nat → Bytes → Run Bool
  | 0, _ => pure true
  | n + 1, bs => do
    if bs.isEmpty then pure true
    else match ← call (.write fd bs) with
      | .error .interrupted => writeAll fd n bs
      | .error _ => pure false
      | .ok k => writeAll fd n (bs.drop k)

def flush : Run Unit := do
  let held := (← get).held
  if !held.isEmpty then
    modify fun s => { s with held := [], heldSize := 0 }
    if !(← writeAll 1 stepBound (Chars.toBytes held.reverse.flatten)) then modify fun s => { s with broken := true }

def outputSize : Nat := 8192

def put (cs : Chars) : Run Unit := do
  modify fun s => { s with held := cs :: s.held, heldSize := s.heldSize + cs.length }
  if outputSize ≤ (← get).heldSize then flush

def remark (cs : Chars) : Run Unit := do
  let _ ← writeAll 2 stepBound (Chars.toBytes cs)

/-- A message, after the name of the shell, the line and the command. -/
def warn (message : Chars) : Run Unit := do
  let s ← get
  let place := s.name ++ str ": " ++ Decimal.render s.line ++ str ": "
  let command := match s.running with
    | some c => c ++ str ": "
    | none => []
  remark (place ++ command ++ message ++ ['\n'])

def setStatus (n : Int) : Run Unit := modify fun s => { s with status := n }

def fail {α : Type} (message : Chars) : Run α := do
  setStatus 2
  warn message
  flush
  throw .error

def failText {α : Type} (message : String) : Run α := fail (str message)

def has (option : String) : Run Bool := return (← get).options.contains option

def readInteger (cs : Chars) : Option Int :=
  let body := cs.dropWhile Text.isBlankByte
  let (negative, digits) := match body with
    | '-' :: r => (true, r)
    | '+' :: r => (false, r)
    | r => (false, r)
  let ds := digits.takeWhile Char.isDigit
  let n := Text.valueIn 10 ds
  let fits := if negative then n ≤ Nat.pow 2 63 else n < Nat.pow 2 63
  if ds.isEmpty || !fits || !((digits.drop ds.length).all Text.isBlankByte) then none
  else some (if negative then -(n : Int) else n)

def badNumber {α : Type} (cs : Chars) : Run α := fail (str "Illegal number: " ++ cs)

def integer (cs : Chars) : Run Int :=
  match readInteger cs with
  | some n => pure n
  | none => badNumber cs

/-- A number that is not negative and not too great. -/
def number (cs : Chars) : Run Nat :=
  match readInteger cs with
  | some n => if 0 ≤ n && n < Nat.pow 2 31 then pure n.toNat else badNumber cs
  | none => badNumber cs

/-- How an error of the system is told: a missing file in the words for what was tried. -/
def reason (missing : String) (e : Errno) : Chars :=
  if e = .noEntry || e = .notDirectory then str missing else str e.describe

def missingFile : String := "No such file"
def missingDirectory : String := "Directory nonexistent"
def missingProgram : String := "not found"

end Run
end TestBench.Script
