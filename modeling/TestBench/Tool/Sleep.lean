import TestBench.Number.Binary
import TestBench.Tool.Options
/-!
# Pauses

Waiting for the sum of some intervals, each a number with a unit.
-/
namespace TestBench.Tool.Sleep

open Number

def unit : Chars → Option Nat
  | [] => some 1
  | ['s'] => some 1
  | ['m'] => some 60
  | ['h'] => some 3600
  | ['d'] => some 86400
  | _ => none

/-- An interval in microseconds; one without end is none at all. -/
def interval (cs : Chars) : Option (Option Nat) :=
  match Reading.take? .double cs with
  | none => none
  | some r =>
    match unit r.rest, r.fitted.value with
    | none, _ => none
    | some _, .invalid _ => none
    | some _, .infinite negative => if negative then none else some none
    | some u, .finite negative m e =>
      if negative && m != 0 then none
      else (Binary.floorIn (1000000 * u) (.finite false m e)).map some

def options : Options where
  short := []
  long := Options.common
  inOrder := false

/-- An interval after which nothing is waiting any more. -/
def forever : Nat := Nat.pow 10 18

def job (args : List Chars) : Job Unit := do
  let p := options.parse args
  eachOption p.met () fun _ _ _ => pure ()
  if p.operands.isEmpty then misuse [str "missing operand"]
  let good ← p.operands.foldlM (fun good w => do
    match interval w with
    | some _ => pure good
    | none =>
      warn [str "invalid time interval ", Quote.plain w]
      pure false) true
  if !good then
    hint
    finish (← get).failure
  let total := p.operands.foldl (fun n w =>
    match interval w with
    | some (some k) => n + k
    | _ => n + forever) 0
  let _ ← call (.sleep total)

end TestBench.Tool.Sleep
