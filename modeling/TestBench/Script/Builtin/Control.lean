import TestBench.Script.Input
import TestBench.Script.Search
/-!
# Control

The shell's own commands that leave loops, functions and the shell, set traps, and run texts and
files as scripts.
-/
namespace TestBench.Script.Control

open Process Run

/-- Leaves loops, or goes on with their next turn; outside of loops there is nothing to leave. -/
def leave (skip : Skip) (words : List Chars) : Run Int := do
  let n ← match words with
    | [] => pure 1
    | w :: _ => do
      let n ← number w
      if n = 0 then badNumber w
      pure n
  let n := min n (← get).loops
  if 0 < n then modify fun s => { s with skip := skip, skipped := n }
  pure 0

def return_ (words : List Chars) : Run Int := do
  match words with
  | [] =>
    modify fun s => { s with skip := .plainBack }
    return (← get).status
  | w :: _ =>
    let n ← number w
    modify fun s => { s with skip := .back }
    pure n

def exit (words : List Chars) : Run Int := do
  match words with
  | [] => pure ()
  | w :: _ =>
    let n ← number w
    modify fun s => { s with atTrap := some n }
  throw .exit

def trapLine (t : Nat × Chars) : Chars :=
  str "trap -- " ++ Variable.quote t.2 ++ ' ' :: Signals.name t.1 ++ ['\n']

def setTraps (action : Option Chars) : List Chars → Run Int
  | [] => pure 0
  | w :: ws => do
    match Signals.ofText 0 w with
    | none =>
      remark (str "trap: " ++ w ++ str ": bad trap\n")
      pure 1
    | some n =>
      setTrap n action
      setTraps action ws

def trap (words : List Chars) : Run Int := do
  match ← operands words with
  | [] =>
    ((← get).traps.mergeSort fun a b => a.1 ≤ b.1).forM fun t => put (trapLine t)
    pure 0
  | [w] => setTraps none [w]
  | w :: ws =>
    if (Signals.ofDigits w).isSome then setTraps none (w :: ws)
    else setTraps (if w = ['-'] then none else some w) ws

def eval (e : Engine) (flags : Flags) (words : List Chars) : Run Int :=
  if words.isEmpty then pure 0
  else e.run { flags with last := false } (Text.joinWith [' '] words)

/-- The path of a file that is to be run here; a name without a slash is searched for. -/
def findScript (name : Chars) : Run Chars := do
  if name.contains '/' then pure name
  else
    let isFile := fun (p : Chars) => do
      match ← call (.inspect (Chars.toBytes p) true) with
      | .ok f => pure (f.kind = .file)
      | .error _ => pure false
    match ← (Search.paths (← searchList) name).findM? isFile with
    | some p => pure p
    | none => fail (name ++ str ": not found")

def source (e : Engine) (words : List Chars) : Run Int := do
  match ← operands words with
  | [] => pure 0
  | name :: _ =>
    let p ← findScript name
    let fd ← Engine.openScript p
    modify fun s => { s with running := some p }
    ensuring (e.runFile false fd) do
      let _ ← call (.close fd)

def exec (words : List Chars) : Run Int := do
  if !words.isEmpty then execute words none 0
  pure 0

end TestBench.Script.Control
