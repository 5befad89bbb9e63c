import TestBench.Script.Option
/-!
# Traps

What a shell does when a signal reaches it, and when it ends.
-/
namespace TestBench.Script

open Process

namespace Signals

/-- The names of signals by number; the first stands for the end of the shell. -/
def names : List String :=
  ["EXIT", "HUP", "INT", "QUIT", "ILL", "TRAP", "ABRT", "BUS", "FPE", "KILL", "USR1", "SEGV", "USR2",
    "PIPE", "ALRM", "TERM", "16", "CHLD", "CONT", "STOP", "TSTP", "TTIN", "TTOU", "URG", "XCPU",
    "XFSZ", "VTALRM", "PROF", "WINCH", "IO", "PWR", "SYS", "32", "33", "RTMIN"]
    ++ (List.range 15).map (fun n => "RTMIN+" ++ Decimal.text (n + 1))
    ++ (List.range 14).map (fun n => "RTMAX-" ++ Decimal.text (14 - n))
    ++ ["RTMAX"]

def name (n : Nat) : Chars := str (names.getD n "")

def ofDigits (cs : Chars) : Option Nat :=
  if !cs.isEmpty && cs.all Char.isDigit then
    let n := Text.valueIn 10 cs
    if n ≤ Signal.last then some n else none
  else none

def ofText (least : Nat) (cs : Chars) : Option Nat :=
  match ofDigits cs with
  | some n => some n
  | none =>
    let upper := cs.map Char.toUpper
    ((names.zipIdx.drop least).find? fun t => str t.1 = upper).map (·.2)

end Signals

namespace Run

def trap? (n : Nat) : Run (Option Chars) := return (← get).traps.lookup n

def hasTraps : Run Bool := return (← get).traps.any fun t => !t.2.isEmpty

def arranged (n : Nat) : Run Arranged := do
  match (← get).arranged.lookup n with
  | some a => pure a
  | none =>
    match ← call (.treatment n) with
    | .ignored => pure .ignoredForEver
    | _ => pure .standard

def note (n : Nat) (a : Arranged) : Run Unit :=
  modify fun s => { s with arranged := (n, a) :: s.arranged.filter (·.1 != n) }

/-- Arranges for a signal as its trap asks. The end of a child is never ignored. -/
def arrange (n : Nat) : Run Unit := do
  let s ← get
  let deaf := s.isRoot && s.options.contains "interactive" && (n = Signal.quit || n = Signal.terminate)
  let wanted : Arranged ← match ← trap? n with
    | none => pure (if deaf then .ignored else .standard)
    | some [] => pure (if n = Signal.child then .standard else .ignored)
    | some _ => pure .caught
  let now ← arranged n
  if now = .ignoredForEver || now = wanted then note n now
  else
    call (.treat n (match wanted with
      | .caught => .caught
      | .standard => .standard
      | _ => .ignored))
    note n wanted

def setTrap (n : Nat) (action : Option Chars) : Run Unit := do
  modify fun s =>
    { s with traps := (action.map fun a => (n, a)).toList ++ s.traps.filter (·.1 != n) }
  if n != 0 then arrange n

def ignoreForEver (n : Nat) : Run Unit := do
  call (.treat n .ignored)
  note n .ignoredForEver

/-- Forgets what is to be done for signals; those that are ignored stay so. -/
def clearTraps : Run Unit := do
  let set := (← get).traps.filter fun t => !t.2.isEmpty
  set.forM fun t => setTrap t.1 none

/-- Asks which signals have arrived; answers with the last of them. -/
def arrivals : Run (Option Nat) := do
  let ns ← call .arrived
  modify fun s => { s with pending := s.pending ++ ns.filter (!s.pending.contains ·) }
  pure ns.getLast?

end Run
end TestBench.Script
