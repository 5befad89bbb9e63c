import TestBench.Tool.Options
/-!
# Touching files

A file that is not there is made; the times of one that is there are set anew.
-/
namespace TestBench.Tool.Touch

open Process

structure Style where
  noCreate : Bool
  ownLink : Bool
  like : Option Chars
  stamped : Bool
  dated : Bool
deriving DecidableEq, Repr

/-- A row of digits for month, day, hour and minute, a year before them, and seconds. -/
def isStamp (cs : Chars) : Bool :=
  let digits := cs.takeWhile Char.isDigit
  let rest := cs.drop digits.length
  let n := digits.length
  let body := digits.drop (n - 8)
  let part := fun (i : Nat) => Text.valueIn 10 ((body.drop i).take 2)
  let whole := n = 8 || n = 10 || n = 12
  let inRange := 1 ≤ part 0 && part 0 ≤ 12 && 1 ≤ part 2 && part 2 ≤ 31 && part 4 ≤ 23 && part 6 ≤ 59
  let seconds := match rest with
    | [] => true
    | ['.', a, b] => a.isDigit && b.isDigit && Text.valueIn 10 [a, b] ≤ 60
    | _ => false
  whole && inRange && seconds

def file (s : Style) (name : Chars) : Job Unit := do
  let path := Chars.toBytes name
  if name = ['-'] then
    match ← call (.describe 1) with
    | .ok _ => pure ()
    | .error e =>
      if !s.noCreate then complain [str "setting times of ", Quote.always name, reason e]
  else
    let opened ← if s.noCreate || s.ownLink then pure none
      else match ← call (.openPath path .touching) with
        | .ok fd =>
          let _ ← call (.close fd)
          pure none
        | .error e =>
          pure (if e = .isDirectory || e = .invalid || e = .notPermitted then none else some e)
    match ← call (.stamp path (!s.ownLink)) with
    | .ok _ => pure ()
    | .error e =>
      match opened with
      | some e => complain [str "cannot touch ", Quote.always name, reason e]
      | none =>
        if s.noCreate && e = .noEntry then pure ()
        else complain [str "setting times of ", Quote.always name, reason e]

def options : Options where
  short := [('a', .nothing), ('c', .nothing), ('d', .argument), ('f', .nothing), ('h', .nothing),
    ('m', .nothing), ('r', .argument), ('t', .argument)]
  long := [("time", .argument, 'T'), ("no-create", .nothing, 'c'), ("date", .argument, 'd'),
    ("reference", .argument, 'r'), ("no-dereference", .nothing, 'h')] ++ Options.common
  inOrder := false

def times : List String := ["atime", "access", "use", "mtime", "modify"]

def setOption (s : Style) (letter : Char) (value : Chars) : Job Style := do
  match letter with
  | 'c' => pure { s with noCreate := true }
  | 'h' => pure { s with ownLink := true }
  | 'r' => pure { s with like := some value }
  | 't' =>
    if isStamp value then pure { s with stamped := true } else die [str "invalid date format ", Quote.plain value]
  | 'd' => pure { s with dated := true }
  | 'T' =>
    if times.any fun t => value.isPrefixOf (str t) then pure s
    else misuse [str "invalid argument ", Quote.plain value, str " for '--time'\nValid arguments are:",
      str "\n  - 'atime', 'access', 'use'\n  - 'mtime', 'modify'"]
  | _ => pure s

def job (args : List Chars) : Job Unit := do
  let p := options.parse args
  let s ← eachOption p.met ⟨false, false, none, false, false⟩ setOption
  if s.stamped && (s.like.isSome || s.dated) then
    misuse [str "cannot specify times from more than one source"]
  match s.like with
  | none => pure ()
  | some like =>
    match ← call (.inspect (Chars.toBytes like) (!s.ownLink)) with
    | .ok _ => pure ()
    | .error e => die [str "failed to get attributes of ", Quote.always like, reason e]
  if p.operands.isEmpty then misuse [str "missing file operand"]
  p.operands.forM (file s)

end TestBench.Tool.Touch
