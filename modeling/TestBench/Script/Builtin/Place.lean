import TestBench.Script.Option
import TestBench.Text.Split
/-!
# Directories and limits

The shell's own commands for its directory, for the mask of new files and for limits.
-/
namespace TestBench.Script.Place

open Process Run

/-- A path from a directory on, with its dots resolved by name. Where two dots leave something, what
they leave has to be a directory. -/
def resolved (dir : List Chars) : List Chars → List Chars
  | [] => dir
  | c :: cs =>
    if c.isEmpty || c = ['.'] then resolved dir cs
    else if c = ['.', '.'] then resolved dir.dropLast cs
    else resolved (dir ++ [c]) cs

def components (p : Chars) : List Chars := (Text.splitOn '/' p).filter (!·.isEmpty)

def absolute (cs : List Chars) : Chars := '/' :: Text.joinWith ['/'] cs

def logical (here dest : Chars) : Chars :=
  absolute (resolved (if dest.head? = some '/' then [] else components here) (Text.splitOn '/' dest))

def noteDirectory (p : Chars) (old : Bool) : Run Unit := do
  let before := (← get).inDirectory
  if old then setVariable (str "OLDPWD") (some before) .forExport
  modify fun s => { s with inDirectory := p }
  setVariable (str "PWD") (some p) .forExport

def isReal (met : List (Char × Chars)) : Bool := (met.getLast?.map (·.1)) = some 'P'

def enter (dest : Chars) (real : Bool) : Run Bool := do
  let here := (← get).inDirectory
  let target := if real then dest else logical here dest
  match ← call (.enter (Chars.toBytes target)) with
  | .error _ => pure false
  | .ok _ =>
    let p ← if real then Chars.ofBytes <$> call .here else pure target
    noteDirectory p true
    pure true

def isDirectory (p : Chars) : Run Bool := do
  match ← call (.inspect (Chars.toBytes p) true) with
  | .ok f => pure (f.kind = .directory)
  | .error _ => pure false

def isDirect (dest : Chars) : Bool :=
  match dest with
  | '/' :: _ => true
  | ['.'] | '.' :: '/' :: _ => true
  | ['.', '.'] | '.' :: '.' :: '/' :: _ => true
  | _ => false

/-- The first directory of a list that has one of the name, and whether it is to be shown. -/
def searched (dest : Chars) : List Chars → Run (Option (Chars × Bool))
  | [] => pure none
  | dir :: dirs => do
    let p := if dir.isEmpty then dest else dir ++ '/' :: dest
    if ← isDirectory p then pure (some (p, !dir.isEmpty)) else searched dest dirs

def cd (words : List Chars) : Run Int := do
  let (met, words) ← options [('L', false), ('P', false)] words
  let (given, shows) ← match words with
    | [] => pure ((← lookup (str "HOME")).getD [], false)
    | ['-'] :: _ => pure ((← lookup (str "OLDPWD")).getD [], true)
    | w :: _ => pure (w, false)
  let dest := if given.isEmpty then ['.'] else given
  let list := (← lookup (str "CDPATH")).getD []
  let (p, shows) ← if isDirect given then pure (dest, shows)
    else match ← searched dest (Text.splitOn ':' list) with
      | some (p, byList) => pure (p, shows || byList)
      | none => pure (dest, shows)
  if ← enter p (isReal met) then
    if shows then put ((← get).inDirectory ++ ['\n'])
    pure 0
  else fail (str "can't cd to " ++ given)

def pwd (words : List Chars) : Run Int := do
  let (met, _) ← options [('L', false), ('P', false)] words
  let known := (← get).inDirectory
  let p ← if isReal met then Chars.ofBytes <$> call .here else pure known
  put (p ++ ['\n'])
  pure 0

def octal (width n : Nat) : Chars :=
  let ds := Nat.toDigits 8 n
  List.replicate (width - ds.length) '0' ++ ds

def shownMask (mask : Nat) : Chars :=
  let rights := fun (shift : Nat) =>
    let left := 7 - mask / shift % 8
    (if left / 4 % 2 = 1 then ['r'] else []) ++ (if left / 2 % 2 = 1 then ['w'] else [])
      ++ (if left % 2 = 1 then ['x'] else [])
  str "u=" ++ rights 64 ++ str ",g=" ++ rights 8 ++ str ",o=" ++ rights 1

/-- The permissions that a letter stands for: its own, or those that a kind of users had. -/
def rightOf (before : Nat) (c : Char) : Option Nat :=
  if c == 'r' then some 4 else if c == 'w' then some 2 else if c == 'x' then some 1
  else if c == 'u' then some (before / 64 % 8) else if c == 'g' then some (before / 8 % 8)
  else if c == 'o' then some (before % 8)
  else if c == 'X' then some (if before &&& 0o111 = 0 then 0 else 1)
  else if c == 's' then some 0 else none

def placesOf (cs : Chars) : Nat :=
  if cs.isEmpty || cs.contains 'a' then 0o111
  else (if cs.contains 'u' then 0o100 else 0) ||| (if cs.contains 'g' then 0o010 else 0)
    ||| (if cs.contains 'o' then 0o001 else 0)

def applySigns (before places : Nat) : Nat → Nat → Chars → Option Nat
  | 0, _, _ => none
  | _, left, [] => some left
  | n + 1, left, sign :: r =>
    let letters := r.takeWhile fun c => (rightOf before c).isSome
    let bits := ((letters.filterMap (rightOf before)).foldl (· ||| ·) 0) * places
    let cleared := fun (bits : Nat) => left - (left &&& bits)
    let after := if sign == '=' then some (cleared (7 * places) ||| bits)
      else if sign == '+' then some (left ||| bits)
      else if sign == '-' then some (cleared bits)
      else none
    after.bind fun left => applySigns before places n left (r.drop letters.length)

def applyClause (before left : Nat) (cs : Chars) : Option Nat :=
  let users := cs.takeWhile "ugoa".toList.contains
  let signs := cs.drop users.length
  if signs.isEmpty then none else applySigns before (placesOf users) (cs.length + 1) left signs

/-- Changes the permissions that are left by all clauses; nothing may follow the last comma. -/
def applyClauses (before : Nat) (cs : Chars) : Option Nat :=
  let clauses := Text.splitOn ',' cs
  let clauses := if clauses.getLast? = some [] then clauses.dropLast else clauses
  clauses.foldl (fun left c => left.bind (applyClause before · c)) (some before)

def umask (words : List Chars) : Run Int := do
  let (met, words) ← options [('S', false)] words
  let mask := (← get).mask
  match words with
  | [] => put ((if met.isEmpty then octal 4 mask else shownMask mask) ++ ['\n'])
  | w :: _ =>
    if (w.head?.map Char.isDigit).getD false then
      if w.all Text.isOctal then modify fun s => { s with mask := Text.valueIn 8 w % 0o1000 }
      else badNumber w
    else
      match applyClauses (0o777 - mask) w with
      | some left => modify fun s => { s with mask := 0o777 - left }
      | none => fail (str "Illegal mode: " ++ w)
  pure 0

def limitLetters : List (Char × Bool) :=
  ("HSatfdscmlpnvwr".toList).map fun c => (c, false)

/-- Nothing is limited here but what a script says. -/
def ulimit (words : List Chars) : Run Int := do
  let (_, words) ← options limitLetters words
  match words with
  | [] => put (str "unlimited\n")
  | [w] =>
    if w = str "unlimited" || (!w.isEmpty && w.all Char.isDigit) then pure ()
    else failText "bad number"
  | _ => failText "too many arguments"
  pure 0

def times : Run Int := do
  put (str "0m0.000000s 0m0.000000s\n0m0.000000s 0m0.000000s\n")
  pure 0

end TestBench.Script.Place
