import TestBench.Script.Shell
/-!
# Variables

Setting, unsetting and listing variables, and keeping those that a function or a command has for
itself.
-/
namespace TestBench.Script

namespace Variable

structure Marks where
  exported : Bool
  readOnly : Bool
  fixed : Bool
deriving DecidableEq, Repr

namespace Marks

def none : Marks := ⟨false, false, false⟩
def forExport : Marks := ⟨true, false, false⟩
def forReading : Marks := ⟨false, true, false⟩

end Marks

/-- Between single quotes; single quotes themselves between double ones. -/
def quoted : Nat → Chars → Chars
  | 0, _ => []
  | n + 1, cs =>
    let front := cs.takeWhile (· != '\'')
    let rest := cs.drop front.length
    let quotes := rest.takeWhile (· == '\'')
    let after := rest.drop quotes.length
    '\'' :: front ++ '\'' :: (if quotes.isEmpty then [] else
      '"' :: quotes ++ '"' :: (if after.isEmpty then [] else quoted n after))

def quote (cs : Chars) : Chars := quoted (cs.length + 1) cs

def before : Chars → Chars → Bool
  | [], _ => true
  | _ :: _, [] => false
  | a :: as, b :: bs => a < b || (a == b && before as bs)

def shown (front : Chars) (v : Variable) : Chars :=
  front ++ v.name ++ (match v.value with
    | some value => '=' :: quote value
    | none => []) ++ ['\n']

end Variable

namespace Run

open Variable (Marks)

def findVariable (x : Chars) : Run (Option Variable) :=
  return (← get).bindings.find? (·.name = x)

def lookup (x : Chars) : Run (Option Chars) := return (← findVariable x).bind (·.value)

def lookupText (x : String) : Run (Option Chars) := lookup x.toList

def putVariable (v : Variable) : Run Unit :=
  modify fun s => { s with bindings := v :: s.bindings.filter (·.name != v.name) }

def dropVariable (x : Chars) : Run Unit :=
  modify fun s => { s with bindings := s.bindings.filter (·.name != x) }

/-- What else changes when some variables do. -/
def noticeChange (x : Chars) (value : Option Chars) : Run Unit := do
  if x = str "PATH" then modify fun s => { s with found := [] }
  else if x = str "OPTIND" then
    let n ← number (value.getD [])
    modify fun s => { s with optionIndex := max n 1, optionOffset := none }

def store (x : Chars) (value : Option Chars) (m : Marks) (notice : Bool) : Run Unit := do
  let m : Marks := { m with exported := m.exported || (← has "allexport") }
  match ← findVariable x with
  | some v =>
    if v.readOnly then fail (x ++ str ": is read only")
    if notice && v.fixed then noticeChange x value
    if value.isNone && m = .none && !v.fixed then dropVariable x
    else
      putVariable ⟨x, value, v.exported || m.exported, v.readOnly || m.readOnly, v.fixed || m.fixed⟩
  | none =>
    if value.isSome || m != .none then
      putVariable ⟨x, value, m.exported, m.readOnly, m.fixed⟩

/-- As `store`, for a name that has to be one. -/
def setVariable (x : Chars) (value : Option Chars) (m : Marks) : Run Unit := do
  if !isName x then fail (x.takeWhile (· != '=') ++ str ": bad variable name")
  store x value m true

def setPlain (x value : Chars) : Run Unit := setVariable x (some value) .none

def unset (x : Chars) : Run Unit := setVariable x none .none

def splitAssignment (cs : Chars) : Chars × Option Chars :=
  let x := cs.takeWhile (· != '=')
  (x, if x.length < cs.length then some (cs.drop (x.length + 1)) else none)

def listVariables (front : Chars) (chosen : Variable → Bool) : Run Unit := do
  let vs := (← get).bindings.filter chosen
  let sorted := vs.mergeSort fun a b => Variable.before a.name b.name
  sorted.forM fun v => put (Variable.shown front v)

def variableRows : Nat := 39

def environment : Run (List Bytes) := do
  let exported := (← get).bindings.filter (·.exported)
  let vs := Table.ordered variableRows (·.name) exported.reverse
  pure (vs.filterMap fun v => v.value.map fun value => Chars.toBytes (v.name ++ '=' :: value))

def openFrame : Run Unit := modify fun s => { s with kept := [] :: s.kept }

def restore (k : Kept) : Run Unit :=
  match k with
  | .options on => modify fun s => { s with options := on }
  | .variable x none => dropVariable x
  | .variable x (some v) => do
    if v.fixed then
      let now ← lookup x
      if now != v.value then noticeChange x v.value
    putVariable v

def closeFrame : Run Unit := do
  match (← get).kept with
  | [] => pure ()
  | frame :: rest =>
    modify fun s => { s with kept := rest }
    frame.forM restore

/-- Makes a variable one of the innermost frame; what is assigned may come with it. -/
def keep (assignment : Chars) (m : Marks) : Run Unit := do
  let note := fun (k : Kept) => modify fun (s : Shell) =>
    { s with kept := match s.kept with
        | [] => []
        | frame :: rest => (k :: frame) :: rest }
  if assignment = ['-'] then note (.options (← get).options)
  else
    let (x, value) := splitAssignment assignment
    match ← findVariable x with
    | none =>
      if value.isSome then store x value { m with fixed := true } true
      else setVariable x none { m with fixed := true }
      note (.variable x none)
    | some v =>
      note (.variable x (some v))
      putVariable { v with fixed := true }
      if value.isSome then store x value m true

end Run
end TestBench.Script
