import TestBench.Script.Search
import TestBench.Script.Field
/-!
# Variables, parameters and names

The shell's own commands that set and list variables, move parameters, read lines into variables and
keep aliases.
-/
namespace TestBench.Script.Naming

open Process Run Variable

/-- Marks variables, and may give them values; without words the marked ones are listed. -/
def mark (command : String) (m : Marks) (isMarked : Variable → Bool) (words : List Chars) :
    Run Int := do
  let (met, words) ← options [('p', false)] words
  if !met.isEmpty || words.isEmpty then listVariables (str command ++ [' ']) isMarked
  else words.forM fun w => do
    let (x, value) := splitAssignment w
    match value, ← findVariable w with
    | none, some v =>
      putVariable { v with exported := v.exported || m.exported, readOnly := v.readOnly || m.readOnly }
    | _, _ => if w.contains '=' then setVariable x value m else setVariable w none m
  pure 0

def export_ : List Chars → Run Int := mark "export" .forExport (·.exported)

def readOnly : List Chars → Run Int := mark "readonly" .forReading (·.readOnly)

def keepAll (words : List Chars) : Run Int := do
  if (← get).kept.isEmpty then failText "not in a function"
  words.forM fun w => keep w .none
  pure 0

def unsetAll (words : List Chars) : Run Int := do
  let (met, words) ← options [('v', false), ('f', false)] words
  let functions := (met.getLast?.map (·.1)) = some 'f'
  words.forM fun w =>
    if functions then modify fun s => { s with functions := s.functions.filter (·.1 != w) }
    else unset (splitAssignment w).1
  pure 0

def setParameters (words : List Chars) : Run Unit :=
  modify fun s => { s with parameters := words, optionIndex := 1, optionOffset := none }

def set_ (words : List Chars) : Run Int := do
  if words.isEmpty then listVariables [] (·.value.isSome)
  else
    let (rest, _, clears) ← turnAll false (words.length + 1) words false
    refuseMonitor
    if !rest.isEmpty || clears then setParameters rest
  pure 0

def shift (words : List Chars) : Run Int := do
  let n ← match words with
    | [] => pure 1
    | w :: _ => number w
  let ps := (← get).parameters
  if ps.length < n then failText "can't shift that many"
  setParameters (ps.drop n)
  pure 0

inductive ArgumentChange where
  | kept
  | removed
  | given (value : Chars)
deriving DecidableEq, Repr

/-- What the next option is, and where the reading of options stands after it. -/
structure Met where
  letter : Char
  change : ArgumentChange
  remark : Chars
  index : Nat
  offset : Option Nat
  ended : Bool
deriving DecidableEq, Repr

def allows (c : Char) : Chars → Option Bool
  | [] => none
  | [d] => if d == c then some false else none
  | d :: e :: r =>
    if d == c then some (e == ':') else if e == ':' then allows c r else allows c (e :: r)

def restOfWord (words : List Chars) (index : Nat) (offset : Option Nat) : Chars :=
  match offset, words[index - 2]? with
  | some k, some w => if index ≤ 1 || w.length < k then [] else w.drop k
  | _, _ => []

/-- An option with what follows it in its word; the next word is at the index. -/
def metLetter (allowed : Chars) (words : List Chars) (index : Nat) (c : Char) (cs : Chars) : Met :=
  let silent := allowed.head? = some ':'
  let going := some ((words[index - 2]?.map (·.length)).getD 0 - cs.length)
  match allows c allowed with
  | none =>
    if silent then ⟨'?', .given [c], [], index, going, false⟩
    else ⟨'?', .removed, str "Illegal option -" ++ [c, '\n'], index, going, false⟩
  | some false => ⟨c, .given [], [], index, going, false⟩
  | some true =>
    match cs, words[index - 1]? with
    | _ :: _, _ => ⟨c, .given cs, [], index, none, false⟩
    | [], some w => ⟨c, .given w, [], index + 1, none, false⟩
    | [], none =>
      if silent then ⟨':', .given [c], [], index, none, false⟩
      else ⟨'?', .removed, str "No arg for -" ++ c :: str " option\n", index, none, false⟩

def nextOption (allowed : Chars) (words : List Chars) (index : Nat) (offset : Option Nat) : Met :=
  let ended := fun (index : Nat) => (⟨'?', .kept, [], index, none, true⟩ : Met)
  match restOfWord words index offset with
  | c :: cs => metLetter allowed words index c cs
  | [] =>
    match words[index - 1]? with
    | some ['-', '-'] => ended (index + 1)
    | some ('-' :: c :: cs) => metLetter allowed words (index + 1) c cs
    | _ => ended index

def getOptions (words : List Chars) : Run Int := do
  match ← operands words with
  | allowed :: x :: given =>
    let s ← get
    let all := if given.isEmpty then s.parameters else given
    let index := if all.length + 1 < s.optionIndex then 1 else s.optionIndex
    let offset := if all.length + 1 < s.optionIndex then none else s.optionOffset
    let m := nextOption allowed all index offset
    match m.change with
    | .kept => pure ()
    | .removed =>
      remark m.remark
      unset (str "OPTARG")
    | .given a => setPlain (str "OPTARG") a
    store (str "OPTIND") (some (Decimal.render m.index)) .none false
    setPlain x [m.letter]
    modify fun s => { s with optionIndex := m.index, optionOffset := m.offset }
    pure (if m.ended then 1 else 0)
  | _ => failText "Usage: getopts optstring var [arg...]"

/-- Reads bytes up to the end of a line. A backslash takes the meaning from the next character, and
a line end after it goes away. The stretches come last first. -/
def readStretches (raw : Bool) : Nat → Chars → List Segment → Bool → Run (List Segment × Bool)
  | 0, held, acc, _ => pure (⟨.split, held.reverse.map (.char false)⟩ :: acc, false)
  | n + 1, held, acc, escaped => do
    let close := fun (_ : Unit) => (⟨.split, held.reverse.map (.char false)⟩ : Segment) :: acc
    match ← call (.read 0 1) with
    | .error .interrupted => do
      let _ ← arrivals
      if (← get).pending.isEmpty then readStretches raw n held acc escaped
      else pure (close (), true)
    | .error _ => pure (close (), true)
    | .ok [] => pure (close (), true)
    | .ok (b :: _) =>
      let c := byteChar b.toNat
      if c == '\x00' then readStretches raw n held acc escaped
      else if escaped then
        if c == '\n' then readStretches raw n [] (close ()) false
        else readStretches raw n [] (⟨.whole, [.char true c]⟩ :: close ()) false
      else if c == '\\' && !raw then readStretches raw n held acc true
      else if c == '\n' then pure (close (), false)
      else readStretches raw n (c :: held) acc false

def read (words : List Chars) : Run Int := do
  let (met, names) ← options [('p', true), ('r', false)] words
  if names.isEmpty then failText "arg count"
  let raw := met.any (·.1 == 'r')
  let (stretches, ended) ← readStretches raw stepBound [] [] false
  let ifs := (← lookup (str "IFS")).getD Division.standardSeparators
  let fields := divide ifs (some names.length) stretches.reverse
  names.zipIdx.forM fun (x, i) => setPlain x ((fields[i]?.map Field.text).getD [])
  pure (if ended then 1 else 0)

def shownAlias (a : Chars × Chars) : Chars := a.1 ++ '=' :: quote a.2 ++ ['\n']

def aliasRows : Nat := 39

def alias_ (words : List Chars) : Run Int := do
  if words.isEmpty then
    (Table.ordered aliasRows (·.1) (← get).aliases).forM fun a => put (shownAlias a)
    pure 0
  else
    let results ← words.mapM fun w => do
      let name := w.take 1 ++ (w.drop 1).takeWhile (· != '=')
      let as := (← get).aliases
      if name.length < w.length then
        let a := (name, w.drop (name.length + 1))
        modify fun s =>
          { s with aliases := if (as.lookup name).isSome then as.map fun b => if b.1 = name then a else b
              else as ++ [a] }
        pure (0 : Int)
      else match as.lookup w with
        | some value =>
          put (shownAlias (w, value))
          pure 0
        | none =>
          remark (str "alias: " ++ w ++ str " not found\n")
          pure 1
    pure (results.foldl max 0)

def unalias (words : List Chars) : Run Int := do
  let (met, words) ← options [('a', false)] words
  if !met.isEmpty then
    modify fun s => { s with aliases := [] }
    pure 0
  else
    let results ← words.mapM fun w => do
      if ((← get).aliases.lookup w).isSome then
        modify fun s => { s with aliases := s.aliases.filter (·.1 != w) }
        pure (0 : Int)
      else
        remark (str "unalias: " ++ w ++ str " not found\n")
        pure 1
    pure (results.foldl max 0)

end TestBench.Script.Naming
