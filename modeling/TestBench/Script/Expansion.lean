import TestBench.Script.Arithmetic
import TestBench.Script.Engine
import TestBench.Script.Field
import TestBench.Text.Space
import TestBench.User
/-!
# Expansion

Words become text: parameters, commands and expressions are replaced by what they stand for, text is
divided into fields, and patterns are replaced by the names that fit them.
-/
namespace TestBench.Script

open Process

/-- The setting in which a word is expanded: whether it becomes fields, whether it remembers quotes,
whether it stands in quotes or in the braces of a parameter, and where a tilde may stand: in front,
after a colon, or after the first equals sign. -/
structure Manner where
  fields : Bool
  remembers : Bool
  quoted : Bool
  inBraces : Bool
  tilde : Bool
  assignment : Bool
  equals : Bool
deriving DecidableEq, Repr

namespace Manner

def forFields : Manner := ⟨true, true, false, false, true, false, false⟩
def forText : Manner := ⟨false, false, false, false, true, false, false⟩
def forPattern : Manner := ⟨false, true, false, false, true, false, false⟩
def forAssignment : Manner := ⟨false, false, false, false, false, true, true⟩
def forDocument : Manner := ⟨false, false, true, false, false, false, false⟩
def forExpression : Manner := ⟨false, false, false, false, false, false, false⟩

end Manner

namespace Run

def separators : Run (Option Chars) := lookup (str "IFS")

/-- What stands between two parameters where all of them are meant, if anything does. -/
def parameterSeparator (m : Manner) (quoted : Bool) (sign : Char) : Run (Option Char) := do
  if sign == '@' && quoted && m.fields then pure (some '\x00')
  else match ← separators with
    | none => pure (some ' ')
    | some ifs => pure (if m.fields && !quoted then some '\x00' else ifs.head?)

def joinParameters (separator : Option Char) : List Chars → Chars
  | [] => []
  | [p] => p
  | p :: ps => p ++ separator.toList ++ joinParameters separator ps

def parameterValue (m : Manner) (quoted : Bool) (name : Chars) : Run (Option Chars) := do
  let s ← get
  match name with
  | ['$'] => pure (some (Decimal.render s.pid))
  | ['?'] => pure (some (str (toString s.status)))
  | ['#'] => pure (some (Decimal.render s.parameters.length))
  | ['!'] => pure (s.background.map Decimal.render)
  | ['-'] => pure (some (Setting.letters s.options))
  | ['@'] => pure (some (joinParameters (← parameterSeparator m quoted '@') s.parameters))
  | ['*'] => pure (some (joinParameters (← parameterSeparator m quoted '*') s.parameters))
  | name =>
    if name.all Char.isDigit then
      match Text.valueIn 10 name with
      | 0 => pure (some s.name)
      | n + 1 => pure s.parameters[n]?
    else lookup name

/-- A tilde at the front of a word with the name after it: the directory that it stands for and what
follows. -/
def tildeAt (assignment : Bool) (w : Word) : Run (Option (Chars × Word)) := do
  match w with
  | .char false '~' :: r =>
    let inName := fun (p : Piece) =>
      match p with
      | .char false c => c != '/' && !(assignment && c == ':')
      | _ => false
    let name := Word.text (r.takeWhile inName)
    let rest := r.drop name.length
    let ends := match rest with
      | [] => true
      | .char false _ :: _ => true
      | _ => false
    if !ends then pure none
    else
      let home ← if name.isEmpty then lookup (str "HOME")
        else pure (User.home? name)
      pure (home.map fun h => (h, rest))
  | _ => pure none

def bareRun (stops : Char → Bool) : Word → Chars × Word
  | .char false c :: r =>
    if stops c then ([c], r)
    else
      let t := bareRun stops r
      (c :: t.1, t.2)
  | w => ([], w)

def readOutput (fd : Nat) : Nat → List Bytes → Run Bytes
  | 0, acc => pure acc.reverse.flatten
  | n + 1, acc => do
    match ← call (.read fd 4096) with
    | .error .interrupted => readOutput fd n acc
    | .error _ => pure acc.reverse.flatten
    | .ok bs => if bs.isEmpty then pure acc.reverse.flatten else readOutput fd n (bs :: acc)

/-- The output of a command, without the line ends at its end. -/
def substitute (e : Engine) (body : Option Command) : Run Chars := do
  match body with
  | none => pure []
  | some c =>
    let (out, into) ← call .pipe
    let job ← newJob
    let _ ← e.fork (some job) .front do
      let _ ← call (.close out)
      if into != 1 then
        let _ ← call (.copyTo into 1)
        let _ ← call (.close into)
      let _ ← e.evaluate ⟨true, false⟩ c
    let _ ← call (.close into)
    let output ← readOutput out stepBound []
    let _ ← call (.close out)
    let status ← finishJob job
    modify fun s => { s with substituted := status }
    let text := (Chars.ofBytes output).filter (· != '\x00')
    pure (Text.dropEnd (· == '\n') text)

def valueGlyph (quoted : Bool) (c : Char) : Glyph := .char (quoted && c != '\x00') c

def valueSegment (name : Chars) (quoted : Bool) (glyphs : List Glyph) : Run Segment := do
  let several := name = ['@'] && !(← get).parameters.isEmpty
  pure ⟨if !quoted then .split else if several then .zeros else .whole, glyphs⟩

def calculate (expression : Chars) : Run Chars := do
  let vs := (← get).bindings
  let named := fun (x : Chars) => vs.find? (·.name = x)
  let result := Arithmetic.evaluate (fun x => (named x).bind (·.value))
    (fun x => ((named x).map (·.readOnly)).getD false) expression
  match result with
  | .ok (v, changes) =>
    changes.forM fun (x, v) => setPlain x (Arithmetic.render v)
    pure (Arithmetic.render v)
  | .error .overflow =>
    let (me, _) ← call .self
    let _ ← call (.signal me 8)
    pure []
  | .error f => fail (f.message expression)

mutual

/-- Expands the pieces of a word; `inside` tells whether quotes are open. -/
def pieces (e : Engine) : Nat → Manner → Bool → List Piece → Run (List Segment)
  | 0, _, _, _ => pure []
  | n + 1, m, inside, w => do
    let quoted := m.quoted || inside
    let markSegment : List Segment := if m.remembers then [⟨.whole, [.mark]⟩] else []
    match w with
    | [] => pure []
    | .mark :: .parameter ['@'] .plain false [] :: .mark :: r =>
      if inside then
        let rest ← pieces e n m false (w.drop 1)
        pure (markSegment ++ rest)
      else
        let all ← parameter e n m true ['@'] .plain false []
        let rest ← pieces e n m inside r
        pure (all ++ rest)
    | .mark :: r =>
      let rest ← pieces e n m (!inside) r
      pure (markSegment ++ rest)
    | .char true c :: r =>
      let rest ← pieces e n m inside r
      pure (⟨.whole, [.char true c]⟩ :: rest)
    | .char false _ :: _ =>
      let stops := fun (c : Char) =>
        m.assignment && !quoted && (c == ':' || (c == '=' && m.equals))
      let (cs, after) := bareRun stops w
      let stopped := (cs.getLast?.map stops).getD false
      let m := if stopped then { m with equals := m.equals && cs.getLast? != some '=' } else m
      let region : Region := if m.inBraces && !quoted then .split else .whole
      let here : Segment := ⟨region, cs.map (.char quoted)⟩
      match ← if stopped then tildeAt true after else pure none with
      | some (home, after) =>
        let rest ← pieces e n m inside after
        pure (here :: ⟨.whole, home.map (.char true)⟩ :: rest)
      | none =>
        let rest ← pieces e n m inside after
        pure (here :: rest)
    | .parameter name .cut orNull argument :: _ =>
      let value ← parameter e n m quoted name .plain orNull []
      let rest ← pieces e n m inside argument
      pure (value ++ rest)
    | .parameter name modifier orNull argument :: r =>
      let value ← parameter e n m quoted name modifier orNull argument
      let rest ← pieces e n m inside r
      pure (value ++ rest)
    | .substitution body :: r =>
      let output ← substitute e body
      let rest ← pieces e n m inside r
      pure (⟨if quoted then .whole else .split, output.map (valueGlyph quoted)⟩ :: rest)
    | .arithmetic expression :: r =>
      let text ← pieces e n .forExpression false expression
      let value ← calculate (Segment.text text)
      let rest ← pieces e n m inside r
      pure (⟨if quoted then .whole else .split, value.map (valueGlyph quoted)⟩ :: rest)

def begun (e : Engine) : Nat → Manner → List Piece → Run (List Segment)
  | 0, _, _ => pure []
  | n + 1, m, w => do
    let tilde ← if m.tilde && !m.quoted then tildeAt m.assignment w else pure none
    let m := { m with tilde := false }
    match tilde with
    | some (home, rest) =>
      let rest ← pieces e n m false rest
      pure (⟨.whole, home.map (.char true)⟩ :: rest)
    | none => pieces e n m false w

def parameter (e : Engine) : Nat → Manner → Bool → Chars → Modifier → Bool → List Piece →
    Run (List Segment)
  | 0, _, _, _, _, _, _ => pure []
  | n + 1, m, quoted, name, modifier, orNull, argument => do
    if modifier = .bad then failText "Bad substitution"
    let found ← parameterValue m quoted name
    let value := if orNull && found = some [] then none else found
    let shown := fun (cs : Chars) => do
      pure [← valueSegment name quoted (cs.map (valueGlyph quoted))]
    let word := begun e n { m with inBraces := true, tilde := true, quoted := quoted } argument
    let checked : Run Unit := do
      if value.isNone && (← has "nounset") then fail (name ++ str ": parameter not set")
    match modifier, value with
    | .bad, _ => pure []
    | .cut, _ => pure []
    | .plain, none =>
      checked
      pure []
    | .plain, some cs => shown cs
    | .orDefault, some cs => shown cs
    | .orDefault, none => word
    | .alternative, some _ => word
    | .alternative, none => if quoted && name != ['@'] then pure [] else shown []
    | .orAssign, some cs => shown cs
    | .orAssign, none =>
      let text := Segment.text (← begun e n { Manner.forText with tilde := !quoted } argument)
      setPlain name text
      parameter e n m quoted name .plain false []
    | .orFail, some cs => shown cs
    | .orFail, none =>
      let text := Segment.text (← begun e n { Manner.forText with tilde := !quoted } argument)
      fail (name ++ str ": " ++ (if argument.isEmpty then
        str (if orNull then "parameter not set or null" else "parameter not set") else text))
    | .length, value =>
      checked
      shown (Decimal.render (value.getD []).length)
    | .trim _ _, none =>
      checked
      pure []
    | .trim front longest, some cs =>
      let pattern := (Segment.field (← begun e n .forPattern argument)).pattern
      shown (match pattern.trimmed front longest cs with
        | some k => if front then cs.drop k else cs.take k
        | none => cs)

end

def expansionBound : Nat := 1000000000

def expand (e : Engine) (m : Manner) (w : Word) : Run (List Segment) := begun e expansionBound m w

def expandText (e : Engine) (m : Manner) (w : Word) : Run Chars :=
  return Segment.text (← expand e m w)

def expandPrompt (e : Engine) (name : String) : Run Chars := do
  expandText e .forDocument (readQuoted ((← lookup (str name)).getD []))

def expandPattern (e : Engine) (w : Word) : Run Pattern :=
  return (Segment.field (← expand e .forPattern w)).pattern

end Run
end TestBench.Script
