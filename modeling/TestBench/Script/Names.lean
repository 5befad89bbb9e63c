import TestBench.Script.Expansion
/-!
# Names for patterns

A field that is a pattern becomes the names of the files that fit it, directory by directory. Names
that begin with a dot fit only where the pattern has the dot.
-/
namespace TestBench.Script

open Process

namespace Names

/-- Whether a bracket has another that closes it in the same component. -/
def isClosed : Nat → Chars → Bool
  | 0, _ => false
  | n + 1, cs =>
    let cs := match cs with
      | '\\' :: r => r
      | r => r
    match cs with
    | [] | '/' :: _ => false
    | _ :: ']' :: _ => true
    | _ :: r => isClosed n r

/-- A pattern cut at its first component that is more than a name: what stands before it, the
component, and what follows after a slash. -/
structure Cut where
  front : Chars
  component : Chars
  rest : Option Chars
deriving DecidableEq, Repr

/-- Looks for the first component that is more than a name. What has been passed is last first. -/
def cut : Chars → Chars → Bool → Chars → Option Cut
  | front, component, special, [] =>
    if special then some ⟨front.reverse, component.reverse, none⟩ else none
  | front, component, special, '\\' :: c :: r =>
    if c == '/' then
      if special then some ⟨front.reverse, component.reverse, some r⟩
      else cut ('/' :: '\\' :: component ++ front) [] false r
    else cut front (c :: '\\' :: component) special r
  | front, component, special, c :: r =>
    if c == '/' then
      if special then some ⟨front.reverse, component.reverse, some r⟩
      else cut ('/' :: component ++ front) [] false r
    else
      let negated := if r.head? == some '!' then r.drop 1 else r
      let more := c == '*' || c == '?' || (c == '[' && isClosed (r.length + 1) negated)
      cut front (c :: component) (special || more) r

def bare : Chars → Chars
  | '\\' :: c :: r => c :: bare r
  | c :: r => c :: bare r
  | [] => []

def startsWithDot (component : Chars) : Bool :=
  match component with
  | '\\' :: c :: _ => c == '.'
  | c :: _ => c == '.'
  | [] => false

def find : Nat → Chars → Chars → Run (List Chars)
  | 0, _, _ => pure []
  | n + 1, dir, pattern => do
    match cut [] [] false pattern with
    | none =>
      let name := dir ++ bare pattern
      if dir.isEmpty then pure []
      else match ← Run.call (.inspect (Chars.toBytes name) false) with
        | .ok _ => pure [name]
        | .error _ => pure []
    | some c =>
      let dir := dir ++ bare c.front
      match ← Run.call (.names (Chars.toBytes (if dir.isEmpty then ['.'] else dir))) with
      | .error _ => pure []
      | .ok names =>
        let all := ['.'] :: ['.', '.'] :: names.map Chars.ofBytes
        let p := Pattern.ofText c.component
        let chosen := all.filter fun name =>
          (name.head? != some '.' || startsWithDot c.component) && p.fits name
        match c.rest with
        | none => pure (chosen.map (dir ++ ·))
        | some rest =>
          let found ← chosen.mapM fun name => find n (dir ++ name ++ ['/']) rest
          pure found.flatten

end Names

namespace Run

def isSpecialGlyph : Glyph → Bool
  | .char _ c => c == '*' || c == '?' || c == '['
  | .mark => false

def matchNames (f : Field) : Run (List Chars) := do
  if (← has "noglob") || !f.any isSpecialGlyph then pure [f.text]
  else
    let pattern := Field.patternText false f
    let found ← Names.find (pattern.length + 1) [] pattern
    if found.isEmpty then pure [f.text] else pure (found.mergeSort Variable.before)

def expandFields (e : Engine) (w : Word) : Run (List Chars) := do
  let segments ← expand e .forFields w
  let ifs := (← separators).getD Division.standardSeparators
  let names ← (divide ifs none segments).mapM matchNames
  pure names.flatten

def expandAll (e : Engine) (ws : List Word) : Run (List Chars) := do
  let fields ← ws.mapM (expandFields e)
  pure fields.flatten

end Run
end TestBench.Script
