import TestBench.Script.Pattern
/-!
# Fields

What comes of expanding a word: stretches of text, some of which are divided at separators. The
fields that come of them remember which characters stand for themselves, and where quotes were.
-/
namespace TestBench.Script

/-- A character, escaped if it stands for itself alone, or the place of a quote. -/
inductive Glyph where
  | mark
  | char (escaped : Bool) (c : Char)
deriving DecidableEq, Repr

/-- How a stretch of text is divided: not at all, at separators, or at zeros. -/
inductive Region where
  | whole
  | split
  | zeros
deriving DecidableEq, Repr

structure Segment where
  region : Region
  glyphs : List Glyph
deriving DecidableEq, Repr

namespace Glyph

def char? : Glyph → Option Char
  | .mark => none
  | .char _ c => some c

end Glyph

abbrev Field := List Glyph

namespace Field

def text (f : Field) : Chars := f.filterMap Glyph.char?

def ofText (cs : Chars) : Field := cs.map (.char false)

/-- A field as a pattern. After a bare backslash a character needs no other. -/
def patternText : Bool → Field → Chars
  | _, [] => []
  | _, .mark :: r => patternText false r
  | bare, .char true c :: r => (if bare then [c] else ['\\', c]) ++ patternText false r
  | _, .char false c :: r => c :: patternText (c == '\\') r

def pattern (f : Field) : Pattern := Pattern.ofText (patternText false f)

end Field

namespace Segment

def text (ss : List Segment) : Chars := ss.flatMap fun s => Field.text s.glyphs

def field (ss : List Segment) : Field := ss.flatMap (·.glyphs)

end Segment

/-- The division of text into fields while it goes on. Lists are last first. `cut` is what a last
field would be without the separators at its end. -/
structure Division where
  fields : List Field
  current : Field
  afterBlank : Bool
  afterZeros : Bool
  region : Region
  anyRegion : Bool
  left : Option Nat
  cut : Option Field

namespace Division

def standardSeparators : Chars := [' ', '\t', '\n']

def start (most : Option Nat) : Division := ⟨[], [], false, false, .whole, false, most, none⟩

def isBlankSeparator (c : Char) : Bool := standardSeparators.contains c || c == '\x00'

/-- A character of the last field that may be taken: only blanks at its end go away. -/
def addLast (d : Division) (g : Glyph) (separates blank : Bool) : Division :=
  if blank then { d with cut := some (d.cut.getD d.current), current := g :: d.current }
  else
    { d with
      cut := if separates && d.afterBlank then d.cut else none
      afterBlank := false
      current := g :: d.current }

def addDivided (d : Division) (separators : Chars) (g : Glyph) : Division :=
  match g with
  | .mark => { d with current := g :: d.current }
  | .char _ c =>
    let inZeros := d.region = .zeros
    let separates := c == '\x00' || (!inZeros && separators.contains c)
    let blank := separates && isBlankSeparator c
    if d.left = some 0 then d.addLast g separates blank
    else
      let following := d.afterBlank
      let d := if following then { d with current := if separates then [] else [g] } else d
      if following && blank then d
      else if following then { d with afterBlank := false }
      else if separates then
        let d := if d.afterZeros || inZeros then d else { d with afterBlank := blank }
        if d.current.isEmpty && d.afterBlank then { d with afterBlank := false }
        else match d.left with
          | some 1 => { d with left := some 0, cut := some d.current, current := g :: d.current }
          | n =>
            { d with
              left := n.map (· - 1)
              fields := d.current.reverse :: d.fields
              current := [] }
      else { d with afterBlank := false, current := g :: d.current }

def addSegment (separators : Chars) (d : Division) (s : Segment) : Division :=
  match s.region with
  | .whole => { d with current := s.glyphs.reverse ++ d.current }
  | r =>
    let d := { d with
      afterZeros := d.region = .zeros
      region := r
      anyRegion := true
      afterBlank := false }
    s.glyphs.foldl (fun d g => d.addDivided separators g) d

def finish (d : Division) : List Field :=
  let fields :=
    if d.region = .zeros then d.current.reverse :: d.fields
    else
      let last := d.cut.getD d.current
      if last.isEmpty then d.fields else last.reverse :: d.fields
  fields.reverse

end Division

/-- Divides text into fields, at most so many if there is a limit. -/
def divide (separators : Chars) (most : Option Nat) (ss : List Segment) : List Field :=
  (ss.foldl (Division.addSegment separators) (Division.start most)).finish

end TestBench.Script
