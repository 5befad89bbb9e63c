import TestBench.Text.Chars
/-!
# Integers in text

The digits at the front of a text, in the base that a mark before them asks for.
-/
namespace TestBench.Number.Integer

def isBinary (c : Char) : Bool := c == '0' || c == '1'

def takeDigits (base : Nat) (isDigit : Char → Bool) (cs : Chars) : Option (Nat × Chars) :=
  let ds := cs.takeWhile isDigit
  if ds.isEmpty then none else some (Text.valueIn base ds, cs.drop ds.length)

/-- Digits with the mark of their base. A mark without digits is a zero with a letter after it. -/
def takeNatural (cs : Chars) : Option (Nat × Chars) :=
  match cs with
  | '0' :: x :: r =>
    if x == 'x' || x == 'X' then some ((takeDigits 16 Text.isHex r).getD (0, x :: r))
    else if x == 'b' || x == 'B' then some ((takeDigits 2 isBinary r).getD (0, x :: r))
    else takeDigits 8 Text.isOctal cs
  | '0' :: r => some (0, r)
  | _ => takeDigits 10 Char.isDigit cs

/-- Digits after blanks and a sign; whether the sign is a minus comes first. -/
def take (cs : Chars) : Option (Bool × Nat × Chars) :=
  match cs.dropWhile Text.isBlankByte with
  | '-' :: r => (takeNatural r).map fun t => (true, t)
  | '+' :: r => (takeNatural r).map fun t => (false, t)
  | r => (takeNatural r).map fun t => (false, t)

end TestBench.Number.Integer
