import TestBench.Text.Chars
/-!
# Names in messages

How a tool shows a name that it was given: so that a shell would read it back, or between quotes
with escapes.
-/
namespace TestBench.Tool.Quote

def escapeLetter (c : Char) : Option Char :=
  if c == '\x07' then some 'a' else if c == '\x08' then some 'b' else if c == '\x0c' then some 'f'
  else if c == '\n' then some 'n' else if c == '\r' then some 'r' else if c == '\t' then some 't'
  else if c == '\x0b' then some 'v' else none

def octal (c : Char) : Chars :=
  let n := c.toNat
  ['\\', Char.ofNat (48 + n / 64), Char.ofNat (48 + n / 8 % 8), Char.ofNat (48 + n % 8)]

def escape (c : Char) : Chars :=
  match escapeLetter c with
  | some l => ['\\', l]
  | none => octal c

def plain (cs : Chars) : Chars :=
  '\'' :: cs.flatMap (fun c =>
    if c == '\'' || c == '\\' then ['\\', c]
    else if Text.isPrintable c then [c] else escape c) ++ ['\'']

def isSpecial (c : Char) : Bool :=
  "\"$&()*;<=>[^\x60|! ?\\'".toList.contains c

/-- Whether a character asks for quotes; some do so only in front, braces only alone. -/
def asksAt (whole : Chars) (first : Bool) (c : Char) : Bool :=
  isSpecial c || !Text.isPrintable c
    || (first && (c == '#' || c == '~'))
    || (whole.length == 1 && (c == '\x7b' || c == '\x7d'))

def asks (cs : Chars) : Bool :=
  match cs with
  | [] => true
  | c :: r => asksAt cs true c || r.any (asksAt cs false)

/-- Characters that mean themselves between double quotes as well. -/
def isMildAt (whole : Chars) (first : Bool) (c : Char) : Bool :=
  c.isAlphanum || "%+,-./:]_ '".toList.contains c
    || (first && (c == '#' || c == '~'))
    || (whole.length == 1 && (c == '\x7b' || c == '\x7d'))

def isMild (cs : Chars) : Bool :=
  match cs with
  | [] => true
  | c :: r => isMildAt cs true c && r.all (isMildAt cs false)

/-- What stands between the outer single quotes; `open` tells that escapes are being read. -/
def segments : Bool → Chars → Chars
  | _, [] => []
  | isOpen, c :: r =>
    if c == '\'' then '\'' :: '\\' :: '\'' :: '\'' :: segments false r
    else if Text.isPrintable c then (if isOpen then ['\'', '\''] else []) ++ c :: segments false r
    else (if isOpen then [] else ['\'', '$', '\'']) ++ escape c ++ segments true r

def always (cs : Chars) : Chars :=
  if cs.contains '\'' && isMild cs then '"' :: cs ++ ['"']
  else '\'' :: segments false cs ++ ['\'']

def ifNeeded (cs : Chars) : Chars := if asks cs then always cs else cs

/-- As `ifNeeded`, but a colon is a reason for quotes, since one follows the name. -/
def beforeColon (cs : Chars) : Chars := if asks cs || cs.contains ':' then always cs else cs

end TestBench.Tool.Quote
