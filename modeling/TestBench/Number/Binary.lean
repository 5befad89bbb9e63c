import TestBench.Text.Chars
/-!
# Binary numbers of limited precision

A number is a mantissa times a power of two. What does not fit the precision is rounded to the
nearest neighbour, and halfway to the even one.
-/
namespace TestBench.Number

/-- How many bits a mantissa has, and the range of the power of two that scales it. -/
structure Precision where
  bits : Nat
  least : Int
  greatest : Int
deriving DecidableEq, Repr

def Precision.double : Precision := ⟨53, -1074, 971⟩
def Precision.extended : Precision := ⟨64, -16445, 16320⟩

inductive Binary where
  | finite (negative : Bool) (mantissa : Nat) (exponent : Int)
  | infinite (negative : Bool)
  | invalid (negative : Bool)
deriving DecidableEq, Repr

/-- A number that has been made to fit, and whether it was out of range. -/
structure Fitted where
  value : Binary
  outOfRange : Bool
deriving DecidableEq, Repr

def divideToNearest (num den : Nat) : Nat :=
  let q := num / den
  let r := num % den
  if den < 2 * r || (2 * r == den && q % 2 == 1) then q + 1 else q

def scaleUp (n : Nat) (e : Int) : Nat := if 0 ≤ e then n * Nat.pow 2 e.toNat else n

namespace Binary

def zero : Binary := .finite false 0 0

/-- The number nearest to a quotient. -/
def ofRatio (p : Precision) (negative : Bool) (num den : Nat) : Fitted :=
  if num = 0 then ⟨.finite negative 0 0, false⟩
  else
    let guess := max ((Nat.log2 num : Int) - Nat.log2 den - p.bits) p.least
    let reaches := fun (e : Int) => scaleUp den e * Nat.pow 2 p.bits ≤ scaleUp num (-e)
    let e := if reaches guess then guess + 1 else guess
    let m := divideToNearest (scaleUp num (-e)) (scaleUp den e)
    let exact := scaleUp num (-e) % scaleUp den e == 0
    let full := m = Nat.pow 2 p.bits
    let e := if full then e + 1 else e
    let m := if full then m / 2 else m
    if p.greatest < e then ⟨.infinite negative, true⟩
    else ⟨.finite negative m e, m < Nat.pow 2 (p.bits - 1) && !exact⟩

def isNegative : Binary → Bool
  | .finite n _ _ => n
  | .infinite n => n
  | .invalid n => n

def negate : Binary → Binary
  | .finite n m e => .finite (!n) m e
  | .infinite n => .infinite (!n)
  | .invalid n => .invalid (!n)

def isZero : Binary → Bool
  | .finite _ 0 _ => true
  | _ => false

def ratio (m : Nat) (e : Int) : Nat × Nat := (scaleUp m e, scaleUp 1 (-e))

def signed (negative : Bool) (n : Nat) : Int := if negative then -(n : Int) else n

def add (p : Precision) (a b : Binary) : Binary :=
  match a, b with
  | .finite n m e, .finite n' m' e' =>
    let low := min e e'
    let sum := signed n (scaleUp m (e - low)) + signed n' (scaleUp m' (e' - low))
    let r := ratio sum.natAbs low
    (ofRatio p (sum < 0) r.1 r.2).value
  | .invalid n, _ => .invalid n
  | _, .invalid n => .invalid n
  | .infinite n, .infinite n' => if n = n' then .infinite n else .invalid true
  | .infinite n, _ => .infinite n
  | _, .infinite n => .infinite n

def multiply (p : Precision) (a b : Binary) : Binary :=
  match a, b with
  | .finite n m e, .finite n' m' e' =>
    let r := ratio (m * m') (e + e')
    (ofRatio p (n != n') r.1 r.2).value
  | .invalid n, _ => .invalid n
  | _, .invalid n => .invalid n
  | a, b => if a.isZero || b.isZero then .invalid true else .infinite (a.isNegative != b.isNegative)

/-- The order of numbers; one that is invalid is before no other and after none. -/
def less (a b : Binary) : Bool :=
  match a, b with
  | .invalid _, _ => false
  | _, .invalid _ => false
  | .infinite n, .infinite n' => n && !n'
  | .infinite n, _ => n
  | _, .infinite n => !n
  | .finite n m e, .finite n' m' e' =>
    let low := min e e'
    signed n (scaleUp m (e - low)) < signed n' (scaleUp m' (e' - low))

/-- Whole units of a size `1 / parts`, fractions cut off. -/
def floorIn (parts : Nat) : Binary → Option Nat
  | .finite false m e => let r := ratio m e; some (r.1 * parts / r.2)
  | .finite true 0 _ => some 0
  | _ => none

end Binary

structure Reading where
  fitted : Fitted
  rest : Chars
deriving DecidableEq, Repr

namespace Reading

/-- Powers of ten beyond this leave every range. -/
def farPower : Nat := 6000

def lower (cs : Chars) : Chars := cs.map Char.toLower

/-- A signed exponent after its letter; without digits there is none. -/
def exponentAfter (letter : Char) (cs : Chars) : Int × Chars :=
  match cs with
  | [] => (0, [])
  | c :: r =>
    if c.toLower != letter then (0, cs)
    else
      let (negative, ds) := match r with
        | '-' :: r => (true, r)
        | '+' :: r => (false, r)
        | r => (false, r)
      let digits := ds.takeWhile Char.isDigit
      if digits.isEmpty then (0, cs)
      else
        let n := min (Text.valueIn 10 digits) 100000
        (Binary.signed negative n, ds.drop digits.length)

/-- Digits with a point among them: all digits, how many stand after the point, and the rest. -/
def pointed (isDigit : Char → Bool) (cs : Chars) : Chars × Nat × Chars :=
  let whole := cs.takeWhile isDigit
  match cs.drop whole.length with
  | '.' :: r =>
    let part := r.takeWhile isDigit
    if whole.isEmpty && part.isEmpty then ([], 0, cs)
    else (whole ++ part, part.length, r.drop part.length)
  | r => (whole, 0, r)

def decimal? (p : Precision) (negative : Bool) (cs : Chars) : Option Reading :=
  let (digits, places, r) := pointed Char.isDigit cs
  if digits.isEmpty then none
  else
    let (e, rest) := exponentAfter 'e' r
    let m := Text.valueIn 10 digits
    let power := e - places
    let size := (digits.length : Int) + power
    if m = 0 then some ⟨⟨.finite negative 0 0, false⟩, rest⟩
    else if farPower < size then some ⟨⟨.infinite negative, true⟩, rest⟩
    else if size < -(farPower : Int) then some ⟨⟨.finite negative 0 0, true⟩, rest⟩
    else
      let f := if 0 ≤ power then Binary.ofRatio p negative (m * Nat.pow 10 power.toNat) 1
        else Binary.ofRatio p negative m (Nat.pow 10 (-power).toNat)
      some ⟨f, rest⟩

def hexadecimal? (p : Precision) (negative : Bool) (cs : Chars) : Option Reading :=
  let (digits, places, r) := pointed Text.isHex cs
  if digits.isEmpty then none
  else
    let (e, rest) := exponentAfter 'p' r
    let m := Text.valueIn 16 digits
    let power := e - 4 * places
    if m = 0 then some ⟨⟨.finite negative 0 0, false⟩, rest⟩
    else
      let size := (Nat.log2 m : Int) + power
      if 20000 < size then some ⟨⟨.infinite negative, true⟩, rest⟩
      else if size < -20000 then some ⟨⟨.finite negative 0 0, true⟩, rest⟩
      else
        let r := Binary.ratio m power
        some ⟨Binary.ofRatio p negative r.1 r.2, rest⟩

/-- What may stand in parentheses after the word for an invalid number. -/
def afterInvalid (cs : Chars) : Chars :=
  match cs with
  | '(' :: r =>
    match r.dropWhile fun c => c.isAlphanum || c == '_' with
    | ')' :: r => r
    | _ => cs
  | _ => cs

/-- Reads a number: decimal, hexadecimal, or a word. -/
def take? (p : Precision) (cs : Chars) : Option Reading :=
  let cs := cs.dropWhile Text.isBlankByte
  let (negative, cs) := match cs with
    | '-' :: r => (true, r)
    | '+' :: r => (false, r)
    | r => (false, r)
  let word := fun (s : String) => s.toList.isPrefixOf (lower (cs.take s.length))
  if word "infinity" then some ⟨⟨.infinite negative, false⟩, cs.drop 8⟩
  else if word "inf" then some ⟨⟨.infinite negative, false⟩, cs.drop 3⟩
  else if word "nan" then some ⟨⟨.invalid negative, false⟩, afterInvalid (cs.drop 3)⟩
  else
    let prefixed := word "0x"
    match if prefixed then hexadecimal? p negative (cs.drop 2) else none with
    | some r => some r
    | none => decimal? p negative cs

end Reading
end TestBench.Number
