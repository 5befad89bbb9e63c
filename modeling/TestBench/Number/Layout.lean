import TestBench.Number.Binary
import TestBench.Text.Decimal
/-!
# Numbers in a field

How a conversion lays a value out: its digits, a sign, a mark of its base, and padding up to a
width.
-/
namespace TestBench.Number

structure Field where
  left : Bool
  plus : Bool
  space : Bool
  alternate : Bool
  zero : Bool
  width : Nat
  precision : Option Nat
deriving DecidableEq, Repr

namespace Field

def plain : Field := ⟨false, false, false, false, false, 0, none⟩

def fill (f : Field) (zeros : Bool) (sign body : Chars) : Chars :=
  let missing := f.width - (sign.length + body.length)
  if f.left then sign ++ body ++ List.replicate missing ' '
  else if f.zero && zeros then sign ++ List.replicate missing '0' ++ body
  else List.replicate missing ' ' ++ sign ++ body

def signOf (f : Field) (negative : Bool) : Chars :=
  if negative then ['-'] else if f.plus then ['+'] else if f.space then [' '] else []

def text (f : Field) (cs : Chars) : Chars :=
  f.fill false [] (match f.precision with
    | some n => cs.take n
    | none => cs)

def digitsIn (base : Nat) (upper : Bool) (n : Nat) : Chars :=
  let ds := Nat.toDigits base n
  if upper then ds.map Char.toUpper else ds

def leastDigits (f : Field) (n : Nat) (ds : Chars) : Chars :=
  match f.precision with
  | some 0 => if n = 0 then [] else ds
  | some k => List.replicate (k - ds.length) '0' ++ ds
  | none => ds

def integer (f : Field) (n : Int) : Chars :=
  f.fill f.precision.isNone (f.signOf (n < 0)) (f.leastDigits n.natAbs (Decimal.render n.natAbs))

def natural (f : Field) (base : Nat) (upper : Bool) (n : Nat) : Chars :=
  let ds := f.leastDigits n (digitsIn base upper n)
  let ds := if f.alternate && base = 8 && ds.head? != some '0' then '0' :: ds else ds
  let mark := if f.alternate && base = 16 && n != 0 then ['0', if upper then 'X' else 'x'] else []
  f.fill f.precision.isNone mark ds

end Field

namespace Binary

def timesTen (m : Nat) (e : Int) (power : Int) : Nat :=
  let r := ratio m e
  if 0 ≤ power then divideToNearest (r.1 * Nat.pow 10 power.toNat) r.2
  else divideToNearest r.1 (r.2 * Nat.pow 10 (-power).toNat)

def withPoint (alternate : Bool) (whole part : Chars) : Chars :=
  if part.isEmpty && !alternate then whole else whole ++ '.' :: part

/-- Digits before the point and a fixed number of places after it. -/
def fixedParts (m : Nat) (e : Int) (places : Nat) : Chars × Chars :=
  let ds := Decimal.padded (places + 1) (timesTen m e places)
  (ds.take (ds.length - places), ds.drop (ds.length - places))

/-- The power of ten of the first digit. -/
def leadingPower (m : Nat) (e : Int) : Int :=
  let r := ratio m e
  if r.2 ≤ r.1 then ((Decimal.render (r.1 / r.2)).length : Int) - 1
  else
    let size := (Decimal.render (r.2 / r.1)).length
    if r.1 * Nat.pow 10 (size - 1) = r.2 then 1 - (size : Int) else -(size : Int)

/-- One digit and some places more, and the power of ten of the first. -/
def scientificDigits (m : Nat) (e : Int) (places : Nat) : Chars × Int :=
  if m = 0 then (List.replicate (places + 1) '0', 0)
  else
    let power := leadingPower m e
    let n := timesTen m e (places - power)
    if Nat.pow 10 (places + 1) ≤ n then (Decimal.render (n / 10), power + 1)
    else (Decimal.render n, power)

def exponentText (letter : Char) (least : Nat) (power : Int) : Chars :=
  letter :: (if power < 0 then '-' else '+') :: Decimal.padded least power.natAbs

def scientific (alternate : Bool) (ds : Chars) (power : Int) : Chars :=
  withPoint alternate (ds.take 1) (ds.drop 1) ++ exponentText 'e' 2 power

def trimZeros (cs : Chars) : Chars := (cs.reverse.dropWhile (· == '0')).reverse

def general (alternate : Bool) (m : Nat) (e : Int) (precision : Nat) : Chars :=
  let digits := max precision 1
  let (ds, power) := scientificDigits m e (digits - 1)
  if power < -4 || (digits : Int) ≤ power then
    scientific alternate (if alternate then ds else ds.take 1 ++ trimZeros (ds.drop 1)) power
  else
    let (whole, part) := fixedParts m e ((digits : Int) - 1 - power).toNat
    withPoint alternate whole (if alternate then part else trimZeros part)

def leadingBits (p : Precision) : Nat := if p.bits % 4 = 0 then 4 else p.bits % 4

def hexadecimal (p : Precision) (alternate : Bool) (m : Nat) (e : Int) (precision : Option Nat) :
    Chars :=
  let partDigits := (p.bits - leadingBits p) / 4
  if m = 0 then
    withPoint alternate ['0'] (List.replicate (precision.getD 0) '0') ++ exponentText 'p' 1 0
  else
    let shift := min (p.bits - 1 - Nat.log2 m) (e - p.least).toNat
    let full := m * Nat.pow 2 shift
    let power := e - shift + 4 * partDigits
    let kept := min (precision.getD partDigits) partDigits
    let n := divideToNearest full (Nat.pow 16 (partDigits - kept))
    let ds := Nat.toDigits 16 n
    let ds := List.replicate (kept + 1 - ds.length) '0' ++ ds
    let carries := leadingBits p = 4 && kept + 1 < ds.length
    let ds := if carries then ds.dropLast else ds
    let power := if carries then power + 4 else power
    let part := ds.drop 1
    let part := match precision with
      | none => trimZeros part
      | some k => part ++ List.replicate (k - part.length) '0'
    withPoint alternate (ds.take 1) part ++ exponentText 'p' 1 power

end Binary

/-- Lays a number out as one of the conversions `e`, `f`, `g` and `a` does. -/
def Field.binary (f : Field) (p : Precision) (conversion : Char) (b : Binary) : Chars :=
  let upper := conversion.isUpper
  let cased := fun (cs : Chars) => if upper then cs.map Char.toUpper else cs
  let sign := f.signOf b.isNegative
  match b with
  | .infinite _ => f.fill false sign (cased ['i', 'n', 'f'])
  | .invalid _ => f.fill false sign (cased ['n', 'a', 'n'])
  | .finite _ m e =>
    let places := f.precision.getD 6
    match conversion.toLower with
    | 'f' =>
      let (whole, part) := Binary.fixedParts m e places
      f.fill true sign (Binary.withPoint f.alternate whole part)
    | 'e' =>
      let (ds, power) := Binary.scientificDigits m e places
      f.fill true sign (cased (Binary.scientific f.alternate ds power))
    | 'g' => f.fill true sign (cased (Binary.general f.alternate m e places))
    | _ =>
      f.fill true (sign ++ cased ['0', 'x'])
        (cased (Binary.hexadecimal p f.alternate m e f.precision))

end TestBench.Number
