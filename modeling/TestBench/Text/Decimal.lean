/-!
# Decimal numbers

Writing natural numbers in base ten, with a least width filled by zeros.
-/
namespace TestBench.Decimal

def digit (n : Nat) : Char := Char.ofNat (48 + n % 10)

def render (n : Nat) : List Char :=
  if n < 10 then [digit n] else render (n / 10) ++ [digit n]
termination_by n
decreasing_by omega

def padded (width n : Nat) : List Char :=
  let ds := render n
  List.replicate (width - ds.length) '0' ++ ds

def text (n : Nat) : String := String.ofList (render n)

/-- The value of a row of digits; `none` if a character is no digit or there is none at all. -/
def read? (cs : List Char) : Option Nat :=
  if cs.isEmpty then none
  else cs.foldl (fun acc c => match acc with
    | none => none
    | some v => if c.isDigit then some (v * 10 + (c.toNat - 48)) else none) (some 0)

end TestBench.Decimal
