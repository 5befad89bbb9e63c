import TestBench.Toml.Value
import TestBench.Toml.Text
import TestBench.Text.Decimal
import TestBench.Text.Split
/-!
# TOML numbers, truth values and dates

Values that are written without quotes or brackets.
-/
namespace TestBench.Toml

/-- Digits in groups that are set off by single underscores. -/
def ungroup (ok : Char → Bool) (cs : List Char) : Option (List Char) :=
  let groups := Text.splitOn '_' cs
  if groups.all (fun g => !g.isEmpty && g.all ok) then some groups.flatten else none

def valueIn (base : Nat) (cs : List Char) : Nat :=
  cs.foldl (fun v c => v * base + (hexDigit? c).getD 0) 0

def isHexDigit (c : Char) : Bool := (hexDigit? c).isSome
def isOctalDigit (c : Char) : Bool := '0' ≤ c && c ≤ '7'
def isBinaryDigit (c : Char) : Bool := c == '0' || c == '1'

/-- Decimal digits without a needless zero in front. -/
def wholePart (cs : List Char) : Option (List Char) :=
  match ungroup Char.isDigit cs with
  | none => none
  | some ds => if 1 < ds.length && ds.head? == some '0' then none else some ds

def splitSign : List Char → Bool × List Char
  | '-' :: r => (true, r)
  | '+' :: r => (false, r)
  | cs => (false, cs)

/-- Integers have to fit 128 bits, with or without sign. -/
def inRange (n : Int) : Bool := -(Nat.pow 2 127 : Int) ≤ n && n < Nat.pow 2 128

def magnitude : List Char → Option Nat
  | '0' :: 'x' :: r => (ungroup isHexDigit r).map (valueIn 16)
  | '0' :: 'o' :: r => (ungroup isOctalDigit r).map (valueIn 8)
  | '0' :: 'b' :: r => (ungroup isBinaryDigit r).map (valueIn 2)
  | cs => (wholePart cs).map (valueIn 10)

def integer? (cs : List Char) : Option Int :=
  let n := match cs with
    | '-' :: r => (wholePart r).map fun ds => -(valueIn 10 ds : Int)
    | '+' :: r => (wholePart r).map fun ds => (valueIn 10 ds : Int)
    | _ => (magnitude cs).map fun v => (v : Int)
  n.filter inRange

/-- The least number that rounds to infinity in double precision. -/
def overflowBound : Nat := Nat.pow 2 1024 - Nat.pow 2 970

/-- Whether digits with a decimal exponent stay below the bound. -/
def isFinite (digits : List Char) (exponent : Int) : Bool :=
  let v := valueIn 10 digits
  if v = 0 then true
  else if (digits.length : Int) + exponent < 0 then true
  else if 400 + (digits.length : Int) < exponent then false
  else if 0 ≤ exponent then decide (v * Nat.pow 10 exponent.toNat < overflowBound)
  else decide (v < overflowBound * Nat.pow 10 (-exponent).toNat)

def exponentPart (cs : List Char) : Option Int :=
  let s := splitSign cs
  (ungroup Char.isDigit s.2).map fun ds =>
    if s.1 then -(valueIn 10 ds : Int) else (valueIn 10 ds : Int)

def isFloat (cs : List Char) : Bool :=
  let body := (splitSign cs).2
  if body == ['i', 'n', 'f'] || body == ['n', 'a', 'n'] then true
  else
    let mantissa := body.takeWhile fun c => c != 'e' && c != 'E'
    let tail := body.drop mantissa.length
    let exponent := match tail with
      | [] => some 0
      | _ :: e => exponentPart e
    match Text.cutAt '.' mantissa, exponent with
    | none, some e =>
      match wholePart mantissa with
      | some ds => !tail.isEmpty && isFinite ds e
      | none => false
    | some (front, back), some e =>
      match wholePart front, ungroup Char.isDigit back with
      | some ds, some fs => isFinite (ds ++ fs) (e - (fs.length : Int))
      | _, _ => false
    | _, none => false

def twoDigits? : List Char → Option (Nat × List Char)
  | a :: b :: r =>
    if a.isDigit && b.isDigit then some (valueIn 10 [a, b], r) else none
  | _ => none

def daysIn (year month : Nat) : Nat :=
  if month = 2 then
    if year % 4 = 0 && (year % 100 != 0 || year % 400 = 0) then 29 else 28
  else if month = 4 || month = 6 || month = 9 || month = 11 then 30 else 31

def date? (cs : List Char) : Option (List Char) :=
  match twoDigits? cs with
  | none => none
  | some (century, r) =>
    match twoDigits? r with
    | some (years, '-' :: r) =>
      match twoDigits? r with
      | some (month, '-' :: r) =>
        match twoDigits? r with
        | some (day, r) =>
          if 1 ≤ month && month ≤ 12 && 1 ≤ day && day ≤ daysIn (century * 100 + years) month
          then some r else none
        | none => none
      | _ => none
    | _ => none

def fraction? (cs : List Char) : Option (List Char) :=
  match cs with
  | '.' :: r => if (r.takeWhile Char.isDigit).isEmpty then none else some (r.dropWhile Char.isDigit)
  | _ => some cs

/-- A time of day, the seconds being optional; answers with what follows it. -/
def time? (cs : List Char) : Option (List Char) :=
  match twoDigits? cs with
  | some (hour, ':' :: r) =>
    match twoDigits? r with
    | some (minute, r) =>
      if 23 < hour || 59 < minute then none
      else match r with
        | ':' :: r =>
          match twoDigits? r with
          | some (second, r) => if 60 < second then none else fraction? r
          | none => none
        | _ => some r
    | none => none
  | _ => none

def isOffset (cs : List Char) : Bool :=
  match cs with
  | [] => true
  | ['Z'] => true
  | ['z'] => true
  | c :: r =>
    if c == '+' || c == '-' then
      match twoDigits? r with
      | some (hour, ':' :: r) =>
        match twoDigits? r with
        | some (minute, []) => hour ≤ 23 && minute ≤ 59
        | _ => false
      | _ => false
    else false

def isMoment (cs : List Char) : Bool :=
  match date? cs with
  | some [] => true
  | some (c :: r) =>
    if c == 'T' || c == 't' || c == ' ' then
      match time? r with
      | some rest => isOffset rest
      | none => false
    else false
  | none => time? cs == some []

def isScalarChar (c : Char) : Bool :=
  c.isAlphanum || c == '+' || c == '-' || c == '.' || c == ':' || c == '_'

/-- The text of a bare value. A date and a time may be set apart by one space. -/
def scalarText (cs : List Char) : List Char × List Char :=
  let front := cs.takeWhile isScalarChar
  let rest := cs.dropWhile isScalarChar
  match rest with
  | ' ' :: d :: r =>
    if d.isDigit && date? front == some [] then
      (front ++ ' ' :: (d :: r).takeWhile isScalarChar, (d :: r).dropWhile isScalarChar)
    else (front, rest)
  | _ => (front, rest)

def scalarValue (cs : List Char) : Option Value :=
  if cs == ['t', 'r', 'u', 'e'] then some (.boolean true)
  else if cs == ['f', 'a', 'l', 's', 'e'] then some (.boolean false)
  else match integer? cs with
    | some n => some (.integer n)
    | none =>
      if isFloat cs then some .float
      else if isMoment cs then some .moment
      else none

def scalar? (cs : List Char) : Option (Value × List Char) :=
  let t := scalarText cs
  (scalarValue t.1).map fun v => (v, t.2)

end TestBench.Toml
