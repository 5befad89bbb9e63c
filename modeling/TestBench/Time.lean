import TestBench.Text.Decimal
/-!
# Durations and dates

A duration is written in hours, minutes and seconds; the hours go on counting past a day. A date
is written with four digits for the year and two for every other part.
-/
namespace TestBench

structure Duration where
  secs : Nat
  nanos : Nat
deriving DecidableEq, Repr

namespace Duration

def zero : Duration := ⟨0, 0⟩

def ofMillis (ms : Nat) : Duration := ⟨ms / 1000, ms % 1000 * 1000000⟩

def hmsChars (secs : Nat) : List Char :=
  Decimal.padded 2 (secs / 3600) ++ ':' :: Decimal.padded 2 (secs % 3600 / 60)
    ++ ':' :: Decimal.padded 2 (secs % 60)

def hms (d : Duration) : String := String.ofList (hmsChars d.secs)

end Duration

structure Timestamp where
  year : Nat
  month : Nat
  day : Nat
  hour : Nat
  minute : Nat
  second : Nat
deriving DecidableEq, Repr

namespace Timestamp

def render (t : Timestamp) : String :=
  String.ofList (Decimal.padded 4 t.year ++ '-' :: Decimal.padded 2 t.month
    ++ '-' :: Decimal.padded 2 t.day ++ ' ' :: Decimal.padded 2 t.hour
    ++ ':' :: Decimal.padded 2 t.minute ++ ':' :: Decimal.padded 2 t.second)

/-- The date a number of seconds after the first moment of 1970. Years are counted from March, so
that the leap day is the last day of a year. -/
def ofUnix (secs : Nat) : Timestamp :=
  let z := secs / 86400 + 719468
  let era := z / 146097
  let doe := z % 146097
  let yoe := (doe - doe / 1460 + doe / 36524 - doe / 146096) / 365
  let doy := doe - (365 * yoe + yoe / 4 - yoe / 100)
  let mp := (5 * doy + 2) / 153
  let month := if mp < 10 then mp + 3 else mp - 9
  let rest := secs % 86400
  ⟨yoe + era * 400 + (if month ≤ 2 then 1 else 0), month, doy - (153 * mp + 2) / 5 + 1,
    rest / 3600, rest % 3600 / 60, rest % 60⟩

end Timestamp
end TestBench
