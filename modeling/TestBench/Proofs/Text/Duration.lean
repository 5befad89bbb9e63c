import Mathlib.Data.List.Basic
import TestBench.Proofs.Text.Decimal
import TestBench.Proofs.Text.Lines
import TestBench.Time
/-!
# Durations read back

A duration is written in hours, minutes and seconds between colons, and its whole seconds are read
back from that text. The hours go on counting, so no two numbers of seconds are written alike.
-/
namespace TestBench.Duration

open Decimal (Digits valueFrom padded)

/-- The seconds that a text of hours, minutes and seconds stands for. -/
def secondsIn? (cs : List Char) : Option Nat :=
  match Text.splitOn ':' cs with
  | [hours, minutes, seconds] =>
    match Decimal.read? hours, Decimal.read? minutes, Decimal.read? seconds with
    | some h, some m, some s => some (3600 * h + 60 * m + s)
    | _, _, _ => none
  | _ => none

/-- Two digits below sixty. -/
structure IsSixtieth (cs : List Char) : Prop where
  digits : Digits cs
  length : cs.length = 2
  value : valueFrom 0 cs < 60

/-- Digits, two at least, and more only where the number needs them. -/
structure IsHours (cs : List Char) : Prop where
  digits : Digits cs
  length : 2 ≤ cs.length
  lean : cs.head? = some '0' → cs.length = 2

theorem isSixtieth_padded {n : Nat} (h : n < 60) : IsSixtieth (padded 2 n) := by
  refine ⟨Decimal.digits_padded 2 n, Decimal.length_padded (w := 1) ?_, ?_⟩
  · exact Nat.lt_trans h (by decide)
  · rw [Decimal.valueFrom_padded]
    exact h

theorem isHours_padded (n : Nat) : IsHours (padded 2 n) :=
  ⟨Decimal.digits_padded 2 n, Decimal.le_length_padded 2 n, Decimal.length_padded_of_zero⟩

theorem notMem_colon {cs : List Char} (h : Digits cs) : ':' ∉ cs :=
  fun there => absurd (h ':' there) (by decide)

theorem splitOn_hmsChars (n : Nat) : Text.splitOn ':' (hmsChars n) =
    [padded 2 (n / 3600), padded 2 (n % 3600 / 60), padded 2 (n % 60)] := by
  have plain (k : Nat) : ':' ∉ padded 2 k := notMem_colon (Decimal.digits_padded 2 k)
  rw [hmsChars, List.append_assoc, List.cons_append, Text.splitOn_append_cons (plain _),
    Text.splitOn_append_cons (plain _), Text.splitOn_of_notMem (plain _)]

theorem parts_add_up (n : Nat) : 3600 * (n / 3600) + 60 * (n % 3600 / 60) + n % 60 = n := by
  omega

theorem secondsIn?_hmsChars (n : Nat) : secondsIn? (hmsChars n) = some n := by
  simp only [secondsIn?, splitOn_hmsChars, Decimal.read?_padded, parts_add_up]

/-- A duration is written as its hours, minutes and seconds, the last two with two digits below
sixty each and the hours with two digits or as many as they need. They add up to the whole seconds
of the duration, which are read back from the text. So two durations are written alike exactly if
they have as many whole seconds. -/
theorem hms_tells_whole_seconds (d : Duration) :
    (∃ hours minutes seconds, d.hms.toList = hours ++ ':' :: minutes ++ ':' :: seconds ∧
      IsHours hours ∧ IsSixtieth minutes ∧ IsSixtieth seconds ∧
      valueFrom 0 hours = d.secs / 3600 ∧
      3600 * valueFrom 0 hours + 60 * valueFrom 0 minutes + valueFrom 0 seconds = d.secs) ∧
    secondsIn? d.hms.toList = some d.secs ∧
    ∀ e : Duration, d.hms = e.hms ↔ d.secs = e.secs := by
  have text (e : Duration) : e.hms.toList = hmsChars e.secs := String.toList_ofList
  refine ⟨⟨padded 2 (d.secs / 3600), padded 2 (d.secs % 3600 / 60), padded 2 (d.secs % 60),
    text d, isHours_padded _, isSixtieth_padded (by omega), isSixtieth_padded (by omega),
    Decimal.valueFrom_padded _ _, ?_⟩, ?_, fun e => ⟨fun same => ?_, fun same => ?_⟩⟩
  · simp only [Decimal.valueFrom_padded]
    exact parts_add_up d.secs
  · rw [text, secondsIn?_hmsChars]
  · apply Option.some.inj
    rw [← secondsIn?_hmsChars d.secs, ← text, same, text, secondsIn?_hmsChars]
  · rw [hms, hms, same]

end TestBench.Duration
