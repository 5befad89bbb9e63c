import Mathlib.Data.List.Basic
import TestBench.Console.Notice
import TestBench.Proofs.Text.Decimal
/-!
# Texts without escape characters

Numbers, durations, dates and the ends of children are written without escape characters. So a text
that is put together holds one only if it was given one.
-/
namespace TestBench.Console

open Style (escape)

/-- A text without escape characters. -/
def Plain (s : String) : Prop := escape ∉ s.toList

instance (s : String) : Decidable (Plain s) := inferInstanceAs (Decidable (escape ∉ s.toList))

theorem plain_append {s t : String} : Plain (s ++ t) ↔ Plain s ∧ Plain t := by
  simp only [Plain, String.toList_append, List.mem_append, not_or]

theorem plain_empty : Plain "" := by decide

theorem plain_newline : Plain "\n" := by decide

theorem plain_newlines : Plain "\n\n" := by decide

theorem plain_intercalate {sep : String} {ts : List String} (h : Plain sep)
    (all : ∀ t ∈ ts, Plain t) : Plain (sep.intercalate ts) := by
  rw [Plain, String.toList_intercalate]
  induction ts with
  | nil => exact List.not_mem_nil
  | cons t ts ih =>
    obtain ⟨first, others⟩ := List.forall_mem_cons.mp all
    cases ts with
    | nil =>
      rw [List.map_singleton, List.intercalate_singleton]
      exact first
    | cons u us =>
      rw [List.map_cons, List.map_cons, List.intercalate_cons_cons, List.mem_append,
        List.mem_append, not_or, not_or]
      exact ⟨⟨first, h⟩, ih others⟩

theorem escape_notMem_digits {cs : List Char} (h : Decimal.Digits cs) : escape ∉ cs :=
  fun there => absurd (h escape there) (by decide)

theorem plain_decimal (n : Nat) : Plain (Decimal.text n) := by
  rw [Plain, Decimal.text, String.toList_ofList]
  exact escape_notMem_digits (Decimal.digits_render n)

theorem plain_hms (d : Duration) : Plain d.hms := by
  have part (n : Nat) : escape ∉ Decimal.padded 2 n :=
    escape_notMem_digits (Decimal.digits_padded 2 n)
  have mark : escape ≠ ':' := by decide
  simp [Plain, Duration.hms, Duration.hmsChars, part, mark]

theorem plain_timestamp (t : Timestamp) : Plain t.render := by
  have part (w n : Nat) : escape ∉ Decimal.padded w n :=
    escape_notMem_digits (Decimal.digits_padded w n)
  have marks : escape ≠ '-' ∧ escape ≠ ' ' ∧ escape ≠ ':' := by decide
  simp [Plain, Timestamp.render, part, marks]

theorem escape_notMem_toDigits (n : Nat) : escape ∉ Nat.toDigits 16 n := by
  have digit : ∀ k < 16, escape ≠ Nat.digitChar k := by decide
  induction n using Nat.strongRecOn with
  | ind n ih =>
    rw [Nat.toDigits_eq_if (by decide)]
    split
    · rename_i small
      rw [List.mem_singleton]
      exact digit n small
    · rw [List.mem_append, List.mem_singleton, not_or]
      exact ⟨ih (n / 16) (by omega), digit (n % 16) (Nat.mod_lt n (by decide))⟩

theorem plain_signalText (n : Nat) : Plain (Child.Status.signalText n) := by
  have named {name : String} (h : Child.Status.signalName n = some name) : Plain name := by
    unfold Child.Status.signalName at h
    split at h
    all_goals first
      | exact Option.some.inj h ▸ by decide
      | cases h
  rw [Child.Status.signalText]
  split
  · rename_i name h
    simp only [plain_append]
    exact ⟨⟨⟨plain_decimal n, by decide⟩, named h⟩, by decide⟩
  · exact plain_decimal n

theorem plain_status (s : Child.Status) : Plain s.text := by
  rw [Child.Status.text]
  split
  · exact plain_append.mpr ⟨by decide, plain_decimal _⟩
  · rw [plain_append, plain_append]
    refine ⟨⟨by decide, plain_signalText _⟩, ?_⟩
    split <;> decide
  · exact plain_append.mpr ⟨by decide, plain_signalText _⟩
  · split
    · decide
    · have signed : Plain (Child.Status.signedText s.word) := by
        rw [Child.Status.signedText]
        split
        · exact plain_decimal _
        · exact plain_append.mpr ⟨by decide, plain_decimal _⟩
      rw [plain_append, plain_append, plain_append]
      refine ⟨⟨⟨by decide, signed⟩, by decide⟩, ?_⟩
      rw [Plain, String.toList_ofList]
      exact escape_notMem_toDigits _

theorem plain_message {m : Plan.Malformed} (h : Plain m.content) : Plain m.message := by
  unfold Plan.Malformed.message
  simp only [plain_append]
  exact ⟨⟨⟨⟨⟨⟨⟨⟨by decide, plain_decimal _⟩, by decide⟩, plain_decimal _⟩, by decide⟩,
    plain_decimal _⟩, by decide⟩, h⟩, by decide⟩

theorem plain_displayName {row : Plan.Row} (name : Plain row.testName)
    (sub : Plain row.subTestName) : Plain row.displayName := by
  rw [Plan.Row.displayName]
  split
  · exact name
  · exact plain_append.mpr ⟨plain_append.mpr ⟨name, by decide⟩, sub⟩

end TestBench.Console
