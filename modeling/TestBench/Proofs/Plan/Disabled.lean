import TestBench.Proofs.Plan.Reading
import TestBench.Proofs.Run.Records
/-!
# Lines that are not executed

The header of a results file and the lines of rows that are not executed are, as lines of a plan,
rows that are not to be executed either, and a name made of the fields of a row fits in a field
again.
-/
namespace TestBench.Plan

open Text (splitOn trimEnd)

def Fits (s : String) : Prop := ',' ∉ s.toList ∧ '\n' ∉ s.toList

instance (s : String) : Decidable (Fits s) := inferInstanceAs (Decidable (_ ∧ _))

/-- A line that stands, whatever its number, for a row that is not to be executed. -/
structure Inert (cs : List Char) : Prop where
  line : '\n' ∉ cs
  solid : isBlank cs = false
  row : ∀ n, ∃ row, parseChars n cs = .row row ∧ row.isEnabled = false ∧ Fits row.displayName

theorem trimEnd_eq_self {cs : List Char} {c : Char} (h : Text.isSpace c = false) :
    trimEnd (cs ++ [c]) = cs ++ [c] := by
  rw [trimEnd, Text.dropEnd, List.reverse_append, List.reverse_singleton, List.singleton_append,
    List.dropWhile_cons_of_neg (by simp [h]), List.reverse_cons, List.reverse_reverse]

theorem Fits.append {s t : String} (hs : Fits s) (ht : Fits t) : Fits (s ++ t) := by
  simp only [Fits, String.toList_append, List.mem_append, not_or]
  exact ⟨⟨hs.1, ht.1⟩, hs.2, ht.2⟩

theorem Fits.displayName {row : Row} (name : Fits row.testName) (sub : Fits row.subTestName) :
    Fits row.displayName := by
  unfold Row.displayName
  split
  · exact name
  · exact (name.append (by decide)).append sub

/-- A line of five fields that does not end in white space, and whose last field is no flag that is
known. -/
theorem Inert.of_fields {cs : List Char} (name sub a b flag : String) (line : '\n' ∉ cs)
    (trimmed : trimEnd cs = cs)
    (fields : splitOn ',' cs = [name.toList, sub.toList, a.toList, b.toList, flag.toList])
    (off : (flag == "enabled") = false) (hn : Fits name) (hs : Fits sub) : Inert cs := by
  have solid : isBlank cs = false := by
    rw [isBlank, trimmed]
    cases cs with
    | nil => simp [splitOn] at fields
    | cons c cs => rfl
  refine ⟨line, solid, fun n => ⟨⟨n, name, sub, a, b, flag⟩, ?_, off, hn.displayName hs⟩⟩
  simp only [parseChars, trimmed, fields, String.ofList_toList]

theorem inert_header : Inert Records.resultsHeader.toList := by
  refine .of_fields "Test Name" "Result" "Passes" "Fails" "Timeouts" ?_ ?_ ?_ ?_ ?_ ?_ <;> decide

theorem inert_notExecuted {name : String} (h : Fits name) :
    Inert (Records.notExecutedRow name).toList := by
  have split : (Records.notExecutedRow name).toList =
      name.toList ++ ',' :: "NOT_EXECUTED,,,".toList := String.toList_append
  have line : '\n' ∉ (Records.notExecutedRow name).toList := by
    rw [Records.notExecutedRow, String.toList_append, List.mem_append, not_or]
    exact ⟨h.2, by decide⟩
  have trimmed : trimEnd (Records.notExecutedRow name).toList =
      (Records.notExecutedRow name).toList := by
    have last : (Records.notExecutedRow name).toList =
        (name.toList ++ ",NOT_EXECUTED,,".toList) ++ [','] := by
      rw [split, List.append_assoc]
      rfl
    rw [last, trimEnd_eq_self (by decide)]
  have fields : splitOn ',' (Records.notExecutedRow name).toList =
      name.toList :: splitOn ',' "NOT_EXECUTED,,,".toList := by
    rw [split, Text.splitOn_append_cons h.1]
  exact .of_fields name "NOT_EXECUTED" "" "" "" line trimmed (fields.trans rfl) (by decide) h
    (by decide)

end TestBench.Plan
