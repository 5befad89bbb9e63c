import Mathlib.Data.List.Basic
import TestBench.Plan.Line
import TestBench.Proofs.Text.Lines
/-!
# The fields of a line

A line is a row if it has four commas before the white space at its end. Nothing else is lost of it:
the fields with commas between them are the line again, and every five fields without a comma are
read back as they are, but for the white space at the end of the last one.
-/
namespace TestBench.Plan

open Text (splitOn trimEnd isSpace)

variable {n : Nat} {cs name sub a b flag : List Char}

def Row.fields (r : Row) : List String := [r.testName, r.subTestName, r.paramA, r.paramB, r.flag]

theorem parseChars_of_fields (split : splitOn ',' (trimEnd cs) = [name, sub, a, b, flag]) :
    parseChars n cs =
      .row ⟨n, .ofList name, .ofList sub, .ofList a, .ofList b, .ofList flag⟩ := by
  simp only [parseChars, split]

/-- A line has five fields or is malformed. -/
theorem parseChars_cases (n : Nat) (cs : List Char) :
    (∃ name sub a b flag, splitOn ',' (trimEnd cs) = [name, sub, a, b, flag] ∧ parseChars n cs =
        .row ⟨n, .ofList name, .ofList sub, .ofList a, .ofList b, .ofList flag⟩) ∨
      (trimEnd cs).count ',' ≠ 4 ∧
        parseChars n cs = .malformed ⟨n, (trimEnd cs).count ',' + 1, .ofList (trimEnd cs)⟩ := by
  have count := Text.length_splitOn ',' (trimEnd cs)
  unfold parseChars
  dsimp only
  generalize splitOn ',' (trimEnd cs) = fields at count ⊢
  split
  · exact .inl ⟨_, _, _, _, _, rfl, rfl⟩
  · rename_i other
    refine .inr ⟨fun four => ?_, by rw [count]⟩
    rw [four] at count
    obtain ⟨name, _, rfl⟩ := List.exists_cons_of_length_eq_add_one count
    obtain ⟨sub, _, rfl⟩ := List.exists_cons_of_length_eq_add_one (Nat.succ.inj count)
    obtain ⟨a, b, flag, rfl⟩ := List.length_eq_three.mp (Nat.succ.inj (Nat.succ.inj count))
    exact other name sub a b flag rfl

theorem line_of_row {row : Row} (h : parseChars n cs = .row row) :
    row.lineNumber = n ∧ (trimEnd cs).count ',' = 4 ∧ (∀ f ∈ row.fields, ',' ∉ f.toList) ∧
      ",".intercalate row.fields = .ofList (trimEnd cs) := by
  rcases parseChars_cases n cs with ⟨name, sub, a, b, flag, split, made⟩ | ⟨_, made⟩
  · obtain rfl := Line.row.inj (made.symm.trans h)
    have count := Text.length_splitOn ',' (trimEnd cs)
    rw [split] at count
    refine ⟨rfl, (Nat.succ.inj count).symm, fun f hf => ?_, ?_⟩
    · have there : f.toList ∈ splitOn ',' (trimEnd cs) := by
        have := List.mem_map_of_mem (f := String.toList) hf
        simpa only [split, Row.fields, List.map_cons, List.map_nil, String.toList_ofList] using this
      exact Text.notMem_of_mem_splitOn there
    · have joined : [','].intercalate (splitOn ',' (trimEnd cs)) = trimEnd cs := by
        rw [Text.splitOn_eq, List.intercalate_splitOn]
      apply String.toList_injective
      rw [String.toList_intercalate, String.toList_ofList, ← joined, split]
      simp only [Row.fields, List.map_cons, List.map_nil, String.toList_ofList]
  · exact nomatch made.symm.trans h

/-- Five fields without a comma are read back, whatever white space follows them; at the end of the
last one it does not count. -/
theorem parseChars_intercalate {name sub a b flag : String} {blanks : List Char}
    (plain : ∀ f ∈ [name, sub, a, b, flag], ',' ∉ f.toList)
    (spaces : ∀ c ∈ blanks, isSpace c = true) :
    parseChars n ((",".intercalate [name, sub, a, b, flag]).toList ++ blanks) =
      .row ⟨n, name, sub, a, b, .ofList (trimEnd flag.toList)⟩ := by
  have text : (",".intercalate [name, sub, a, b, flag]).toList =
      [','].intercalate ([name, sub, a, b, flag].map String.toList) := String.toList_intercalate
  have split : splitOn ',' (",".intercalate [name, sub, a, b, flag]).toList =
      [name, sub, a, b].map String.toList ++ [flag.toList] := by
    rw [text, Text.splitOn_eq]
    refine List.splitOn_intercalate ',' (fun f hf => ?_) (List.cons_ne_nil _ _)
    obtain ⟨field, there, rfl⟩ := List.mem_map.mp hf
    exact plain field there
  obtain ⟨front, last, whole, trimmed⟩ := Text.splitOn_trimEnd ',' (by decide)
    (",".intercalate [name, sub, a, b, flag]).toList
  obtain ⟨rfl, same⟩ := List.append_inj' (split.symm.trans whole) rfl
  obtain rfl := List.singleton_inj.mp same
  rw [← Text.trimEnd_append_spaces spaces] at trimmed
  rw [parseChars_of_fields trimmed]
  simp only [String.ofList_toList]

/-- A line is a row exactly if it has four commas before the white space at its end, and then its
fields, with commas between them, are all that stands there. Otherwise it is malformed, and what is
reported of it is what stands there, with one field more than it has commas. Five fields without a
comma and any white space after them make the row of these fields, which is enabled exactly if the
last of them, without the white space at its end, is the flag for it. -/
theorem parse_is_row_iff_four_commas (n : Nat) :
    (∀ raw : String, ∃ line blanks, raw.toList = line ++ blanks ∧
      (∀ c ∈ blanks, isSpace c = true) ∧ (∀ c ∈ line.getLast?, isSpace c = false) ∧
      ((∃ row, parse n raw = .row row) ↔ line.count ',' = 4) ∧
      (∀ row, parse n raw = .row row → row.lineNumber = n ∧ (∀ f ∈ row.fields, ',' ∉ f.toList) ∧
        ",".intercalate row.fields = .ofList line) ∧
      ∀ m, parse n raw = .malformed m →
        m = ⟨n, line.count ',' + 1, .ofList line⟩ ∧ m.fieldCount ≠ fieldsPerRow) ∧
    ∀ name sub a b flag blanks : String, (∀ f ∈ [name, sub, a, b, flag], ',' ∉ f.toList) →
      (∀ c ∈ blanks.toList, isSpace c = true) →
      ∃ row, parse n (",".intercalate [name, sub, a, b, flag] ++ blanks) = .row row ∧
        row = ⟨n, name, sub, a, b, .ofList (trimEnd flag.toList)⟩ ∧
        (row.isEnabled = true ↔ trimEnd flag.toList = "enabled".toList) := by
  constructor
  · intro raw
    obtain ⟨blanks, split, spaces, solid⟩ := Text.exists_dropEnd isSpace raw.toList
    refine ⟨trimEnd raw.toList, blanks, split, spaces, solid, ⟨?_, fun four => ?_⟩, ?_, ?_⟩
    · rintro ⟨row, made⟩
      exact (line_of_row made).2.1
    · rcases parseChars_cases n raw.toList with ⟨name, sub, a, b, flag, _, made⟩ | ⟨other, _⟩
      · exact ⟨_, made⟩
      · exact absurd four other
    · intro row made
      obtain ⟨number, _, fields⟩ := line_of_row made
      exact ⟨number, fields⟩
    · intro m made
      rcases parseChars_cases n raw.toList with ⟨name, sub, a, b, flag, _, row⟩ | ⟨other, said⟩
      · exact nomatch row.symm.trans made
      · obtain rfl := Line.malformed.inj (said.symm.trans made)
        exact ⟨rfl, fun five => other (Nat.succ.inj five)⟩
  · intro name sub a b flag blanks plain spaces
    refine ⟨_, ?_, rfl, ?_⟩
    · rw [parse, String.toList_append]
      exact parseChars_intercalate plain spaces
    · rw [Row.isEnabled, beq_iff_eq, ← String.toList_inj, String.toList_ofList]

/-- White space inside of the fields stays, also when a field is nothing else. -/
theorem parse_is_row_iff_four_commas_of_blanks :
    (',' ∉ "\u2003 ".toList ∧ Text.isSpace '\r' = true) ∧
      parse 3 ",\u2003 , x,y\t,enabled\u00a0 \r" =
        .row ⟨3, "", "\u2003 ", " x", "y\t", "enabled"⟩ := by
  refine ⟨by decide, ?_⟩
  obtain ⟨row, made, rfl, _⟩ := (parse_is_row_iff_four_commas 3).2 "" "\u2003 " " x" "y\t"
    "enabled\u00a0" " \r" (by decide) (List.all_eq_true.mp (by decide))
  exact made

end TestBench.Plan
