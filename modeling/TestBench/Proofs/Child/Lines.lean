import TestBench.Child.Readers
import TestBench.Proofs.Text.Utf8
/-!
# Lines of a stream

The lines that are kept of a stream, read off the whole stream: what stands before each newline, and
what stands after the last one unless that is nothing. Each is kept with one newline, at its end.
-/
namespace TestBench.Child

variable {xs : Bytes} {line : List Char}

/-- What stands between the newlines of a stream; an empty piece at the end does not count. -/
def pieces (stream : Bytes) : List Bytes :=
  let all := Text.splitOn lineFeed stream
  if all.getLast? = some [] then all.dropLast else all

def lines (stream : Bytes) : List (List Char) := (pieces stream).map normalLine

@[simp] theorem lines_nil : lines [] = [] := rfl

theorem pieces_append_cons (plain : lineFeed ∉ xs) (ys : Bytes) :
    pieces (xs ++ lineFeed :: ys) = xs :: pieces ys := by
  have full : Text.splitOn lineFeed ys ≠ [] := by
    rw [Text.splitOn_eq]
    exact List.splitOn_ne_nil lineFeed ys
  rw [pieces, Text.splitOn_append_cons plain, List.getLast?_cons_of_ne_nil full,
    List.dropLast_cons_of_ne_nil full]
  dsimp only [pieces]
  split <;> rfl

theorem pieces_of_notMem (plain : lineFeed ∉ xs) (full : xs ≠ []) : pieces xs = [xs] := by
  rw [pieces, Text.splitOn_of_notMem plain]
  exact if_neg fun h => full (Option.some.inj h)

theorem notMem_of_mem_pieces {stream piece : Bytes} (h : piece ∈ pieces stream) :
    lineFeed ∉ piece := by
  dsimp only [pieces] at h
  split at h
  · exact Text.notMem_of_mem_splitOn ((List.dropLast_sublist _).subset h)
  · exact Text.notMem_of_mem_splitOn h

theorem normalLine_eq (raw : Bytes) : normalLine raw = bareLine raw ++ ['\n'] := rfl

/-- The newline that ends a line makes no difference to what is kept of it. -/
theorem normalLine_lineFeed (raw : Bytes) : normalLine (raw ++ [lineFeed]) = normalLine raw := by
  have last : Utf8.decodeLossy (raw ++ [lineFeed]) = Utf8.decodeLossy raw ++ ['\n'] :=
    Utf8.decodeLossy_newline raw []
  rw [normalLine, normalLine, last, Text.dropEnd_eq_rdropWhile,
    List.rdropWhile_concat_pos _ _ _ (by decide), ← Text.dropEnd_eq_rdropWhile]

theorem lines_append_cons (plain : lineFeed ∉ xs) (ys : Bytes) :
    lines (xs ++ lineFeed :: ys) = normalLine (xs ++ [lineFeed]) :: lines ys := by
  rw [lines, pieces_append_cons plain, List.map_cons, normalLine_lineFeed]
  rfl

theorem lines_of_notMem (plain : lineFeed ∉ xs) (full : xs ≠ []) : lines xs = [normalLine xs] := by
  rw [lines, pieces_of_notMem plain full, List.map_singleton]

theorem lines_eq_nil {bytes : Bytes} : lines bytes = [] ↔ bytes = [] := by
  refine ⟨fun none => ?_, fun none => none ▸ rfl⟩
  by_cases ended : lineFeed ∈ bytes
  · obtain ⟨xs, ys, rfl, plain⟩ := List.eq_append_cons_of_mem ended
    rw [lines_append_cons plain] at none
    cases none
  · by_cases full : bytes = []
    · exact full
    · rw [lines_of_notMem ended full] at none
      cases none

theorem exists_of_mem_lines {stream : Bytes} (h : line ∈ lines stream) :
    ∃ front, line = front ++ ['\n'] ∧ '\n' ∉ front := by
  obtain ⟨piece, there, rfl⟩ := List.mem_map.mp h
  refine ⟨bareLine piece, normalLine_eq piece, fun inside => ?_⟩
  exact Utf8.notMem_decodeLossy (notMem_of_mem_pieces there) ((List.rdropWhile_prefix _ _).subset inside)

end TestBench.Child
