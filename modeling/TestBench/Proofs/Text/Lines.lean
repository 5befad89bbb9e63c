import Mathlib.Data.List.DropRight
import TestBench.Text.Space
import TestBench.Text.Split
/-!
# Pieces of a text

Cutting at a separator, joining and cutting off an end are those of lists. What is shown here is how
cutting goes along with what is added to a text, and what cutting off white space leaves.
-/
namespace TestBench

namespace Text

section Lists

variable {α : Type} [BEq α]

theorem splitOn_eq (sep : α) (xs : List α) : splitOn sep xs = xs.splitOn sep := by
  induction xs with
  | nil => rfl
  | cons x xs ih =>
    rw [splitOn, List.splitOn_cons_eq_if_modifyHead, ih]
    cases pieces : xs.splitOn sep with
    | nil => exact absurd pieces (List.splitOn_ne_nil sep xs)
    | cons f fs => rfl

omit [BEq α] in
theorem joinWith_eq_intercalate (sep : List α) (fields : List (List α)) :
    joinWith sep fields = sep.intercalate fields := by
  fun_induction joinWith sep fields with
  | case1 => rfl
  | case2 f => exact List.intercalate_singleton.symm
  | case3 f g fs ih => rw [ih, List.intercalate_cons_cons]

omit [BEq α] in
theorem dropEnd_eq_rdropWhile (p : α → Bool) (xs : List α) : dropEnd p xs = xs.rdropWhile p := rfl

end Lists

variable {α : Type} [BEq α] [LawfulBEq α] {sep : α}

theorem cutAt_append_cons {xs : List α} (h : sep ∉ xs) (ys : List α) :
    cutAt sep (xs ++ sep :: ys) = some (xs, ys) := by
  induction xs with
  | nil => simp [cutAt]
  | cons x xs ih =>
    rw [List.mem_cons, not_or] at h
    have other : (x == sep) = false := beq_eq_false_iff_ne.mpr (Ne.symm h.1)
    simp [cutAt, other, ih h.2]

theorem splitOn_of_notMem {xs : List α} (h : sep ∉ xs) : splitOn sep xs = [xs] := by
  rw [splitOn_eq, List.splitOn_eq_singleton h]

theorem splitOn_append (xs ys : List α) :
    splitOn sep (xs ++ sep :: ys) = splitOn sep xs ++ splitOn sep ys := by
  simp only [splitOn_eq, List.splitOn_append_cons_self]

theorem splitOn_append_cons {xs : List α} (h : sep ∉ xs) (ys : List α) :
    splitOn sep (xs ++ sep :: ys) = xs :: splitOn sep ys := by
  simp only [splitOn_eq, List.splitOn_append_cons_self_of_not_mem h]

omit [LawfulBEq α] in
theorem length_splitOn (sep : α) (xs : List α) :
    (splitOn sep xs).length = xs.count sep + 1 := by
  simp only [splitOn_eq]
  induction xs with
  | nil => rfl
  | cons x xs ih =>
    rw [List.splitOn_cons_eq_if_modifyHead, List.count_cons]
    split
    · rw [List.length_cons, ih]
    · rw [List.length_modifyHead, ih]

/-- A piece holds no separator, and nothing that the whole does not hold. -/
theorem piece_of_mem_splitOn {xs f : List α} (h : f ∈ splitOn sep xs) : sep ∉ f ∧ f ⊆ xs := by
  -- From one separator to the next: what is cut behind the first one is shorter.
  induction size : xs.length using Nat.strongRecOn generalizing xs with
  | ind n ih =>
    by_cases there : sep ∈ xs
    · obtain ⟨front, rest, rfl, plain⟩ := List.eq_append_cons_of_mem there
      rw [splitOn_append_cons plain] at h
      rcases List.mem_cons.mp h with rfl | h
      · exact ⟨plain, List.subset_append_left _ _⟩
      · have shorter : rest.length < n := by
          rw [← size, List.length_append, List.length_cons]
          omega
        obtain ⟨own, inside⟩ := ih _ shorter h rfl
        exact ⟨own, List.subset_append_of_subset_right _ (List.subset_cons_of_subset sep inside)⟩
    · rw [splitOn_of_notMem there, List.mem_singleton] at h
      subst h
      exact ⟨there, List.Subset.refl f⟩

theorem notMem_of_mem_splitOn {xs f : List α} (h : f ∈ splitOn sep xs) : sep ∉ f :=
  (piece_of_mem_splitOn h).1

/-- Lines with a separator after each are cut into the lines and the nothing after the last one. -/
theorem splitOn_flatMap {lines : List (List α)} (h : ∀ l ∈ lines, sep ∉ l) :
    splitOn sep (lines.flatMap (· ++ [sep])) = lines ++ [[]] := by
  induction lines with
  | nil => rfl
  | cons l lines ih =>
    rw [List.flatMap_cons, List.append_assoc, List.singleton_append,
      splitOn_append_cons (h l List.mem_cons_self),
      ih fun m hm => h m (List.mem_cons_of_mem l hm), List.cons_append]

theorem mem_of_mem_trimEnd {c : Char} {cs : List Char} (h : c ∈ trimEnd cs) : c ∈ cs := by
  rw [trimEnd, dropEnd_eq_rdropWhile] at h
  exact (List.rdropWhile_prefix isSpace cs).subset h

theorem trimEnd_append_spaces {blanks : List Char} (spaces : ∀ c ∈ blanks, isSpace c = true)
    (cs : List Char) : trimEnd (cs ++ blanks) = trimEnd cs := by
  have all : ∀ c ∈ blanks.reverse, isSpace c = true := fun c hc => spaces c (List.mem_reverse.mp hc)
  rw [trimEnd, trimEnd, dropEnd, dropEnd, List.reverse_append, List.dropWhile_append_of_pos all]

omit [BEq α] [LawfulBEq α] in
/-- What is cut off at the end is what is to be cut off, and all of it. -/
theorem exists_dropEnd (p : α → Bool) (xs : List α) :
    ∃ dropped, xs = dropEnd p xs ++ dropped ∧ (∀ x ∈ dropped, p x = true) ∧
      ∀ x ∈ (dropEnd p xs).getLast?, p x = false := by
  refine ⟨xs.rtakeWhile p, List.rdropWhile_append_rtakeWhile.symm,
    fun x hx => List.mem_rtakeWhile_imp hx, fun x hx => ?_⟩
  obtain ⟨some, rfl⟩ := List.mem_getLast?_eq_getLast hx
  exact Bool.not_eq_true _ ▸ List.rdropWhile_last_not p xs some

omit [BEq α] [LawfulBEq α] in
theorem dropEnd_congr {p q : α → Bool} {xs : List α} (same : ∀ x ∈ xs, p x = q x) :
    dropEnd p xs = dropEnd q xs := by
  have front (ys : List α) (same : ∀ x ∈ ys, p x = q x) : ys.dropWhile p = ys.dropWhile q := by
    induction ys with
    | nil => rfl
    | cons y ys ih =>
      rw [List.dropWhile_cons, List.dropWhile_cons, same y List.mem_cons_self,
        ih fun x hx => same x (List.mem_cons_of_mem y hx)]
  rw [dropEnd, dropEnd, front xs.reverse fun x hx => same x (List.mem_reverse.mp hx)]

theorem trimEnd_append_cons {c : Char} (hc : isSpace c = false) (xs ys : List Char) :
    trimEnd (xs ++ c :: ys) = xs ++ c :: trimEnd ys := by
  have front : (xs ++ c :: ys).reverse = ys.reverse ++ c :: xs.reverse := by
    simp only [List.reverse_append, List.reverse_cons, List.append_assoc, List.singleton_append]
  have stops : (c :: xs.reverse).dropWhile isSpace = c :: xs.reverse :=
    List.dropWhile_cons_of_neg (by rw [hc]; exact Bool.false_ne_true)
  rw [trimEnd, dropEnd, front, List.dropWhile_append, stops]
  by_cases blank : (ys.reverse.dropWhile isSpace).isEmpty = true
  · rw [if_pos blank, trimEnd, dropEnd, List.isEmpty_iff.mp blank, List.reverse_cons,
      List.reverse_reverse]
    rfl
  · rw [if_neg blank, List.reverse_append, List.reverse_cons, List.reverse_reverse,
      List.append_assoc]
    rfl

omit [BEq α] [LawfulBEq α] in
/-- A text is cut at the last of its separators. -/
theorem exists_last_of_mem {xs : List α} (h : sep ∈ xs) :
    ∃ front last, xs = front ++ sep :: last ∧ sep ∉ last := by
  obtain ⟨ys, zs, he, plain⟩ := List.eq_append_cons_of_mem (List.mem_reverse.mpr h)
  refine ⟨zs.reverse, ys.reverse, ?_, fun hm => plain (List.mem_reverse.mp hm)⟩
  rw [← List.reverse_reverse xs, he, List.reverse_append, List.reverse_cons, List.append_assoc,
    List.singleton_append]

/-- What has no separator in it makes the last piece longer. -/
theorem splitOn_append_of_notMem {ys : List α} (plain : sep ∉ ys) (xs : List α) :
    ∃ front last, splitOn sep xs = front ++ [last] ∧
      splitOn sep (xs ++ ys) = front ++ [last ++ ys] := by
  by_cases h : sep ∈ xs
  · obtain ⟨front, last, rfl, alone⟩ := exists_last_of_mem h
    have both : sep ∉ last ++ ys := fun hm => (List.mem_append.mp hm).elim alone plain
    refine ⟨splitOn sep front, last, ?_, ?_⟩
    · rw [splitOn_append, splitOn_of_notMem alone]
    · rw [List.append_assoc, List.cons_append, splitOn_append, splitOn_of_notMem both]
  · have both : sep ∉ xs ++ ys := fun hm => (List.mem_append.mp hm).elim h plain
    exact ⟨[], xs, splitOn_of_notMem h, splitOn_of_notMem both⟩

/-- White space at the end of a text is in its last piece. -/
theorem splitOn_trimEnd (sep : Char) (hs : isSpace sep = false) (cs : List Char) :
    ∃ front last, splitOn sep cs = front ++ [last] ∧
      splitOn sep (trimEnd cs) = front ++ [trimEnd last] := by
  by_cases h : sep ∈ cs
  · obtain ⟨front, last, rfl, plain⟩ := exists_last_of_mem h
    have plain' : sep ∉ trimEnd last := fun hm => plain (mem_of_mem_trimEnd hm)
    refine ⟨splitOn sep front, last, ?_, ?_⟩
    · rw [splitOn_append, splitOn_of_notMem plain]
    · rw [trimEnd_append_cons hs, splitOn_append, splitOn_of_notMem plain']
  · refine ⟨[], cs, splitOn_of_notMem h, ?_⟩
    exact splitOn_of_notMem fun hm => h (mem_of_mem_trimEnd hm)

end Text

end TestBench
