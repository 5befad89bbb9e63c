import Mathlib.Data.List.Basic
import TestBench.Text.Style
/-!
# Color codes deleted

A text without escape characters is what is left of it when it has been colored and the color codes
have been deleted, whatever stands before and after it.
-/
namespace TestBench.Style

variable {cs : List Char}

theorem strip_append (plain : escape ∉ cs) (rest : List Char) :
    strip (cs ++ rest) = cs ++ strip rest := by
  induction cs with
  | nil => rfl
  | cons c cs ih =>
    rw [List.mem_cons, not_or] at plain
    have other : (c == escape) = false := beq_eq_false_iff_ne.mpr (Ne.symm plain.1)
    have onward := ih plain.2
    rw [strip] at onward
    simp only [strip, List.cons_append, stripFrom, other, Bool.false_eq_true, if_false, onward]

theorem strip_opening (s : Style) (rest : List Char) : strip (s.opening ++ rest) = strip rest := by
  cases s <;> rfl

theorem strip_closing (rest : List Char) : strip (closing ++ rest) = strip rest := rfl

/-- A style is started again only after an end that the text holds itself. -/
theorem restart_of_plain (s : Style) (plain : escape ∉ cs) : s.restart cs = cs := by
  fun_induction restart s cs with
  | case1 => rfl
  | case2 r ih => exact absurd List.mem_cons_self plain
  | case3 c r _ ih => rw [ih fun there => plain (List.mem_cons_of_mem c there)]

theorem strip_wrap (s : Style) (plain : escape ∉ cs) (rest : List Char) :
    strip (s.wrap cs ++ rest) = cs ++ strip rest := by
  rw [wrap, restart_of_plain s plain, List.append_assoc, List.append_assoc, strip_opening,
    strip_append plain, strip_closing]

end TestBench.Style
