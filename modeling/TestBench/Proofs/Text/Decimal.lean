import TestBench.Text.Decimal
/-!
# What digits are worth

The digits of a number are worth that number, with or without zeros in front of them, so two numbers
are never written alike. Zeros stand in front only up to the width that is asked for.
-/
namespace TestBench.Decimal

/-- The value of some digits that come after others. -/
def valueFrom (v : Nat) (cs : List Char) : Nat := cs.foldl (fun v c => v * 10 + (c.toNat - 48)) v

def Digits (cs : List Char) : Prop := ∀ c ∈ cs, c.isDigit = true

theorem isDigit_digit (n : Nat) : (digit n).isDigit = true := by
  have all : ∀ k < 10, (Char.ofNat (48 + k)).isDigit = true := by decide
  exact all (n % 10) (Nat.mod_lt n (by decide))

theorem toNat_digit (n : Nat) : (digit n).toNat - 48 = n % 10 := by
  have all : ∀ k < 10, (Char.ofNat (48 + k)).toNat - 48 = k := by decide
  exact all (n % 10) (Nat.mod_lt n (by decide))

theorem Digits.append {cs ds : List Char} (h : Digits cs) (g : Digits ds) : Digits (cs ++ ds) := by
  intro c hc
  exact (List.mem_append.mp hc).elim (h c) (g c)

theorem digits_single (n : Nat) : Digits [digit n] := by
  intro c hc
  obtain rfl := List.mem_singleton.mp hc
  exact isDigit_digit n

theorem digits_render (n : Nat) : Digits (render n) := by
  fun_induction render n with
  | case1 n small => exact digits_single n
  | case2 n large ih => exact ih.append (digits_single n)

theorem digits_padded (width n : Nat) : Digits (padded width n) := by
  have zeros : Digits (List.replicate (width - (render n).length) '0') := by
    intro c hc
    rw [List.eq_of_mem_replicate hc]
    rfl
  exact zeros.append (digits_render n)

theorem valueFrom_append (v : Nat) (cs ds : List Char) :
    valueFrom v (cs ++ ds) = valueFrom (valueFrom v cs) ds := List.foldl_append

theorem valueFrom_single (v n : Nat) : valueFrom v [digit n] = v * 10 + n % 10 := by
  rw [← toNat_digit n]
  rfl

theorem valueFrom_render (n : Nat) : valueFrom 0 (render n) = n := by
  fun_induction render n with
  | case1 n small =>
    rw [valueFrom_single]
    omega
  | case2 n large ih =>
    rw [valueFrom_append, ih, valueFrom_single]
    omega

theorem valueFrom_zeros (k : Nat) : valueFrom 0 (List.replicate k '0') = 0 := by
  induction k with
  | zero => rfl
  | succ k ih =>
    rw [List.replicate_succ]
    exact ih

theorem valueFrom_padded (width n : Nat) : valueFrom 0 (padded width n) = n := by
  rw [padded, valueFrom_append, valueFrom_zeros, valueFrom_render]

theorem padded_injective {width n m : Nat} (h : padded width n = padded width m) : n = m := by
  rw [← valueFrom_padded width n, h, valueFrom_padded]

theorem render_ne_nil (n : Nat) : render n ≠ [] := by
  unfold render
  split
  · exact List.cons_ne_nil _ _
  · exact List.append_ne_nil_of_right_ne_nil _ (List.cons_ne_nil _ _)

theorem padded_ne_nil (width n : Nat) : padded width n ≠ [] :=
  List.append_ne_nil_of_right_ne_nil _ (render_ne_nil n)

theorem read?_of_digits {cs : List Char} (h : Digits cs) (some : cs ≠ []) :
    read? cs = .some (valueFrom 0 cs) := by
  rw [read?, if_neg fun none => some (List.isEmpty_iff.mp none), valueFrom]
  clear some
  generalize 0 = v
  induction cs generalizing v with
  | nil => rfl
  | cons c cs ih =>
    simp only [List.foldl_cons, h c List.mem_cons_self, if_true]
    exact ih (fun d hd => h d (List.mem_cons_of_mem c hd)) _

theorem read?_padded (width n : Nat) : read? (padded width n) = some n := by
  rw [read?_of_digits (digits_padded width n) (padded_ne_nil width n), valueFrom_padded]

theorem length_render_le {w n : Nat} (h : n < Nat.pow 10 (w + 1)) :
    (render n).length ≤ w + 1 := by
  induction w generalizing n with
  | zero =>
    rw [render, if_pos h]
    exact Nat.le_refl 1
  | succ w ih =>
    rw [render]
    split
    · simp
    · have rest : n / 10 < Nat.pow 10 (w + 1) := Nat.div_lt_of_lt_mul (Nat.mul_comm _ 10 ▸ h)
      simpa using ih rest

theorem le_length_padded (width n : Nat) : width ≤ (padded width n).length := by
  simp only [padded, List.length_append, List.length_replicate]
  omega

theorem length_padded {w n : Nat} (h : n < Nat.pow 10 (w + 1)) :
    (padded (w + 1) n).length = w + 1 := by
  have := length_render_le h
  simp only [padded, List.length_append, List.length_replicate]
  omega

theorem head?_render {n : Nat} (h : n ≠ 0) : (render n).head? ≠ some '0' := by
  fun_induction render n with
  | case1 n small =>
    have all : ∀ k < 10, k ≠ 0 → digit k ≠ '0' := by decide
    exact fun zero => all n small h (Option.some.inj zero)
  | case2 n large ih =>
    obtain ⟨d, ds, front⟩ := List.exists_cons_of_ne_nil (render_ne_nil (n / 10))
    rw [front] at ih ⊢
    exact ih (by omega)

/-- Zeros stand in front of a number only to fill the width. -/
theorem length_padded_of_zero {w n : Nat} (zero : (padded (w + 1) n).head? = some '0') :
    (padded (w + 1) n).length = w + 1 := by
  by_cases short : (render n).length ≤ w + 1
  · simp only [padded, List.length_append, List.length_replicate]
    omega
  · have none : w + 1 - (render n).length = 0 := by omega
    rw [padded, none, List.replicate_zero, List.nil_append] at zero
    have hn : n = 0 := Decidable.not_not.mp fun h => head?_render h zero
    subst hn
    exact absurd (length_render_le (n := 0) (w := w) (Nat.pow_pos (by decide))) short

end TestBench.Decimal
