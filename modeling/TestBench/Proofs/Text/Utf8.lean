import TestBench.Proofs.Text.Lines
import TestBench.Text.Utf8
/-!
# Bytes, characters and lines

A newline is a byte that is part of no other character. So cutting a text into lines and decoding
each is the same as decoding the text and cutting that, and what is encoded can be decoded again.
-/
namespace TestBench.Utf8

/-- A character begun as the decoder begins it: no byte below `0x80` can go on with it, and its
value is above zero now or will be after the next byte. -/
structure Partial.Sound (p : Partial) : Prop where
  low : 0x80 ≤ p.low
  value : 0 < p.value ∨ (p.owed ≠ 1 ∧ 0x80 < p.low)

def Begun (s : Option Partial) : Prop := ∀ p, s = some p → p.Sound

theorem begun_none : Begun none := fun _ h => by cases h

theorem begun_some {p : Partial} (h : p.Sound) : Begun (some p) := fun _ e => by
  obtain rfl := Option.some.inj e
  exact h

theorem begin_cases (b : Nat) :
    (b < 0x80 ∧ begin b = ([some (Char.ofNat b)], none)) ∨ begin b = ([none], none) ∨
      ∃ p : Partial, p.Sound ∧ begin b = ([], some p) := by
  unfold begin
  by_cases h₁ : b < 0x80
  · exact .inl ⟨h₁, if_pos h₁⟩
  rw [if_neg h₁]
  by_cases h₂ : b < 0xC2
  · exact .inr (.inl (if_pos h₂))
  rw [if_neg h₂]
  by_cases h₃ : b < 0xE0
  · exact .inr (.inr ⟨_, ⟨Nat.le_refl _, .inl (by simp only; omega)⟩, if_pos h₃⟩)
  rw [if_neg h₃]
  by_cases h₄ : b = 0xE0
  · exact .inr (.inr ⟨_, ⟨by decide, .inr (by decide)⟩, if_pos h₄⟩)
  rw [if_neg h₄]
  by_cases h₅ : b = 0xED
  · exact .inr (.inr ⟨_, ⟨by decide, .inl (by decide)⟩, if_pos h₅⟩)
  rw [if_neg h₅]
  by_cases h₆ : b < 0xF0
  · exact .inr (.inr ⟨_, ⟨Nat.le_refl _, .inl (by simp only; omega)⟩, if_pos h₆⟩)
  rw [if_neg h₆]
  by_cases h₇ : b = 0xF0
  · exact .inr (.inr ⟨_, ⟨by decide, .inr (by decide)⟩, if_pos h₇⟩)
  rw [if_neg h₇]
  by_cases h₈ : b < 0xF4
  · exact .inr (.inr ⟨_, ⟨Nat.le_refl _, .inl (by simp only; omega)⟩, if_pos h₈⟩)
  rw [if_neg h₈]
  by_cases h₉ : b = 0xF4
  · exact .inr (.inr ⟨_, ⟨by decide, .inl (by decide)⟩, if_pos h₉⟩)
  · exact .inr (.inl (if_neg h₉))

theorem begun_begin (b : Nat) : Begun (begin b).2 := by
  rcases begin_cases b with ⟨_, h⟩ | h | ⟨p, hp, h⟩
  · rw [h]
    exact begun_none
  · rw [h]
    exact begun_none
  · rw [h]
    exact begun_some hp

/-- A byte that goes on with a character that owes more leaves one that is still sound. -/
theorem Partial.Sound.next {p : Partial} {b : Nat} (h : p.Sound) (hl : p.low ≤ b) :
    Partial.Sound ⟨0x80, 0xBF, p.owed - 1, p.value * 64 + (b - 0x80)⟩ := by
  refine ⟨Nat.le_refl _, .inl ?_⟩
  have hv := h.value
  simp only
  omega

theorem begun_step {s : Option Partial} (hs : Begun s) (b : Nat) : Begun (step s b).2 := by
  cases s with
  | none => exact begun_begin b
  | some p =>
    simp only [step]
    split
    · rename_i hb
      split
      · exact begun_none
      · exact begun_some ((hs p rfl).next hb.1)
    · exact begun_begin b

theorem step_newline {s : Option Partial} (hs : Begun s) :
    step s 10 = ((if s.isSome then [none] else []) ++ [some '\n'], none) := by
  cases s with
  | none => rfl
  | some p =>
    have hp := (hs p rfl).low
    have hb : ¬(p.low ≤ 10 ∧ 10 ≤ p.high) := by omega
    simp only [step, hb, if_false]
    rfl

theorem toNat_ofNat_of_valid {n : Nat} (h : n.isValidChar) : (Char.ofNat n).toNat = n := by
  rw [Char.ofNat, dif_pos h]
  rfl

theorem ofNat_ne_newline {n : Nat} (h : n ≠ 10) : Char.ofNat n ≠ '\n' := by
  intro he
  by_cases hv : n.isValidChar
  · have ht := congrArg Char.toNat he
    rw [toNat_ofNat_of_valid hv] at ht
    exact h ht
  · rw [Char.ofNat, dif_neg hv] at he
    exact absurd he (by decide)

theorem notMem_step {s : Option Partial} (hs : Begun s) {b : Nat} (hb : b ≠ 10) :
    some '\n' ∉ (step s b).1 := by
  have first : some '\n' ∉ (begin b).1 := by
    rcases begin_cases b with ⟨_, h⟩ | h | ⟨p, _, h⟩
    · rw [h, List.mem_singleton]
      exact fun he => ofNat_ne_newline hb (Option.some.inj he).symm
    · rw [h, List.mem_singleton]
      exact fun he => by cases he
    · rw [h]
      exact List.not_mem_nil
  cases s with
  | none => exact first
  | some p =>
    simp only [step]
    split
    · rename_i hr
      split
      · rename_i ho
        have hp : 0 < p.value := (hs p rfl).value.resolve_right fun h => h.1 ho
        have hv : p.value * 64 + (b - 0x80) ≠ 10 := by omega
        simpa using (ofNat_ne_newline hv).symm
      · exact List.not_mem_nil
    · simpa using first

/-- The decoder as a function of the bytes to come: the pieces that they end, and what is begun. -/
def run : Option Partial → Bytes → List Piece × Option Partial
  | s, [] => ([], s)
  | s, b :: bs =>
    let t := step s b.toNat
    let u := run t.2 bs
    (t.1 ++ u.1, u.2)

theorem foldl_feed (bs : Bytes) (seen : List Piece) (s : Option Partial) :
    bs.foldl Decoder.feed ⟨seen, s⟩ = ⟨(run s bs).1.reverse ++ seen, (run s bs).2⟩ := by
  induction bs generalizing seen s with
  | nil => rfl
  | cons b bs ih =>
    simp only [List.foldl_cons, Decoder.feed, ih, run, List.reverse_append, List.append_assoc]

theorem pieces_eq_run (bs : Bytes) :
    pieces bs = (run none bs).1 ++ if (run none bs).2.isSome then [none] else [] := by
  unfold pieces Decoder.start
  rw [foldl_feed, List.append_nil]
  unfold Decoder.finish
  cases (run none bs).2 with
  | none => simp
  | some p => simp

theorem run_append (s : Option Partial) (xs ys : Bytes) :
    run s (xs ++ ys) =
      ((run s xs).1 ++ (run (run s xs).2 ys).1, (run (run s xs).2 ys).2) := by
  induction xs generalizing s with
  | nil => rfl
  | cons x xs ih => simp only [List.cons_append, run, ih, List.append_assoc]

theorem begun_run {s : Option Partial} (hs : Begun s) (bs : Bytes) : Begun (run s bs).2 := by
  induction bs generalizing s with
  | nil => exact hs
  | cons b bs ih => exact ih (begun_step hs b.toNat)

theorem notMem_run {s : Option Partial} (hs : Begun s) {bs : Bytes} (h : 10 ∉ bs) :
    some '\n' ∉ (run s bs).1 := by
  induction bs generalizing s with
  | nil => exact List.not_mem_nil
  | cons b bs ih =>
    have hb : b.toNat ≠ 10 := by
      intro he
      have : b = 10 := UInt8.toNat_inj.mp he
      exact h (this ▸ List.mem_cons_self)
    simp only [run, List.mem_append, not_or]
    exact ⟨notMem_step hs hb, ih (begun_step hs _) fun hm => h (List.mem_cons_of_mem b hm)⟩

/-- What stands before a newline and what stands after it is cut into pieces apart. -/
theorem pieces_newline (xs ys : Bytes) :
    pieces (xs ++ 10 :: ys) = pieces xs ++ some '\n' :: pieces ys := by
  have hs := step_newline (begun_run begun_none xs)
  rw [pieces_eq_run, pieces_eq_run, pieces_eq_run, run_append]
  simp only [run, UInt8.toNat_ofNat, Nat.reduceMod, hs, List.append_assoc, List.cons_append,
    List.nil_append, Nat.reducePow]

theorem notMem_pieces {bs : Bytes} (h : 10 ∉ bs) : some '\n' ∉ pieces bs := by
  rw [pieces_eq_run, List.mem_append, not_or]
  refine ⟨notMem_run begun_none h, ?_⟩
  split <;> simp

theorem mapM_id_eq_some {ps : List Piece} {cs : List Char} :
    ps.mapM id = some cs ↔ ps = cs.map some := by
  induction ps generalizing cs with
  | nil => cases cs <;> simp
  | cons p ps ih =>
    rw [List.mapM_cons]
    constructor
    · intro h
      obtain ⟨d, hd, h⟩ := Option.bind_eq_some_iff.mp h
      obtain ⟨ds, hds, h⟩ := Option.bind_eq_some_iff.mp h
      obtain rfl := Option.some.inj h
      rw [ih.mp hds, List.map_cons, ← hd]
      rfl
    · intro h
      obtain ⟨d, ds, rfl, rfl, hds⟩ := List.map_eq_cons_iff.mp h.symm
      rw [ih.mpr hds.symm]
      rfl

theorem decode?_eq_some {bs : Bytes} {cs : List Char} :
    decode? bs = some cs ↔ pieces bs = cs.map some := mapM_id_eq_some

@[simp] theorem decode?_nil : decode? [] = some [] := rfl

/-- A text is decoded if what stands before a newline is and what stands after it is. -/
theorem decode?_newline {xs ys : Bytes} {cs : List Char} :
    decode? (xs ++ 10 :: ys) = some cs ↔
      ∃ as bs, decode? xs = some as ∧ decode? ys = some bs ∧ cs = as ++ '\n' :: bs := by
  simp only [decode?_eq_some, pieces_newline]
  constructor
  · intro h
    obtain ⟨as, ds, rfl, ha, hd⟩ := List.map_eq_append_iff.mp h.symm
    obtain ⟨d, bs, rfl, hd, hb⟩ := List.map_eq_cons_iff.mp hd
    obtain rfl := Option.some.inj hd
    exact ⟨as, bs, ha.symm, hb.symm, rfl⟩
  · rintro ⟨as, bs, ha, hb, rfl⟩
    rw [ha, hb, List.map_append, List.map_cons]

theorem notMem_of_decode? {bs : Bytes} {cs : List Char} (h : decode? bs = some cs)
    (hn : 10 ∉ bs) : '\n' ∉ cs := by
  intro hc
  apply notMem_pieces hn
  rw [decode?_eq_some.mp h]
  exact List.mem_map_of_mem hc

/-- The lines of a decoded text are the decoded lines of the text. -/
theorem mapM_decode?_splitOn {bs : Bytes} {cs : List Char} (h : decode? bs = some cs) :
    (Text.splitOn 10 bs).mapM decode? = some (Text.splitOn '\n' cs) := by
  by_cases hn : (10 : UInt8) ∈ bs
  · obtain ⟨xs, ys, rfl, hx⟩ := List.eq_append_cons_of_mem hn
    obtain ⟨as, ds, ha, hd, rfl⟩ := decode?_newline.mp h
    have := mapM_decode?_splitOn hd
    rw [Text.splitOn_append_cons hx, Text.splitOn_append_cons (notMem_of_decode? ha hx)]
    simp [ha, this]
  · rw [Text.splitOn_of_notMem hn, Text.splitOn_of_notMem (notMem_of_decode? h hn)]
    simp [h]
termination_by bs.length

theorem step_last {low high value b : Nat} (hl : low ≤ b) (hh : b ≤ high) :
    step (some ⟨low, high, 1, value⟩) b =
      ([some (Char.ofNat (value * 64 + (b - 0x80)))], none) := by
  simp only [step, and_self, hl, hh, if_true]

theorem step_more {low high owed value b : Nat} (hl : low ≤ b) (hh : b ≤ high) (ho : owed ≠ 1) :
    step (some ⟨low, high, owed, value⟩) b =
      ([], some ⟨0x80, 0xBF, owed - 1, value * 64 + (b - 0x80)⟩) := by
  simp only [step, and_self, hl, hh, if_true, ho, if_false]

theorem begin_two {n : Nat} (hl : 0x80 ≤ n) (hh : n < 0x800) :
    begin (0xC0 + n / 0x40) = ([], some ⟨0x80, 0xBF, 1, n / 0x40⟩) := by
  have h₁ : ¬0xC0 + n / 0x40 < 0x80 := by omega
  have h₂ : ¬0xC0 + n / 0x40 < 0xC2 := by omega
  have h₃ : 0xC0 + n / 0x40 < 0xE0 := by omega
  simp only [begin, h₁, h₂, h₃, if_true, if_false, Nat.add_sub_cancel_left]

/-- The first of three bytes leaves room for the second, as no character is a surrogate. -/
theorem begin_three {n : Nat} (hl : 0x800 ≤ n) (hh : n < 0x10000)
    (hv : n < 0xD800 ∨ 0xDFFF < n) :
    ∃ low high, begin (0xE0 + n / 0x1000) = ([], some ⟨low, high, 2, n / 0x1000⟩) ∧
      low ≤ 0x80 + n / 0x40 % 0x40 ∧ 0x80 + n / 0x40 % 0x40 ≤ high := by
  have h₁ : ¬0xE0 + n / 0x1000 < 0x80 := by omega
  have h₂ : ¬0xE0 + n / 0x1000 < 0xC2 := by omega
  have h₃ : ¬0xE0 + n / 0x1000 < 0xE0 := by omega
  by_cases h₄ : n / 0x1000 = 0
  · refine ⟨0xA0, 0xBF, ?_, by omega, by omega⟩
    rw [h₄]
    rfl
  by_cases h₅ : n / 0x1000 = 0xD
  · refine ⟨0x80, 0x9F, ?_, by omega, by omega⟩
    rw [h₅]
    rfl
  refine ⟨0x80, 0xBF, ?_, by omega, by omega⟩
  have h₆ : ¬0xE0 + n / 0x1000 = 0xE0 := by omega
  have h₇ : ¬0xE0 + n / 0x1000 = 0xED := by omega
  have h₈ : 0xE0 + n / 0x1000 < 0xF0 := by omega
  simp only [begin, h₁, h₂, h₃, h₆, h₇, h₈, if_true, if_false, Nat.add_sub_cancel_left]

theorem begin_four {n : Nat} (hl : 0x10000 ≤ n) (hh : n < 0x110000) :
    ∃ low high, begin (0xF0 + n / 0x40000) = ([], some ⟨low, high, 3, n / 0x40000⟩) ∧
      low ≤ 0x80 + n / 0x1000 % 0x40 ∧ 0x80 + n / 0x1000 % 0x40 ≤ high := by
  by_cases h₁ : n / 0x40000 = 0
  · refine ⟨0x90, 0xBF, ?_, by omega, by omega⟩
    rw [h₁]
    rfl
  by_cases h₂ : n / 0x40000 = 4
  · refine ⟨0x80, 0x8F, ?_, by omega, by omega⟩
    rw [h₂]
    rfl
  refine ⟨0x80, 0xBF, ?_, by omega, by omega⟩
  have h₃ : n / 0x40000 = 1 ∨ n / 0x40000 = 2 ∨ n / 0x40000 = 3 := by omega
  rcases h₃ with h | h | h <;> rw [h] <;> rfl

theorem run_cons_ofNat {n : Nat} (h : n < 0x100) (s : Option Partial) (bs : Bytes) :
    run s (UInt8.ofNat n :: bs) =
      ((step s n).1 ++ (run (step s n).2 bs).1, (run (step s n).2 bs).2) := by
  have hn : (UInt8.ofNat n).toNat = n := UInt8.toNat_ofNat_of_lt' h
  rw [run, hn]

theorem run_encodeChar (c : Char) : run none (encodeChar c) = ([some c], none) := by
  have hc : Char.ofNat c.toNat = c := Char.ofNat_toNat c
  have hv : c.toNat < 0xD800 ∨ 0xDFFF < c.toNat ∧ c.toNat < 0x110000 := c.valid
  unfold encodeChar encodeNat
  generalize c.toNat = n at hc hv
  by_cases one : n < 0x80
  · have hb : step none n = ([some (Char.ofNat n)], none) := if_pos one
    rw [if_pos one, List.map_cons, List.map_nil, run_cons_ofNat (by omega), hb, hc]
    rfl
  rw [if_neg one]
  by_cases two : n < 0x800
  · have hb : step none (0xC0 + n / 0x40) = _ := begin_two (by omega) two
    have hn : n / 0x40 * 64 + (0x80 + n % 0x40 - 0x80) = n := by omega
    rw [if_pos two, List.map_cons, List.map_cons, List.map_nil, run_cons_ofNat (by omega), hb,
      run_cons_ofNat (by omega), step_last (by omega) (by omega), hn, hc]
    rfl
  rw [if_neg two]
  by_cases three : n < 0x10000
  · obtain ⟨low, high, hb, hl, hh⟩ := begin_three (n := n) (by omega) three (by omega)
    have hb : step none (0xE0 + n / 0x1000) = _ := hb
    have hn : (n / 0x1000 * 64 + (0x80 + n / 0x40 % 0x40 - 0x80)) * 64 +
        (0x80 + n % 0x40 - 0x80) = n := by omega
    rw [if_pos three, List.map_cons, List.map_cons, List.map_cons, List.map_nil,
      run_cons_ofNat (by omega), hb, run_cons_ofNat (by omega), step_more hl hh (by omega),
      run_cons_ofNat (by omega), step_last (by omega) (by omega), hn, hc]
    rfl
  rw [if_neg three]
  obtain ⟨low, high, hb, hl, hh⟩ := begin_four (n := n) (by omega) (by omega)
  have hb : step none (0xF0 + n / 0x40000) = _ := hb
  have hn : ((n / 0x40000 * 64 + (0x80 + n / 0x1000 % 0x40 - 0x80)) * 64 +
      (0x80 + n / 0x40 % 0x40 - 0x80)) * 64 + (0x80 + n % 0x40 - 0x80) = n := by omega
  rw [List.map_cons, List.map_cons, List.map_cons, List.map_cons, List.map_nil,
    run_cons_ofNat (by omega), hb, run_cons_ofNat (by omega), step_more hl hh (by omega),
    run_cons_ofNat (by omega), step_more (by omega) (by omega) (by omega),
    run_cons_ofNat (by omega), step_last (by omega) (by omega), hn, hc]
  rfl

theorem run_encode (cs : List Char) : run none (encode cs) = (cs.map some, none) := by
  induction cs with
  | nil => rfl
  | cons c cs ih =>
    rw [show encode (c :: cs) = encodeChar c ++ encode cs from rfl, run_append, run_encodeChar]
    simp only [ih, List.map_cons, List.singleton_append]

theorem decode?_encode (cs : List Char) : decode? (encode cs) = some cs := by
  rw [decode?_eq_some, pieces_eq_run, run_encode]
  exact List.append_nil _

theorem encode_newline (cs ds : List Char) :
    encode (cs ++ '\n' :: ds) = encode cs ++ 10 :: encode ds := by
  rw [encode_append]
  rfl

theorem encode_injective {cs ds : List Char} (h : encode cs = encode ds) : cs = ds := by
  have hd := decode?_encode cs
  rw [h, decode?_encode] at hd
  exact (Option.some.inj hd).symm

theorem ofText_injective {s t : String} (h : ofText s = ofText t) : s = t :=
  String.toList_injective (encode_injective h)

theorem text?_ofText (s : String) : text? (ofText s) = some s := by
  rw [text?, ofText, decode?_encode, Option.map_some, String.ofList_toList]

/-- What follows a text is decoded on its own. -/
theorem decode?_encode_append (cs : List Char) (bs : Bytes) :
    decode? (encode cs ++ bs) = (decode? bs).map (cs ++ ·) := by
  have front : (cs.map some : List Piece).mapM id = some cs := mapM_id_eq_some.mpr rfl
  have cut : pieces (encode cs ++ bs) = cs.map some ++ pieces bs := by
    simp only [pieces_eq_run, run_append, run_encode, List.append_assoc]
  rw [decode?, cut, List.mapM_append, front]
  unfold decode?
  cases (pieces bs).mapM id <;> rfl

theorem high_begin {b : Nat} {p : Partial} (h : (begin b).2 = some p) : p.high ≤ 0xBF := by
  unfold begin at h
  repeat' split at h
  all_goals cases h
  all_goals exact Nat.le_of_ble_eq_true rfl

theorem high_run {s : Option Partial} (hs : ∀ p, s = some p → p.high ≤ 0xBF) (bs : Bytes) :
    ∀ p, (run s bs).2 = some p → p.high ≤ 0xBF := by
  induction bs generalizing s with
  | nil => exact hs
  | cons b bs ih =>
    refine ih fun p hp => ?_
    cases s with
    | none => exact high_begin hp
    | some q =>
      simp only [step] at hp
      split at hp
      · split at hp
        · cases hp
        · exact Option.some.inj hp ▸ Nat.le_refl _
      · exact high_begin hp

/-- The first byte of a character goes on with no other one. -/
theorem encodeChar_lead (c : Char) :
    ∃ b bs, encodeChar c = b :: bs ∧ (b.toNat < 0x80 ∨ 0xC0 ≤ b.toNat) := by
  have hv : c.toNat < 0xD800 ∨ 0xDFFF < c.toNat ∧ c.toNat < 0x110000 := c.valid
  have lead {n : Nat} (hn : n < 0x100) (own : n < 0x80 ∨ 0xC0 ≤ n) :
      (UInt8.ofNat n).toNat < 0x80 ∨ 0xC0 ≤ (UInt8.ofNat n).toNat := by
    rwa [UInt8.toNat_ofNat_of_lt' hn]
  unfold encodeChar encodeNat
  generalize c.toNat = n at hv
  by_cases one : n < 0x80
  · rw [if_pos one]
    exact ⟨_, _, rfl, lead (by omega) (.inl one)⟩
  rw [if_neg one]
  by_cases two : n < 0x800
  · rw [if_pos two]
    exact ⟨_, _, rfl, lead (by omega) (.inr (by omega))⟩
  rw [if_neg two]
  by_cases three : n < 0x10000
  · rw [if_pos three]
    exact ⟨_, _, rfl, lead (by omega) (.inr (by omega))⟩
  rw [if_neg three]
  exact ⟨_, _, rfl, lead (by omega) (.inr (by omega))⟩

/-- What is begun before the first byte of a character is a flaw. -/
theorem run_lead {s : Option Partial} (begun : Begun s) (high : ∀ p, s = some p → p.high ≤ 0xBF)
    {b : UInt8} (lead : b.toNat < 0x80 ∨ 0xC0 ≤ b.toNat) (bs : Bytes) :
    run s (b :: bs) =
      ((if s.isSome then [none] else []) ++ (run none (b :: bs)).1, (run none (b :: bs)).2) := by
  cases s with
  | none => rfl
  | some p =>
    have low := (begun p rfl).low
    have above := high p rfl
    have out : ¬(p.low ≤ b.toNat ∧ b.toNat ≤ p.high) := by omega
    simp only [run, step, if_neg out, Option.isSome_some, if_true, List.cons_append,
      List.nil_append]

/-- A text is decoded as it is also behind bytes that are none. -/
theorem pieces_append_encode (xs : Bytes) (cs : List Char) :
    pieces (xs ++ encode cs) = pieces xs ++ cs.map some := by
  cases cs with
  | nil => rw [show encode [] = [] from rfl, List.append_nil, List.map_nil, List.append_nil]
  | cons c cs =>
    obtain ⟨b, bs, first, lead⟩ := encodeChar_lead c
    have whole : encode (c :: cs) = b :: (bs ++ encode cs) := by
      rw [show encode (c :: cs) = encodeChar c ++ encode cs from rfl, first, List.cons_append]
    have alone := run_encode (c :: cs)
    rw [whole] at alone
    have behind := run_lead (begun_run begun_none xs)
      (high_run (fun p h => by cases h) xs) lead (bs ++ encode cs)
    rw [alone] at behind
    rw [pieces_eq_run, pieces_eq_run, run_append, whole, behind]
    simp only [Option.isSome_none, Bool.false_eq_true, if_false, List.append_nil,
      List.append_assoc]

/-- Text behind some bytes neither mends what is wrong with them nor takes harm from it. -/
theorem decode?_append_encode (xs : Bytes) (cs : List Char) :
    decode? (xs ++ encode cs) = (decode? xs).map (· ++ cs) := by
  have back : (cs.map some : List Piece).mapM id = some cs := mapM_id_eq_some.mpr rfl
  rw [decode?, pieces_append_encode, List.mapM_append, back]
  unfold decode?
  cases (pieces xs).mapM id <;> rfl

theorem decode?_append_newline (xs : Bytes) :
    decode? (xs ++ [10]) = (decode? xs).map (· ++ ['\n']) := decode?_append_encode xs ['\n']

theorem textLossy_ofText (s : String) : textLossy (ofText s) = s := by
  have hp : pieces (ofText s) = s.toList.map some := decode?_eq_some.mp (decode?_encode s.toList)
  rw [textLossy, decodeLossy, hp, List.map_map]
  exact (congrArg String.ofList (List.map_id _)).trans String.ofList_toList

theorem decodeLossy_newline (xs ys : Bytes) :
    decodeLossy (xs ++ 10 :: ys) = decodeLossy xs ++ '\n' :: decodeLossy ys := by
  rw [decodeLossy, pieces_newline, List.map_append]
  rfl

theorem notMem_decodeLossy {bs : Bytes} (h : 10 ∉ bs) : '\n' ∉ decodeLossy bs := by
  intro hm
  obtain ⟨piece, there, same⟩ := List.mem_map.mp hm
  cases piece with
  | none => exact absurd same (by decide)
  | some c =>
    obtain rfl : c = '\n' := same
    exact notMem_pieces h there

theorem step_ne_nil (s : Option Partial) (b : Nat) :
    (step s b).1 ≠ [] ∨ (step s b).2.isSome = true := by
  have first : (begin b).1 ≠ [] ∨ (begin b).2.isSome = true := by
    rcases begin_cases b with ⟨_, h⟩ | h | ⟨p, _, h⟩
    · exact .inl (h ▸ List.cons_ne_nil _ _)
    · exact .inl (h ▸ List.cons_ne_nil _ _)
    · exact .inr (h ▸ rfl)
  cases s with
  | none => exact first
  | some p =>
    simp only [step]
    split
    · split
      · exact .inl (List.cons_ne_nil _ _)
      · exact .inr rfl
    · exact .inl (List.cons_ne_nil _ _)

/-- No byte is read without a piece that it ends or begins. -/
theorem run_ne_nil {s : Option Partial} {bs : Bytes} (h : s.isSome = true ∨ bs ≠ []) :
    (run s bs).1 ≠ [] ∨ (run s bs).2.isSome = true := by
  induction bs generalizing s with
  | nil => exact .inr (h.resolve_right fun full => full rfl)
  | cons b bs ih =>
    rcases step_ne_nil s b.toNat with made | begun
    · exact .inl (List.append_ne_nil_of_left_ne_nil made _)
    · rcases ih (.inl begun) with later | later
      · exact .inl (List.append_ne_nil_of_right_ne_nil _ later)
      · exact .inr later

theorem decodeLossy_eq_nil {bs : Bytes} : decodeLossy bs = [] ↔ bs = [] := by
  refine ⟨fun h => ?_, fun h => h ▸ rfl⟩
  rw [decodeLossy, List.map_eq_nil_iff, pieces_eq_run, List.append_eq_nil_iff] at h
  by_cases none : bs = []
  · exact none
  · rcases run_ne_nil (s := Option.none) (.inr none) with made | begun
    · exact absurd h.1 made
    · rw [if_pos begun] at h
      exact absurd h.2 (List.cons_ne_nil _ _)

theorem decodeLossy_encode (cs : List Char) : decodeLossy (encode cs) = cs := by
  rw [decodeLossy, decode?_eq_some.mp (decode?_encode cs), List.map_map]
  exact List.map_id cs

/-- The lines of a decoded text are the decoded lines, also where they are no text. -/
theorem map_decodeLossy_splitOn (bs : Bytes) :
    (Text.splitOn 10 bs).map decodeLossy = Text.splitOn '\n' (decodeLossy bs) := by
  by_cases hn : (10 : UInt8) ∈ bs
  · obtain ⟨xs, ys, rfl, hx⟩ := List.eq_append_cons_of_mem hn
    rw [Text.splitOn_append_cons hx, decodeLossy_newline,
      Text.splitOn_append_cons (notMem_decodeLossy hx), List.map_cons, map_decodeLossy_splitOn ys]
  · rw [Text.splitOn_of_notMem hn, Text.splitOn_of_notMem (notMem_decodeLossy hn),
      List.map_singleton]
termination_by bs.length

theorem le_of_mem_encodeNat {n m : Nat} (hn : n < 0x110000) (h : m ∈ encodeNat n) :
    m < 0x100 ∧ (m = n ∨ 0x80 ≤ m) := by
  unfold encodeNat at h
  by_cases one : n < 0x80
  · rw [if_pos one, List.mem_singleton] at h
    omega
  rw [if_neg one] at h
  by_cases two : n < 0x800
  · rw [if_pos two] at h
    simp only [List.mem_cons, List.not_mem_nil, or_false] at h
    omega
  rw [if_neg two] at h
  by_cases three : n < 0x10000
  · rw [if_pos three] at h
    simp only [List.mem_cons, List.not_mem_nil, or_false] at h
    omega
  rw [if_neg three] at h
  simp only [List.mem_cons, List.not_mem_nil, or_false] at h
  omega

/-- A byte below `0x80` comes from the character with its number only. -/
theorem mem_of_mem_encode {c : Char} {b : UInt8} {cs : List Char} (small : b.toNat < 0x80)
    (same : b.toNat = c.toNat) (h : b ∈ encode cs) : c ∈ cs := by
  obtain ⟨d, hd, hb⟩ := List.mem_flatMap.mp h
  obtain ⟨m, hm, rfl⟩ := List.mem_map.mp hb
  have hv : d.toNat < 0xD800 ∨ 0xDFFF < d.toNat ∧ d.toNat < 0x110000 := d.valid
  obtain ⟨byte, own⟩ := le_of_mem_encodeNat (by omega) hm
  rw [UInt8.toNat_ofNat_of_lt' byte] at small same
  have number : d.toNat = c.toNat := by omega
  rw [← Char.ofNat_toNat c, ← number, Char.ofNat_toNat d]
  exact hd

theorem notMem_encode {cs : List Char} (h : '\n' ∉ cs) : 10 ∉ encode cs := fun hm =>
  h (mem_of_mem_encode (by decide) (by decide) hm)

theorem ofText_line (s : String) : ofText (s ++ "\n") = encode s.toList ++ [10] := by
  rw [ofText, String.toList_append, show "\n".toList = '\n' :: [] from rfl, encode_newline]
  rfl

end TestBench.Utf8
