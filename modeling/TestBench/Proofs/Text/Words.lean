import Mathlib.Data.List.Basic
import TestBench.Text.Words
/-!
# Words read back

Every chunk of a word is written in a quoting that can hold it, so reading the written word gives
the word again, and reading the line gives the words between the blanks. A line of words that hold
a NUL is not quoted, but then it shows the NUL, so it is never taken for a line that is.
-/
namespace TestBench.Words

variable {k : Quoting} {q : Choice} {c : Char} {cs w rest : List Char}

def Choice.allows (q : Choice) : Quoting → Bool
  | .bare => q.bare
  | .single => q.single
  | .double => q.double

def Quoting.suits : Quoting → Char → Bool
  | .bare => bareOk
  | .single => singleOk
  | .double => doubleOk

/-- What a quoting can hold so that it is read back. In double quotes every character can stand, as
those with a meaning there are escaped. -/
def Quoting.Holds : Quoting → Char → Prop
  | .bare, c => bareOk c = true
  | .single, c => c ≠ '\''
  | .double, _ => True

theorem allows_pick (h : q.any = true) : q.allows q.pick = true := by
  obtain ⟨bare, single, double⟩ := q
  cases bare <;> cases single <;> simp_all [Choice.any, Choice.pick, Choice.allows]

theorem allows_narrow (q : Choice) (k : Quoting) (c : Char) :
    (q.narrow c).allows k = (q.allows k && k.suits c) := by
  cases k <;> rfl

theorem Quoting.holds_of_suits (h : k.suits c = true) : k.Holds c := by
  cases k with
  | bare => exact h
  | single =>
    rintro rfl
    exact absurd h (by decide)
  | double => trivial

/-- The quoting of a chunk was possible from the start and suits every character of it. -/
theorem chunk_suits (q : Choice) (cs : List Char) (h : q.any = true) :
    q.allows (chunk q cs).2.1 = true ∧ ∀ c ∈ (chunk q cs).1, (chunk q cs).2.1.suits c = true := by
  induction cs generalizing q with
  | nil => exact ⟨allows_pick h, List.forall_mem_nil _⟩
  | cons c r ih =>
    simp only [chunk]
    split
    · rename_i onward
      obtain ⟨allowed, suits⟩ := ih _ onward
      rw [allows_narrow, Bool.and_eq_true] at allowed
      exact ⟨allowed.1, List.forall_mem_cons.mpr ⟨allowed.2, suits⟩⟩
    · exact ⟨allows_pick h, List.forall_mem_nil _⟩

/-- Every character but the caret can stand in quotes of one of the two kinds. -/
theorem any_narrow (h : c ≠ '^') : (Choice.narrow ⟨true, true, true⟩ c).any = true := by
  by_cases single : singleOk c = true
  · simp [Choice.narrow, Choice.any, single]
  · have quoted : c = '\'' ∨ c = '\\' := by
      simp only [singleOk, Bool.and_eq_true, bne_iff_ne] at single
      by_contra none
      rw [not_or] at none
      exact single ⟨⟨none.1, h⟩, none.2⟩
    rcases quoted with rfl | rfl <;> rfl

theorem firstChunk_holds (c : Char) (r : List Char) :
    ∀ d ∈ (firstChunk c r).1, (firstChunk c r).2.1.Holds d := by
  by_cases caret : c = '^'
  · subst caret
    obtain ⟨allowed, suits⟩ := chunk_suits ⟨false, true, false⟩ r rfl
    have single : (chunk ⟨false, true, false⟩ r).2.1 = .single := by
      revert allowed
      generalize (chunk ⟨false, true, false⟩ r).2.1 = k
      cases k <;> simp [Choice.allows]
    have held : Quoting.Holds (chunk ⟨false, true, false⟩ r).2.1 '^' := by
      rw [single]
      exact fun same => absurd same (by decide)
    exact List.forall_mem_cons.mpr ⟨held, fun d hd => Quoting.holds_of_suits (suits d hd)⟩
  · have other : (c == '^') = false := beq_eq_false_iff_ne.mpr caret
    obtain ⟨allowed, suits⟩ := chunk_suits (Choice.narrow ⟨true, true, true⟩ c) r (any_narrow caret)
    rw [allows_narrow, Bool.and_eq_true] at allowed
    simp only [firstChunk, other, Bool.false_eq_true, if_false]
    exact List.forall_mem_cons.mpr ⟨Quoting.holds_of_suits allowed.2,
      fun d hd => Quoting.holds_of_suits (suits d hd)⟩

theorem firstChunk_append (c : Char) (r : List Char) :
    (firstChunk c r).1 ++ (firstChunk c r).2.2 = c :: r :=
  congrArg (c :: ·) (chunk_append _ r)

/-- A bare character neither ends a word nor opens a quotation nor begins a comment. -/
theorem plain_of_bareOk (h : bareOk c = true) :
    isGap c = false ∧ c ≠ '#' ∧ c ≠ '"' ∧ c ≠ '\'' ∧ c ≠ '\\' := by
  refine ⟨?_, ?_, ?_, ?_, ?_⟩
  · by_contra gap
    simp only [isGap, Bool.not_eq_false, Bool.or_eq_true, beq_iff_eq] at gap
    rcases gap with (rfl | rfl) | rfl <;> exact absurd h (by decide)
  all_goals
    rintro rfl
    exact absurd h (by decide)

theorem splitFrom_bare (h : ∀ c ∈ cs, bareOk c = true) :
    splitFrom .word w (cs ++ rest) = splitFrom .word (cs.reverse ++ w) rest := by
  induction cs generalizing w with
  | nil => rfl
  | cons c cs ih =>
    obtain ⟨first, others⟩ := List.forall_mem_cons.mp h
    obtain ⟨gap, -, double, single, escape⟩ := plain_of_bareOk first
    simp only [List.cons_append, splitFrom, gap, beq_iff_eq, double, single, escape,
      Bool.false_eq_true, if_false, ih others, List.reverse_cons, List.append_assoc,
      List.nil_append]

theorem splitFrom_single (h : ∀ c ∈ cs, c ≠ '\'') :
    splitFrom .single w (cs ++ '\'' :: rest) = splitFrom .word (cs.reverse ++ w) rest := by
  induction cs generalizing w with
  | nil => rfl
  | cons c cs ih =>
    obtain ⟨first, others⟩ := List.forall_mem_cons.mp h
    simp only [List.cons_append, splitFrom, beq_iff_eq, first, if_false, ih others,
      List.reverse_cons, List.append_assoc, List.nil_append]

theorem splitFrom_escapeDouble (c : Char) :
    splitFrom .double w (escapeDouble c ++ rest) = splitFrom .double (c :: w) rest := by
  by_cases special : (c == '$' || c == graveAccent || c == '"' || c == '\\') = true
  · simp [escapeDouble, special, splitFrom]
  · have plain : c ≠ '"' ∧ c ≠ '\\' := by
      simp only [Bool.or_eq_true, beq_iff_eq, not_or] at special
      exact ⟨special.1.2, special.2⟩
    simp [escapeDouble, special, splitFrom, plain]

theorem splitFrom_double (cs : List Char) :
    splitFrom .double w (cs.flatMap escapeDouble ++ '"' :: rest) =
      splitFrom .word (cs.reverse ++ w) rest := by
  induction cs generalizing w with
  | nil => rfl
  | cons c cs ih =>
    rw [List.flatMap_cons, List.append_assoc, splitFrom_escapeDouble, ih, List.reverse_cons,
      List.append_assoc, List.singleton_append]

/-- A chunk is read as its characters, in the middle of a word. -/
theorem splitFrom_writeChunk (h : ∀ c ∈ cs, k.Holds c) :
    splitFrom .word w (writeChunk cs k ++ rest) = splitFrom .word (cs.reverse ++ w) rest := by
  cases k with
  | bare => exact splitFrom_bare h
  | single =>
    rw [← splitFrom_single h]
    simp [writeChunk, splitFrom, isGap]
  | double =>
    rw [← splitFrom_double]
    simp [writeChunk, splitFrom, isGap]

/-- A chunk at the beginning of a word begins one, as an empty word is read to begin. -/
theorem splitFrom_gap_writeChunk (some : cs ≠ []) (h : ∀ c ∈ cs, k.Holds c) :
    splitFrom .gap [] (writeChunk cs k ++ rest) = splitFrom .word [] (writeChunk cs k ++ rest) := by
  cases k with
  | bare =>
    obtain ⟨c, r, rfl⟩ := List.exists_cons_of_ne_nil some
    obtain ⟨gap, comment, double, single, escape⟩ := plain_of_bareOk (h c List.mem_cons_self)
    simp [writeChunk, splitFrom, gap, comment, double, single, escape]
  | single => simp [writeChunk, splitFrom, isGap]
  | double => simp [writeChunk, splitFrom, isGap]

theorem splitFrom_quoteChunks (cs rest : List Char) : ∀ w,
    splitFrom .word w (quoteChunks cs ++ rest) = splitFrom .word (cs.reverse ++ w) rest := by
  fun_induction quoteChunks cs with
  | case1 => exact fun w => rfl
  | case2 c r t ih =>
    intro w
    rw [List.append_assoc, splitFrom_writeChunk (firstChunk_holds c r), ih, ← List.append_assoc,
      ← List.reverse_append, firstChunk_append]

/-- A word is read as it was before it was quoted. -/
theorem splitFrom_quote (cs rest : List Char) :
    splitFrom .gap [] (quote cs ++ rest) = splitFrom .word cs.reverse rest := by
  cases cs with
  | nil => rfl
  | cons c r =>
    have some : (firstChunk c r).1 ≠ [] := List.cons_ne_nil _ _
    have whole := splitFrom_quoteChunks (c :: r) rest []
    rw [List.append_nil] at whole
    have quoted : quote (c :: r) = quoteChunks (c :: r) := rfl
    rw [← whole, quoted, quoteChunks, List.append_assoc,
      splitFrom_gap_writeChunk some (firstChunk_holds c r)]

theorem split?_joinSpaced (ws : List (List Char)) :
    split? (joinSpaced (ws.map quote)) = some ws := by
  induction ws with
  | nil => rfl
  | cons w ws ih =>
    cases ws with
    | nil =>
      have read := splitFrom_quote w []
      rw [List.append_nil] at read
      rw [List.map_singleton, joinSpaced, split?, read, splitFrom, List.reverse_reverse]
    | cons v vs =>
      rw [List.map_cons, List.map_cons, joinSpaced, split?, splitFrom_quote]
      rw [List.map_cons] at ih
      simp only [splitFrom, isGap, beq_self_eq_true, Bool.true_or, if_true, List.reverse_reverse]
      rw [← split?, ih, Option.map_some]

section NotMem

variable (mark : c ≠ '\'' ∧ c ≠ '"' ∧ c ≠ '\\')

include mark

theorem notMem_writeChunk (h : c ∉ cs) (k : Quoting) : c ∉ writeChunk cs k := by
  obtain ⟨single, double, escape⟩ := mark
  cases k with
  | bare => exact h
  | single => simp [writeChunk, h, single]
  | double =>
    have inside : c ∉ cs.flatMap escapeDouble := by
      rintro there
      obtain ⟨d, hd, there⟩ := List.mem_flatMap.mp there
      have other : c ≠ d := fun same => h (same ▸ hd)
      revert there
      rw [escapeDouble]
      split <;> simp [escape, other]
    simp [writeChunk, inside, double]

theorem notMem_quoteChunks (h : c ∉ cs) : c ∉ quoteChunks cs := by
  fun_induction quoteChunks cs with
  | case1 => exact List.not_mem_nil
  | case2 d r t ih =>
    rw [← firstChunk_append, List.mem_append, not_or] at h
    rw [List.mem_append, not_or]
    exact ⟨notMem_writeChunk mark h.1 _, ih h.2⟩

theorem notMem_quote (h : c ∉ cs) : c ∉ quote cs := by
  rw [quote]
  split
  · simp [mark.1]
  · exact notMem_quoteChunks mark h

end NotMem

theorem joinSpaced_eq_intercalate (ws : List (List Char)) :
    joinSpaced ws = [' '].intercalate ws := by
  fun_induction joinSpaced ws with
  | case1 => rfl
  | case2 w => exact List.intercalate_singleton.symm
  | case3 w v ws ih => rw [ih, List.intercalate_cons_cons, List.append_assoc, List.singleton_append]

/-- A character that is no blank stands in a joined line only if it stands in one of its words. -/
theorem mem_joinSpaced {ws : List (List Char)} (blank : c ≠ ' ') :
    c ∈ joinSpaced ws ↔ ∃ w ∈ ws, c ∈ w := by
  fun_induction joinSpaced ws with
  | case1 => simp
  | case2 w => simp
  | case3 w v ws ih => simp [ih, blank]

/-- The NUL of a word is seen in the line. -/
theorem mem_display_nul (ws : List (List Char)) : '\x00' ∈ display ws ↔ ∃ w ∈ ws, '\x00' ∈ w := by
  have contains : ws.any (·.contains '\x00') = true ↔ ∃ w ∈ ws, '\x00' ∈ w := by simp
  rw [display]
  split
  · exact mem_joinSpaced (by decide)
  · rename_i none
    rw [contains] at none
    refine ⟨fun there => ?_, fun there => absurd there none⟩
    obtain ⟨q, hq, there⟩ := (mem_joinSpaced (by decide)).mp there
    obtain ⟨w, hw, rfl⟩ := List.mem_map.mp hq
    by_contra
    exact notMem_quote (by decide) (fun nul => none ⟨w, hw, nul⟩) there

theorem display_of_notMem {ws : List (List Char)} (h : ∀ w ∈ ws, '\x00' ∉ w) :
    display ws = joinSpaced (ws.map quote) := by
  rw [display, if_neg]
  simpa using h

theorem display_of_mem {ws : List (List Char)} (h : ∃ w ∈ ws, '\x00' ∈ w) :
    display ws = [' '].intercalate ws := by
  rw [display, if_pos, joinSpaced_eq_intercalate]
  simpa using h

theorem map_toList_injective : Function.Injective (List.map String.toList) :=
  List.map_injective_iff.mpr fun _ _ same => String.toList_injective same

/-- The line that shows a command is read, by the rules of a shell, as the program and its arguments
if none of them holds a NUL, whatever else they hold; so no other command is shown by that line.
With a NUL in one of them they stand side by side as they are. -/
theorem command_line_splits_back (program : String) (args : List String) :
    ((∀ s ∈ program :: args, '\x00' ∉ s.toList) →
      split? (commandLine program args).toList = some ((program :: args).map String.toList) ∧
      ∀ program' args', commandLine program' args' = commandLine program args →
        program' = program ∧ args' = args) ∧
    ((∃ s ∈ program :: args, '\x00' ∈ s.toList) →
      commandLine program args = " ".intercalate (program :: args)) := by
  have text (p : String) (as : List String) :
      (commandLine p as).toList = display ((p :: as).map String.toList) := String.toList_ofList
  have back {p : String} {as : List String} (h : ∀ s ∈ p :: as, '\x00' ∉ s.toList) :
      split? (commandLine p as).toList = some ((p :: as).map String.toList) := by
    rw [text, display_of_notMem (List.forall_mem_map.mpr h), split?_joinSpaced]
  refine ⟨fun h => ⟨back h, fun p as same => ?_⟩, fun h => ?_⟩
  · -- The other command holds no NUL either, as its line would show it.
    have h' : ∀ s ∈ p :: as, '\x00' ∉ s.toList := by
      intro s hs nul
      have seen : '\x00' ∈ display ((p :: as).map String.toList) :=
        (mem_display_nul _).mpr ⟨_, List.mem_map_of_mem hs, nul⟩
      rw [← text, same, text, mem_display_nul] at seen
      obtain ⟨w, hw, there⟩ := seen
      obtain ⟨t, ht, rfl⟩ := List.mem_map.mp hw
      exact h t ht there
    have words := back h'
    rw [same, back h, Option.some.injEq] at words
    exact List.cons.inj (map_toList_injective words.symm)
  · apply String.toList_injective
    obtain ⟨s, hs, nul⟩ := h
    rw [text, String.toList_intercalate, display_of_mem ⟨_, List.mem_map_of_mem hs, nul⟩]
    rfl

/-- Nothing that a shell gives a meaning to is lost, and an empty word stays a word. -/
theorem command_line_splits_back_of_marks :
    (∀ s ∈ ["it's", "", "a b\n#\\^!", "\"$x\"é"], '\x00' ∉ s.toList) ∧
      split? (commandLine "it's" ["", "a b\n#\\^!", "\"$x\"é"]).toList =
        some (["it's", "", "a b\n#\\^!", "\"$x\"é"].map String.toList) ∧
      (∃ s ∈ ["a b", "\x00"], '\x00' ∈ s.toList) ∧
      commandLine "a b" ["\x00"] = " ".intercalate ["a b", "\x00"] := by
  have plain : ∀ s ∈ ["it's", "", "a b\n#\\^!", "\"$x\"é"], '\x00' ∉ s.toList := by decide
  have nul : ∃ s ∈ ["a b", "\x00"], '\x00' ∈ s.toList := by decide
  exact ⟨plain, ((command_line_splits_back _ _).1 plain).1, nul,
    (command_line_splits_back _ _).2 nul⟩

end TestBench.Words
