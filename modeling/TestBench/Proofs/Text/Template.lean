import Mathlib.Data.List.Nodup
import TestBench.Proofs.Entries
import TestBench.Proofs.Text.Lines
import TestBench.Text.Template
/-!
# Templates with their places replaced

A template is filled by going along it once: its own characters stay, and each place gives way to
its value. That a value looks like a place makes no difference.
-/
namespace TestBench.Template

/-- A template, the names and values of its places in their order, and what comes of it. -/
inductive Fills : List Char → List (String × String) → List Char → Prop
  | done : Fills [] [] []
  | literal {c t values text} (plain : c ≠ '%') (rest : Fills t values text) :
    Fills (c :: t) values (c :: text)
  | place {name v t values text} (ends : closeBrace ∉ name.toList) (rest : Fills t values text) :
    Fills ('%' :: openBrace :: name.toList ++ closeBrace :: t) ((name, v) :: values)
      (v.toList ++ text)

variable {c : Char} {cs t text name : List Char} {values : List (String × String)}

theorem parse_literal (plain : c ≠ '%') : parse (c :: t) = .literal [c] :: parse t := by
  rw [parse]
  rintro r rfl
  exact absurd rfl plain

theorem parse_place (ends : closeBrace ∉ name) :
    parse ('%' :: openBrace :: name ++ closeBrace :: t) = .place name :: parse t := by
  have cut : Text.cutAt closeBrace (name ++ closeBrace :: t) = some (name, t) :=
    Text.cutAt_append_cons ends t
  rw [List.cons_append, List.cons_append, openBrace, parse]
  split
  · rename_i front rest found
    cases cut.symm.trans found
    rfl
  · rename_i none
    cases cut.symm.trans none

theorem Fills.flatMap {all : List (String × String)} (h : Fills t values text)
    (known : ∀ e ∈ values, all.lookup e.1 = some e.2) :
    (parse t).flatMap (Part.fill all) = text := by
  induction h with
  | done => rw [parse, List.flatMap_nil]
  | literal plain rest ih =>
    rw [parse_literal plain, List.flatMap_cons, ih known]
    rfl
  | @place name v t values text ends rest ih =>
    have here : all.lookup name = some v := known (name, v) List.mem_cons_self
    rw [parse_place ends, List.flatMap_cons, ih fun e he => known e (List.mem_cons_of_mem _ he)]
    simp only [Part.fill, String.ofList_toList, here]

/-- Filling gives what the template and the values determine, if no name has two places. -/
theorem Fills.fill {template : String} (h : Fills template.toList values text)
    (distinct : Entries.Distinct values) : (Template.fill template values).toList = text := by
  rw [Template.fill, String.toList_ofList,
    h.flatMap fun e he => (Entries.lookup_iff distinct).mpr he]

theorem Fills.notMem (h : Fills t values text) (own : c ∉ t)
    (given : ∀ e ∈ values, c ∉ e.2.toList) : c ∉ text := by
  induction h with
  | done => exact List.not_mem_nil
  | literal plain rest ih =>
    rw [List.mem_cons, not_or] at own ⊢
    exact ⟨own.1, ih own.2 given⟩
  | place ends rest ih =>
    obtain ⟨first, others⟩ := List.forall_mem_cons.mp given
    have after : c ∉ _ := fun there => own (List.mem_append_right _ (List.mem_cons_of_mem _ there))
    rw [List.mem_append, not_or]
    exact ⟨first, ih after others⟩

/-- The names of the places of a template, in their order; the name begun is kept last character
first. `none` if a place does not end or a percent sign begins none. -/
def places? : Option (List Char) → List Char → Option (List String)
  | none, [] => some []
  | none, '%' :: '\x7b' :: r => places? (some []) r
  | none, c :: r => if c == '%' then none else places? none r
  | some _, [] => none
  | some name, c :: r =>
    if c == closeBrace then (places? none r).map (String.ofList name.reverse :: ·)
    else places? (some (c :: name)) r

/-- The text from the beginning of a place on. -/
def resume : Option (List Char) → List Char → List Char
  | none, t => t
  | some name, t => '%' :: openBrace :: name.reverse ++ t

theorem exists_fills_from (begun : Option (List Char)) (t : List Char)
    (outside : ∀ name ∈ begun, closeBrace ∉ name) (h : places? begun t = some (values.map Prod.fst)) :
    ∃ text, Fills (resume begun t) values text := by
  fun_induction places? begun t generalizing values with
  | case1 =>
    obtain rfl := List.map_eq_nil_iff.mp (Option.some.inj h).symm
    exact ⟨[], .done⟩
  | case2 r ih => exact ih (fun name hn => by cases hn; exact List.not_mem_nil) h
  | case3 => cases h
  | case4 c r _ plain ih =>
    obtain ⟨text, rest⟩ := ih (fun name hn => by cases hn) h
    exact ⟨c :: text, .literal (fun same => plain (beq_iff_eq.mpr same)) rest⟩
  | case5 => cases h
  | case6 name c r closes ih =>
    obtain ⟨names, after, cut⟩ := Option.map_eq_some_iff.mp h
    obtain ⟨e, others, rfl, first, rfl⟩ := List.map_eq_cons_iff.mp cut.symm
    obtain ⟨text, rest⟩ := ih (fun name hn => by cases hn) after
    have written : e.1.toList = name.reverse := by rw [first, String.toList_ofList]
    have ends : closeBrace ∉ e.1.toList := by
      rw [written, List.mem_reverse]
      exact outside name rfl
    rw [resume, beq_iff_eq.mp closes, ← written]
    exact ⟨_, .place ends rest⟩
  | case7 name c r onward ih =>
    have longer : ∀ front ∈ some (c :: name), closeBrace ∉ front := by
      intro front hf
      obtain rfl := Option.some.inj hf
      rw [List.mem_cons, not_or]
      exact ⟨fun same => onward (beq_iff_eq.mpr same.symm), outside name rfl⟩
    obtain ⟨text, filled⟩ := ih longer h
    rw [resume, List.reverse_cons, List.cons_append, List.cons_append, List.append_assoc] at filled
    exact ⟨text, filled⟩

/-- A text that is written out is taken as its characters at once. -/
theorem toList_of_eq {s : String} (h : s = String.ofList cs) : s.toList = cs := by
  rw [h, String.toList_ofList]

/-- A template with these places can be filled. -/
theorem exists_fills {template : String}
    (h : places? none template.toList = some (values.map Prod.fst)) :
    ∃ text, Fills template.toList values text :=
  exists_fills_from none _ (fun name hn => by cases hn) h

end TestBench.Template
