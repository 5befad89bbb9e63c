import Mathlib.Data.List.Nodup
/-!
# Entries under keys

A list of entries in which no key stands twice: what is looked up under a key is what stands there.
-/
namespace TestBench.Entries

variable {α β : Type} {es : List (α × β)} {k : α} {v : β}

def Distinct (es : List (α × β)) : Prop := (es.map Prod.fst).Nodup

theorem Distinct.eq_of_mem {w : β} (h : Distinct es) (hv : (k, v) ∈ es) (hw : (k, w) ∈ es) :
    v = w :=
  congrArg Prod.snd (List.inj_on_of_nodup_map h hv hw rfl)

variable [BEq α] [LawfulBEq α]

theorem mem_of_lookup (h : es.lookup k = some v) : (k, v) ∈ es := by
  obtain ⟨front, back, rfl, -⟩ := List.lookup_eq_some_iff.mp h
  exact List.mem_append_right _ List.mem_cons_self

theorem lookup_eq_none : es.lookup k = none ↔ ∀ v, (k, v) ∉ es := by
  rw [List.lookup_eq_none_iff]
  constructor
  · intro h v there
    exact absurd (h _ there) (by simp)
  · intro h e there
    rw [bne_iff_ne]
    rintro rfl
    exact h e.2 there

theorem lookup_iff (h : Distinct es) : es.lookup k = some v ↔ (k, v) ∈ es := by
  refine ⟨mem_of_lookup, fun there => ?_⟩
  cases found : es.lookup k with
  | none => exact absurd there (lookup_eq_none.mp found v)
  | some w => rw [h.eq_of_mem there (mem_of_lookup found)]

theorem Distinct.append (h : Distinct es) (free : es.lookup k = none) :
    Distinct (es ++ [(k, v)]) := by
  rw [Distinct, List.map_append, List.nodup_append]
  refine ⟨h, List.nodup_singleton k, fun a ha b hb => ?_⟩
  obtain rfl := List.mem_singleton.mp hb
  rintro rfl
  obtain ⟨e, there, rfl⟩ := List.mem_map.mp ha
  exact lookup_eq_none.mp free e.2 there

end TestBench.Entries
