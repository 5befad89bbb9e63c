/-!
# Splitting and joining

Cutting a list at one separator, cutting it at every separator, and putting the pieces together.
-/
namespace TestBench.Text

def cutAt {α : Type} [BEq α] (sep : α) : List α → Option (List α × List α)
  | [] => none
  | c :: r =>
    if c == sep then some ([], r)
    else (cutAt sep r).map fun t => (c :: t.1, t.2)

theorem cutAt_length {α : Type} [BEq α] {sep : α} {xs front rest : List α}
    (h : cutAt sep xs = some (front, rest)) : rest.length < xs.length := by
  induction xs generalizing front with
  | nil => simp [cutAt] at h
  | cons c r ih =>
    simp only [cutAt] at h
    split at h
    · simp only [Option.some.injEq, Prod.mk.injEq] at h
      simp [h.2]
    · obtain ⟨t, ht, he⟩ := Option.map_eq_some_iff.1 h
      simp only [Prod.mk.injEq] at he
      have := @ih t.1 (by rw [ht, ← he.2])
      simp only [List.length_cons]
      omega

/-- The pieces between separators: one more than there are separators. -/
def splitOn {α : Type} [BEq α] (sep : α) : List α → List (List α)
  | [] => [[]]
  | c :: r =>
    if c == sep then [] :: splitOn sep r
    else match splitOn sep r with
      | [] => [[c]]
      | f :: fs => (c :: f) :: fs

def joinWith {α : Type} (sep : List α) : List (List α) → List α
  | [] => []
  | [f] => f
  | f :: g :: fs => f ++ sep ++ joinWith sep (g :: fs)

end TestBench.Text
