import Mathlib.Data.List.MinMax

/-!
The loop that looks for a maximum.

The loop keeps an element when its value is above the best so far. It ends with the first element
of maximal value (`List.argmax`), if any is above the value that it starts with (`foldl_improve`).
In a list that is sorted by a relation the first maximum is related to all others.
-/

namespace FirstMaximum

variable {α κ β : Type*} [LinearOrder β] (key : α → κ) (value : α → β)

/-- One round: the key and the value of the best element so far. -/
def improve (best : κ × β) (a : α) : κ × β :=
  if best.2 < value a then (key a, value a) else best

/-- The element with which the loop ends, or none if nothing is above the start. -/
theorem foldl_improve (start : κ × β) (l : List α) :
    (∃ m ∈ l.argmax value, start.2 < value m ∧
      l.foldl (improve key value) start = (key m, value m)) ∨
    (∀ a ∈ l, value a ≤ start.2) ∧ l.foldl (improve key value) start = start := by
  induction l using List.reverseRecOn with
  | nil => exact .inr ⟨fun a mem => absurd mem List.not_mem_nil, rfl⟩
  | append_singleton l a ih =>
      rw [List.foldl_append, List.foldl_cons, List.foldl_nil, List.argmax_concat]
      rcases ih with ⟨m, best, above, ends⟩ | ⟨none, ends⟩
      · rw [ends, Option.mem_def.mp best, improve]
        dsimp only
        split
        · rename_i better
          exact .inl ⟨a, rfl, above.trans better, rfl⟩
        · exact .inl ⟨m, rfl, above, rfl⟩
      · rw [ends, improve]
        split
        · rename_i better
          refine .inl ⟨a, ?_, better, rfl⟩
          rcases argmax : l.argmax value with _ | m
          · rfl
          · have below := none m (List.argmax_mem argmax)
            exact if_pos (below.trans_lt better)
        · rename_i notBetter
          refine .inr ⟨fun b mem => ?_, rfl⟩
          rcases List.mem_append.mp mem with old | new
          · exact none b old
          · obtain rfl := List.mem_singleton.mp new
            exact not_lt.mp notBetter

variable {value} {l : List α} {m a : α}

/-- The first maximum of a sorted list comes before all other maxima. -/
theorem eq_or_before_of_mem_argmax {r : α → α → Prop} (sorted : l.Pairwise r)
    (best : m ∈ l.argmax value) (mem : a ∈ l) (maximal : value m ≤ value a) : m = a ∨ r m a := by
  classical
  have first := List.index_of_argmax best mem maximal
  have inside := List.idxOf_lt_length_of_mem mem
  rcases first.eq_or_lt with same | before
  · exact .inl ((List.idxOf_inj (List.argmax_mem best)).mp same)
  · have less := List.pairwise_iff_getElem.mp sorted _ _ (before.trans inside) inside before
    rw [List.getElem_idxOf, List.getElem_idxOf] at less
    exact .inr less

end FirstMaximum
