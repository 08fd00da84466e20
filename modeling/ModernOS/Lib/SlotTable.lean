import Mathlib.Algebra.BigOperators.Fin

/-!
Fixed-size tables searched from their lowest index.

A table is a function `Fin n → α`. `firstSlot` is the search loop of such tables:
the lowest index whose entry satisfies a predicate. `countSlots` counts the
entries that satisfy one; `countSlots_update` says how the count moves when one
entry is replaced.
-/

namespace SlotTable

variable {n : ℕ} {α : Type*} (P : α → Prop) [DecidablePred P]

/-- The lowest index whose entry satisfies `P`. -/
def firstSlot (t : Fin n → α) : Option (Fin n) := Fin.find? fun i => decide (P (t i))

/-- The number of entries that satisfy `P`. -/
def countSlots (t : Fin n → α) : ℕ := (Finset.univ.filter fun i => P (t i)).card

variable {P} {t : Fin n → α}

theorem firstSlot_eq_some {i : Fin n} :
    firstSlot P t = some i ↔ P (t i) ∧ ∀ j < i, ¬ P (t j) := by
  rw [firstSlot, Fin.find?_eq_some_iff]
  simp only [decide_eq_true_eq, decide_eq_false_iff_not]

theorem firstSlot_eq_none : firstSlot P t = none ↔ ∀ i, ¬ P (t i) := by
  rw [firstSlot, Fin.find?_eq_none_iff]
  simp only [decide_eq_false_iff_not]

/-- The search with a test that may be undefined, where it is defined on all entries. -/
theorem findM?_eq_firstSlot {test : Fin n → Option Bool}
    (defined : ∀ i, test i = some (decide (P (t i)))) :
    (List.finRange n).findM? test = some (firstSlot P t) := by
  have pure_test : test = fun i => pure (decide (P (t i))) := funext defined
  rw [pure_test, List.findM?_pure, firstSlot, Fin.find?_eq_find?_finRange]
  rfl

-- The search is used through the lemmas above; its loop is not to be unrolled.
attribute [irreducible] firstSlot

theorem holds_of_firstSlot {i : Fin n} (found : firstSlot P t = some i) : P (t i) :=
  (firstSlot_eq_some.mp found).1

/-- The search finds nothing above an entry that satisfies the predicate. -/
theorem firstSlot_le {i j : Fin n} (found : firstSlot P t = some i) (holds : P (t j)) : i ≤ j := by
  by_contra above
  exact (firstSlot_eq_some.mp found).2 j (not_le.mp above) holds

/-- The search succeeds if some entry satisfies the predicate. -/
theorem exists_firstSlot : (∃ i, firstSlot P t = some i) ↔ ∃ i, P (t i) := by
  constructor
  · rintro ⟨i, found⟩
    exact ⟨i, holds_of_firstSlot found⟩
  · rintro ⟨i, holds⟩
    cases found : firstSlot P t with
    | some j => exact ⟨j, rfl⟩
    | none => exact absurd holds (firstSlot_eq_none.mp found i)

theorem countSlots_le : countSlots P t ≤ n := by
  simpa [countSlots] using Finset.card_filter_le (Finset.univ : Finset (Fin n)) fun i => P (t i)

/-- Replacing one entry moves the count by what the entry counted before and after. -/
theorem countSlots_update (i : Fin n) (a : α) :
    countSlots P (Function.update t i a) + (if P (t i) then 1 else 0) =
      countSlots P t + (if P a then 1 else 0) := by
  have others : ∑ j ∈ Finset.univ.erase i, (if P (Function.update t i a j) then 1 else 0) =
      ∑ j ∈ Finset.univ.erase i, (if P (t j) then 1 else 0) := by
    refine Finset.sum_congr rfl fun j hj => ?_
    rw [Function.update_of_ne (Finset.ne_of_mem_erase hj)]
  simp only [countSlots, Finset.card_filter]
  rw [← Finset.add_sum_erase _ _ (Finset.mem_univ i),
    ← Finset.add_sum_erase _ (fun j => if P (t j) then 1 else 0) (Finset.mem_univ i),
    others, Function.update_self]
  omega

end SlotTable
