import Mathlib.Data.Finset.Sort
import Mathlib.Data.Nat.Nth
import Mathlib.Order.Bounds.Basic

/-!
First fit: the slots are natural numbers, and an allocation takes the lowest free one.

The allocation that follows `n` others takes the free slot of rank `n`, `slot F n`, and
`left F n` is what `n` allocations leave of the free slots `F`. An allocator is
connected to this module by two facts: it takes the least element of its free slots,
and it removes it from them.

`Leaves F G` says of the free slots before and after some allocations that the lowest ones have been
taken. It composes, and what has been taken, in increasing order, is what the list of the free slots
begins with (`Leaves.sort_append`).

A search loop stops at the least slot that passes its test (`find?_eq_some_iff`). Where the test
stands for a property that it does not imply, `finds_iff` says when the loop finds the least slot
that has the property.
-/

namespace FirstFit

variable {F : Finset ℕ} {n x y : ℕ}

/-- The number of free slots below `x`. -/
def rank (F : Finset ℕ) (x : ℕ) : ℕ := Nat.count (· ∈ F) x

/-- The free slots after `n` allocations. -/
def left (F : Finset ℕ) (n : ℕ) : Finset ℕ := F.filter (n ≤ rank F ·)

/-- The slot taken by the allocation that follows `n` others. -/
noncomputable def slot (F : Finset ℕ) (n : ℕ) : ℕ := Nat.nth (· ∈ F) n

theorem mem_left : x ∈ left F n ↔ x ∈ F ∧ n ≤ rank F x := Finset.mem_filter

/-- A free slot below another has the smaller rank. -/
theorem rank_lt (free : x ∈ F) (below : x < y) : rank F x < rank F y :=
  Nat.count_strict_mono free below

theorem rank_mono (below : x ≤ y) : rank F x ≤ rank F y := Nat.count_monotone _ below

theorem rank_injOn (hx : x ∈ F) (hy : y ∈ F) (same : rank F x = rank F y) : x = y :=
  Nat.count_injective hx hy same

theorem ofPred_finite (F : Finset ℕ) : (Set.ofPred (· ∈ F)).Finite := F.finite_toSet

theorem card_ofPred (F : Finset ℕ) : (ofPred_finite F).toFinset.card = F.card :=
  congrArg Finset.card F.finite_toSet_toFinset

theorem slot_mem (room : n < F.card) : slot F n ∈ F :=
  Nat.nth_mem_of_lt_card (ofPred_finite F) ((card_ofPred F).symm ▸ room)

theorem rank_slot (room : n < F.card) : rank F (slot F n) = n :=
  Nat.count_nth_of_lt_card_finite (ofPred_finite F) ((card_ofPred F).symm ▸ room)

theorem slot_rank (free : x ∈ F) : slot F (rank F x) = x := Nat.nth_count free

theorem rank_lt_card (free : x ∈ F) : rank F x < F.card :=
  card_ofPred F ▸ Nat.count_lt_card (ofPred_finite F) free

/-- The least slot left by `n` allocations is the one of rank `n`. -/
theorem isLeast_left : IsLeast (left F n : Set ℕ) x ↔ x ∈ F ∧ rank F x = n := by
  constructor
  · rintro ⟨here, least⟩
    obtain ⟨free, above⟩ := mem_left.mp here
    refine ⟨free, le_antisymm ?_ above⟩
    have room : n < F.card := above.trans_lt (rank_lt_card free)
    have lowest : x ≤ slot F n :=
      least (Finset.mem_coe.mpr (mem_left.mpr ⟨slot_mem room, (rank_slot room).ge⟩))
    exact (rank_mono lowest).trans_eq (rank_slot room)
  · rintro ⟨free, rfl⟩
    refine ⟨mem_left.mpr ⟨free, le_rfl⟩, fun y here => ?_⟩
    by_contra below
    exact (mem_left.mp here).2.not_gt (rank_lt (mem_left.mp here).1 (not_le.mp below))

/-- One more allocation takes the least slot left. -/
theorem left_succ (free : x ∈ F) : left F (rank F x + 1) = (left F (rank F x)).erase x := by
  ext y
  rw [Finset.mem_erase, mem_left, mem_left]
  constructor
  · rintro ⟨here, above⟩
    exact ⟨fun same => by simp [same] at above, here, (Nat.le_succ _).trans above⟩
  · rintro ⟨other, here, above⟩
    exact ⟨here, above.lt_of_ne fun same => other (rank_injOn here free same.symm)⟩

/-! ### The lowest slots taken -/

variable {G H : Finset ℕ}

/-- `G` is what allocations leave of the free slots `F`: no slot that is left is below one that has
been taken. -/
structure Leaves (F G : Finset ℕ) : Prop where
  sub : G ⊆ F
  below : ∀ x ∈ F, x ∉ G → ∀ y ∈ G, x < y

theorem Leaves.refl (F : Finset ℕ) : Leaves F F :=
  ⟨fun _ => id, fun _ here gone => absurd here gone⟩

theorem Leaves.trans (first : Leaves F G) (second : Leaves G H) : Leaves F H := by
  refine ⟨second.sub.trans first.sub, fun x here gone y left => ?_⟩
  by_cases still : x ∈ G
  · exact second.below x still gone y left
  · exact first.below x here still y (second.sub left)

/-- An allocation takes the least slot. -/
theorem Leaves.of_isLeast (least : IsLeast (F : Set ℕ) x) : Leaves F (F.erase x) := by
  refine ⟨Finset.erase_subset _ _, fun z here gone y left => ?_⟩
  obtain ⟨other, free⟩ := Finset.mem_erase.mp left
  have same : z = x := by
    by_contra apart
    exact gone (Finset.mem_erase.mpr ⟨apart, here⟩)
  rw [same]
  exact (least.2 free).lt_of_ne other.symm

/-- The slots taken come first among the free ones. -/
theorem Leaves.sort_append (leaves : Leaves F G) : (F \ G).sort ++ G.sort = F.sort := by
  have together : ((F \ G).sort ++ G.sort).toFinset = F := by
    rw [List.toFinset_append, Finset.sort_toFinset, Finset.sort_toFinset,
      Finset.sdiff_union_of_subset leaves.sub]
  have nodup : ((F \ G).sort ++ G.sort).Nodup := by
    rw [List.nodup_append']
    refine ⟨Finset.sort_nodup _ _, Finset.sort_nodup _ _, fun x taken left => ?_⟩
    rw [Finset.mem_sort] at taken left
    exact (Finset.mem_sdiff.mp taken).2 left
  have ordered : ((F \ G).sort ++ G.sort).Pairwise (· ≤ ·) := by
    rw [List.pairwise_append]
    refine ⟨Finset.pairwise_sort _ _, Finset.pairwise_sort _ _, fun x taken y left => ?_⟩
    rw [Finset.mem_sort] at taken left
    obtain ⟨here, gone⟩ := Finset.mem_sdiff.mp taken
    exact (leaves.below x here gone y left).le
  have sorted := (List.toFinset_sort (· ≤ ·) nodup).mpr ordered
  rw [together] at sorted
  exact sorted.symm

/-! ### The search loop -/

section Search

variable {test : ℕ → Bool} {P : ℕ → Prop} {i : ℕ}

theorem find?_eq_some_iff :
    (List.range n).find? test = some i ↔ IsLeast {j | j < n ∧ test j = true} i := by
  rw [List.find?_range_eq_some, List.mem_range]
  constructor
  · rintro ⟨passes, inside, below⟩
    refine ⟨⟨inside, passes⟩, ?_⟩
    rintro j ⟨-, also⟩
    by_contra before
    have fails := below j (not_le.mp before)
    rw [also] at fails
    cases fails
  · rintro ⟨⟨inside, passes⟩, least⟩
    refine ⟨passes, inside, fun j before => ?_⟩
    by_contra also
    rw [Bool.not_eq_true', Bool.not_eq_false] at also
    exact before.not_ge (least ⟨before.trans inside, also⟩)

/-- What a search for the least slot with property `P` is to return. -/
structure Finds (P : ℕ → Prop) (n : ℕ) (found : Option ℕ) : Prop where
  least : ∀ i, found = some i → IsLeast {j | j < n ∧ P j} i
  none_iff : found = none ↔ ∀ j < n, ¬ P j

/-- A test that more slots pass than have the property does as well as long as none of the others
comes first. -/
theorem finds_iff (passes : ∀ i, P i → test i = true) :
    Finds P n ((List.range n).find? test) ↔
      ∀ i < n, test i = true → ¬ P i → ∃ j < i, P j := by
  cases found : (List.range n).find? test with
  | none =>
      have fails : ∀ i < n, ¬ test i = true := fun i inside =>
        List.find?_eq_none.mp found i (List.mem_range.mpr inside)
      constructor
      · intro _ i inside also
        exact absurd also (fails i inside)
      · intro _
        refine ⟨?_, iff_of_true rfl fun i inside holds => fails i inside (passes i holds)⟩
        rintro i ⟨⟩
  | some k =>
      obtain ⟨⟨inside, also⟩, lowest⟩ := find?_eq_some_iff.mp found
      constructor
      · intro finds i inside' also' fails
        obtain ⟨⟨-, holds⟩, -⟩ := finds.least k rfl
        have other : k ≠ i := by
          rintro rfl
          exact fails holds
        exact ⟨k, (lowest ⟨inside', also'⟩).lt_of_ne other, holds⟩
      · intro behind
        -- An earlier slot with the property would have stopped the loop.
        have holds : P k := by
          by_contra fails
          obtain ⟨j, before, holds⟩ := behind k inside also fails
          exact before.not_ge (lowest ⟨before.trans inside, passes j holds⟩)
        refine ⟨?_, iff_of_false (by simp) fun fails => fails k inside holds⟩
        rintro i ⟨⟩
        exact ⟨⟨inside, holds⟩, fun j ⟨inside', holds'⟩ => lowest ⟨inside', passes j holds'⟩⟩

end Search

end FirstFit
