import ModernOS.Memory.Allocator

/-!
The sums that `get_total_memory` and `get_free_memory` report.

Both are numbers of pages times `PAGE_SIZE`, in 32 bits. Below 2^20 pages neither product wraps.
With 2^20 pages, the whole of a 32-bit memory, the total is reported as 0, and the sums agree with
the bitmap only if no page is in use (`accounted_iff`).
-/

namespace ModernOS.Memory

/-- The pages below `total_pages` whose bit is set. -/
def usedPages (s : State) : Finset ℕ :=
  (Finset.range s.totalPages).filter (pageUsed s.memoryBitmap · = true)

/-- The free memory is part of the total, all of it exactly when no page is in use, and the rest
is that of the pages in use. -/
structure Accounted (s : State) : Prop where
  part : getFreeMemory s ≤ getTotalMemory s
  whole : getFreeMemory s = getTotalMemory s ↔ ∀ i < s.totalPages, pageUsed s.memoryBitmap i = false
  rest : (getTotalMemory s - getFreeMemory s).toNat = PAGE_SIZE * (usedPages s).card

section

variable {s : State}

theorem usedPages_eq_empty :
    usedPages s = ∅ ↔ ∀ i < s.totalPages, pageUsed s.memoryBitmap i = false := by
  rw [usedPages, Finset.filter_eq_empty_iff]
  simp only [Finset.mem_range, Bool.not_eq_true]

/-- Every page is free or in use. -/
theorem card_freePages_add_usedPages :
    (freePages s).card + (usedPages s).card = s.totalPages := by
  have split := Finset.card_filter_add_card_filter_not (s := Finset.range s.totalPages)
    (pageUsed s.memoryBitmap · = false)
  simp only [Bool.not_eq_false, Finset.card_range] at split
  exact split

theorem toNat_getFreeMemory :
    (getFreeMemory s).toNat = PAGE_SIZE * (freePages s).card % 2 ^ 32 := by
  rw [getFreeMemory_eq, BitVec.toNat_ofNat]

theorem toNat_getTotalMemory : (getTotalMemory s).toNat = PAGE_SIZE * s.totalPages % 2 ^ 32 := by
  rw [getTotalMemory, BitVec.toNat_mul, BitVec.toNat_ofNat, BitVec.toNat_ofNat, PAGE_SIZE]
  omega

/-- Below 2^20 pages the sums are those of the integers. -/
theorem accounted_of_lt (below : s.totalPages < 2 ^ 20) : Accounted s := by
  have pages := card_freePages_add_usedPages (s := s)
  have free := toNat_getFreeMemory (s := s)
  have total := toNat_getTotalMemory (s := s)
  rw [PAGE_SIZE] at free total
  have part : getFreeMemory s ≤ getTotalMemory s := by
    rw [BitVec.le_def]
    omega
  refine ⟨part, ?_, ?_⟩
  · rw [← usedPages_eq_empty, ← Finset.card_eq_zero, ← BitVec.toNat_inj]
    omega
  · rw [BitVec.toNat_sub_of_le part, PAGE_SIZE]
    omega

/-- With no page in use both sums are the same product. -/
theorem accounted_of_unused (unused : usedPages s = ∅) : Accounted s := by
  have pages := card_freePages_add_usedPages (s := s)
  have none : (usedPages s).card = 0 := Finset.card_eq_zero.mpr unused
  have same : getFreeMemory s = getTotalMemory s := by
    rw [← BitVec.toNat_inj, toNat_getFreeMemory, toNat_getTotalMemory, ← pages, none, Nat.add_zero]
  refine ⟨BitVec.le_of_eq same, iff_of_true same (usedPages_eq_empty.mp unused), ?_⟩
  rw [same, BitVec.sub_self, none]
  rfl

/-- With 2^20 pages the total is reported as 0, so the free memory is 0 too, and equal to it. -/
theorem unused_of_accounted (full : s.totalPages = 2 ^ 20) (accounted : Accounted s) :
    usedPages s = ∅ := by
  have total := toNat_getTotalMemory (s := s)
  rw [full] at total
  have zero : getTotalMemory s = 0#32 := BitVec.eq_of_toNat_eq total
  have free : getFreeMemory s = getTotalMemory s := by
    rw [zero]
    exact BitVec.le_zero_iff.mp (zero ▸ accounted.part)
  exact usedPages_eq_empty.mpr (accounted.whole.mp free)

end

/-- **Memory accounting is consistent** exactly below 2^20 pages, or when no page is in use. -/
theorem accounted_iff {s : State} (bounded : s.totalPages ≤ 2 ^ 20) :
    Accounted s ↔ s.totalPages < 2 ^ 20 ∨ usedPages s = ∅ := by
  constructor
  · intro accounted
    by_cases below : s.totalPages < 2 ^ 20
    · exact Or.inl below
    · exact Or.inr (unused_of_accounted (Nat.le_antisymm bounded (not_lt.mp below)) accounted)
  · rintro (below | unused)
    · exact accounted_of_lt below
    · exact accounted_of_unused unused

/-- Three pages, the first of them in use. -/
def threePages : State := ⟨fun _ => 0#32, fun _ => 1#32, 3, 0#32⟩

theorem accounted_three_pages : Accounted threePages :=
  (accounted_iff (by decide)).mpr (Or.inl (by decide))

/-- The whole of a 32-bit memory, with one page in use. -/
def wholeMemory : State := ⟨fun _ => 0#32, fun w => if w = 0 then 1#32 else 0#32, 2 ^ 20, 0#32⟩

/-- There, more memory is free than there is. -/
theorem accounted_fails : ¬ ∀ s : State, s.totalPages ≤ 2 ^ 20 → Accounted s := by
  intro accounted
  have unused := unused_of_accounted rfl (accounted wholeMemory le_rfl)
  have clear := usedPages_eq_empty.mp unused 0 (Nat.two_pow_pos 20)
  exact absurd clear (by decide)

end ModernOS.Memory
