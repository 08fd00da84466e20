import ModernOS.Lib.FirstFit
import ModernOS.FileSystem.Model

/-!
The block that `find_free_block` offers.

A block has no field that says whether it is free: the search takes the first byte of its data for
one. A block that begins with a zero byte and holds data passes, so that the search offers empty
blocks only where each such block lies behind an empty one (`offersEmpty_iff`). The search for an
inode tests a field of its own.
-/

namespace ModernOS.FileSystem

/-- `Block`. -/
structure Block where
  data : Fin 4096 → BitVec 8

/-- The block at which the loop of `find_free_block` stops. -/
def firstFreeBlock (blocks : ℕ → Block) (totalBlocks : Word) : Option ℕ :=
  (List.range totalBlocks.toNat).find? fun i => (blocks i).data 0 = 0#8

/-- `find_free_block`. -/
def findFreeBlock (blocks : ℕ → Block) (totalBlocks : Word) : Word :=
  match firstFreeBlock blocks totalBlocks with
  | some i => BitVec.ofNat 32 i
  | none => 0xFFFFFFFF#32

/-- The block holds no data. -/
def Block.Empty (block : Block) : Prop := ∀ k, block.data k = 0#8

section Pool

variable (blocks : ℕ → Block) (totalBlocks : Word)

/-- What is expected of `find_free_block`. -/
structure OffersEmpty : Prop where
  least : findFreeBlock blocks totalBlocks ≠ 0xFFFFFFFF#32 →
    IsLeast {i | i < totalBlocks.toNat ∧ (blocks i).Empty}
      (findFreeBlock blocks totalBlocks).toNat
  none_iff : findFreeBlock blocks totalBlocks = 0xFFFFFFFF#32 ↔
    ∀ i < totalBlocks.toNat, ¬ (blocks i).Empty

variable {blocks totalBlocks}

theorem findFreeBlock_of_some {i : ℕ} (found : firstFreeBlock blocks totalBlocks = some i) :
    findFreeBlock blocks totalBlocks ≠ 0xFFFFFFFF#32 ∧
      (findFreeBlock blocks totalBlocks).toNat = i := by
  rw [findFreeBlock, found]
  exact ofNat_index (FirstFit.find?_eq_some_iff.mp found).1.1

theorem findFreeBlock_of_none (none : firstFreeBlock blocks totalBlocks = none) :
    findFreeBlock blocks totalBlocks = 0xFFFFFFFF#32 := by
  rw [findFreeBlock, none]

/-- The word tells what the loop has found. -/
theorem offersEmpty_iff_finds : OffersEmpty blocks totalBlocks ↔
    FirstFit.Finds (fun i => (blocks i).Empty) totalBlocks.toNat
      (firstFreeBlock blocks totalBlocks) := by
  cases found : firstFreeBlock blocks totalBlocks with
  | none =>
      have code := findFreeBlock_of_none found
      constructor
      · intro offers
        refine ⟨?_, iff_of_true rfl (offers.none_iff.mp code)⟩
        rintro i ⟨⟩
      · intro finds
        exact ⟨fun other => absurd code other, iff_of_true code (finds.none_iff.mp rfl)⟩
  | some i =>
      obtain ⟨other, index⟩ := findFreeBlock_of_some found
      constructor
      · intro offers
        have least := offers.least other
        rw [index] at least
        refine ⟨?_, iff_of_false (by simp) fun none => none i least.1.1 least.1.2⟩
        rintro j ⟨⟩
        exact least
      · intro finds
        have least := finds.least i rfl
        refine ⟨fun _ => ?_, iff_of_false other fun none => none i least.1.1 least.1.2⟩
        rw [index]
        exact least

end Pool

/-- **Only empty blocks are offered**, and the lowest of them, exactly when each block that begins
with a zero byte but holds data lies behind an empty one. -/
theorem offersEmpty_iff (blocks : ℕ → Block) (totalBlocks : Word) :
    OffersEmpty blocks totalBlocks ↔
      ∀ i < totalBlocks.toNat, (blocks i).data 0 = 0#8 → ¬ (blocks i).Empty →
        ∃ j < i, (blocks j).Empty := by
  have marked : ∀ i, (blocks i).Empty → decide ((blocks i).data 0 = 0#8) = true :=
    fun i empty => decide_eq_true (empty 0)
  rw [offersEmpty_iff_finds, firstFreeBlock, FirstFit.finds_iff marked]
  simp only [decide_eq_true_eq]

/-- A block whose second byte is not zero. -/
def secondByte : Block := ⟨fun k => if k = 1 then 1#8 else 0#8⟩

theorem secondByte_not_empty : ¬ secondByte.Empty := fun empty => absurd (empty 1) (by decide)

/-- It is offered in a pool that consists of it. -/
theorem not_offersEmpty : ¬ ∀ blocks totalBlocks, OffersEmpty blocks totalBlocks := by
  intro offers
  have found : firstFreeBlock (fun _ => secondByte) 1#32 = some 0 := by decide
  obtain ⟨other, index⟩ := findFreeBlock_of_some found
  have least := (offers (fun _ => secondByte) 1#32).least other
  rw [index] at least
  exact secondByte_not_empty least.1.2

end ModernOS.FileSystem
