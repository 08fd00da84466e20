import ModernOS.Lib.Rounding

/-!
The addresses of `include/memory.h`.

Rounding to pages is exact on numbers below `2 ^ 64`. The next page of an address in the last page
is at `2 ^ 64`, so that `page_align_up` has no address to return, and returns zero
(`pageAlign_rounds`).

`physical_to_virtual` shifts by the base of the last 2 GiB, and wraps for the addresses that do not
fit into them: the direct map is what it is said to be for the first 2 GiB of the physical memory
(`directMapped_iff`).
-/

namespace ModernOS.KernelMemory

/-- `VirtualAddress` and `PhysicalAddress`. -/
abbrev Address := BitVec 64

abbrev PAGE_SIZE : Address := 4096#64

abbrev KERNEL_VIRTUAL_BASE : Address := 0xFFFFFFFF80000000#64

/-! ### Pages -/

/-- `is_page_aligned`. -/
def isPageAligned (addr : Address) : Bool := addr &&& (PAGE_SIZE - 1#64) = 0#64

/-- `page_align_down`. -/
def pageAlignDown (addr : Address) : Address := addr &&& ~~~(PAGE_SIZE - 1#64)

/-- `page_align_up`. -/
def pageAlignUp (addr : Address) : Address :=
  (addr + PAGE_SIZE - 1#64) &&& ~~~(PAGE_SIZE - 1#64)

section Pages

variable (addr : Address)

theorem isPageAligned_iff : isPageAligned addr = true ↔ 4096 ∣ addr.toNat := by
  have bits : (addr &&& (PAGE_SIZE - 1#64)).toNat = addr.toNat % 4096 :=
    Rounding.toNat_and_mask addr (show 12 ≤ 64 by decide)
  rw [isPageAligned, decide_eq_true_iff, ← BitVec.toNat_inj, bits, Nat.dvd_iff_mod_eq_zero]
  rfl

theorem toNat_pageAlignDown : (pageAlignDown addr).toNat = Rounding.down 4096 addr.toNat :=
  Rounding.toNat_and_not_mask addr 12

/-- The page size as a power. -/
theorem pageAlignUp_eq : pageAlignUp addr =
    (addr + BitVec.ofNat 64 (2 ^ 12) - 1#64) &&& ~~~BitVec.ofNat 64 (2 ^ 12 - 1) := rfl

theorem toNat_pageAlignUp (room : addr.toNat + 4096 ≤ 2 ^ 64) :
    (pageAlignUp addr).toNat = Rounding.up 4096 addr.toNat := by
  rw [pageAlignUp_eq]
  exact Rounding.toNat_up addr (show 12 < 64 by decide) room

theorem pageAlignUp_of_wraps (wraps : 2 ^ 64 < addr.toNat + 4096) : pageAlignUp addr = 0#64 := by
  rw [pageAlignUp_eq]
  exact Rounding.up_of_wraps addr (show 12 < 64 by decide) wraps

/-- Both end at a page boundary. -/
theorem dvd_pageAlignDown : 4096 ∣ (pageAlignDown addr).toNat := by
  rw [toNat_pageAlignDown]
  exact Rounding.dvd_down 4096 addr.toNat

theorem dvd_pageAlignUp : 4096 ∣ (pageAlignUp addr).toNat :=
  dvd_pageAlignDown (addr + PAGE_SIZE - 1#64)

/-- What is expected of rounding, but for the place where rounding up ends. -/
structure Rounds : Prop where
  down : IsGreatest {m | PAGE_SIZE.toNat ∣ m ∧ m ≤ addr.toNat} (pageAlignDown addr).toNat
  up : PAGE_SIZE.toNat ∣ (pageAlignUp addr).toNat
  downAligned : isPageAligned (pageAlignDown addr) = true
  upAligned : isPageAligned (pageAlignUp addr) = true
  agree_iff : pageAlignDown addr = pageAlignUp addr ↔ isPageAligned addr = true

/-- Rounding up ends at the address, or less than a page above it. -/
structure RoundsUp : Prop where
  above : addr.toNat ≤ (pageAlignUp addr).toNat
  close : (pageAlignUp addr).toNat < addr.toNat + PAGE_SIZE.toNat

theorem pageAlign_agree_iff :
    pageAlignDown addr = pageAlignUp addr ↔ isPageAligned addr = true := by
  rw [isPageAligned_iff]
  by_cases room : addr.toNat + 4096 ≤ 2 ^ 64
  · rw [← BitVec.toNat_inj, toNat_pageAlignDown, toNat_pageAlignUp addr room]
    exact Rounding.down_eq_up (by decide)
  · -- The address lies behind the last page boundary, and is rounded down to it.
    have below := Rounding.lt_down_add (a := addr.toNat) (show 0 < 4096 by decide)
    have inside := addr.isLt
    rw [pageAlignUp_of_wraps addr (Nat.lt_of_not_le room), ← BitVec.toNat_inj,
      toNat_pageAlignDown, BitVec.toNat_ofNat]
    omega

theorem rounds : Rounds addr where
  down := by
    rw [toNat_pageAlignDown]
    exact Rounding.isGreatest_down 4096 addr.toNat
  up := dvd_pageAlignUp addr
  downAligned := (isPageAligned_iff _).mpr (dvd_pageAlignDown addr)
  upAligned := (isPageAligned_iff _).mpr (dvd_pageAlignUp addr)
  agree_iff := pageAlign_agree_iff addr

theorem roundsUp_of_room (room : addr.toNat + 4096 ≤ 2 ^ 64) : RoundsUp addr where
  above := by
    rw [toNat_pageAlignUp addr room]
    exact Rounding.le_up (by decide)
  close := by
    rw [toNat_pageAlignUp addr room]
    exact Rounding.up_lt (by decide)

theorem not_roundsUp_of_wraps (wraps : 2 ^ 64 < addr.toNat + 4096) : ¬ RoundsUp addr := by
  intro roundsUp
  have above := roundsUp.above
  rw [pageAlignUp_of_wraps addr wraps, BitVec.toNat_ofNat] at above
  omega

/-- **Rounding to pages is exact** wherever there is a page to round to. Behind the last page
boundary there is none above the address, and rounding up returns zero. -/
theorem pageAlign_rounds :
    Rounds addr ∧ (RoundsUp addr ↔ addr.toNat + PAGE_SIZE.toNat ≤ 2 ^ 64) ∧
      (2 ^ 64 < addr.toNat + PAGE_SIZE.toNat → pageAlignUp addr = 0#64 ∧
        ∀ page : Address, isPageAligned page = true → page < addr) := by
  refine ⟨rounds addr, ?_, ?_⟩
  · constructor
    · intro roundsUp
      exact Nat.le_of_not_lt fun wraps => not_roundsUp_of_wraps addr wraps roundsUp
    · exact roundsUp_of_room addr
  · intro wraps
    refine ⟨pageAlignUp_of_wraps addr wraps, ?_⟩
    intro page aligned
    have wraps : 2 ^ 64 < addr.toNat + 4096 := wraps
    have multiple := (isPageAligned_iff page).mp aligned
    have inside := page.isLt
    rw [BitVec.lt_def]
    omega

/-- The addresses of the test `AddressCalculations`. -/
example : pageAlignUp 0x100000#64 = 0x100000#64 ∧ pageAlignUp 0x100001#64 = 0x101000#64 := by
  decide

/-- An address in the last page. -/
theorem pageAlign_wraps : ¬ ∀ addr, Rounds addr ∧ RoundsUp addr := fun rounds =>
  not_roundsUp_of_wraps 0xFFFFFFFFFFFFF001#64 (by decide) (rounds _).2

end Pages

/-! ### The direct map -/

/-- `is_canonical`. -/
def isCanonical (addr : Address) : Bool :=
  addr ≤ 0x00007FFFFFFFFFFF#64 ∨ 0xFFFF800000000000#64 ≤ addr

/-- `physical_to_virtual`. -/
def physicalToVirtual (physicalAddr : Address) : Address := physicalAddr + KERNEL_VIRTUAL_BASE

/-- `virtual_to_physical_direct`. -/
def virtualToPhysicalDirect (virtualAddr : Address) : Address := virtualAddr - KERNEL_VIRTUAL_BASE

/-- The two are inverse to each other, wrapped or not. -/
theorem virtualToPhysicalDirect_physicalToVirtual (p : Address) :
    virtualToPhysicalDirect (physicalToVirtual p) = p := BitVec.add_sub_cancel p _

theorem isCanonical_of_higherHalf {addr : Address} (higherHalf : KERNEL_VIRTUAL_BASE ≤ addr) :
    isCanonical addr = true := by
  have low : 0xFFFF800000000000#64 ≤ KERNEL_VIRTUAL_BASE := by decide
  exact decide_eq_true (Or.inr (BitVec.le_trans low higherHalf))

/-- The higher half is reached by the addresses that do not wrap. -/
theorem higherHalf_iff (p : Address) :
    KERNEL_VIRTUAL_BASE ≤ physicalToVirtual p ↔ p < 0x80000000#64 := by
  unfold physicalToVirtual
  bv_omega

/-- What is expected of the direct map at `p`, and at an address `q` above it. -/
structure DirectMapped (p q : Address) : Prop where
  higherHalf : KERNEL_VIRTUAL_BASE ≤ physicalToVirtual p
  canonical : isCanonical (physicalToVirtual p) = true
  roundTrip : virtualToPhysicalDirect (physicalToVirtual p) = p
  monotone : p < q → physicalToVirtual p < physicalToVirtual q

/-- **The direct map stays in the higher half** exactly as long as the physical addresses stay in
the first 2 GiB. -/
theorem directMapped_iff (p q : Address) :
    DirectMapped p q ↔ p < 0x80000000#64 ∧ q < 0x80000000#64 := by
  constructor
  · intro mapped
    have below := (higherHalf_iff p).mp mapped.higherHalf
    refine ⟨below, ?_⟩
    by_contra beyond
    -- An address beyond is mapped below the one that it is above of.
    have less : p < q := by bv_omega
    have further := mapped.monotone less
    unfold physicalToVirtual at further
    bv_omega
  · rintro ⟨below, below'⟩
    have higherHalf := (higherHalf_iff p).mpr below
    refine ⟨higherHalf, isCanonical_of_higherHalf higherHalf,
      virtualToPhysicalDirect_physicalToVirtual p, ?_⟩
    intro less
    unfold physicalToVirtual
    bv_omega

/-- The address at 2 GiB is mapped to zero. -/
theorem directMap_wraps : ¬ ∀ p q, DirectMapped p q := by
  intro mapped
  exact absurd ((higherHalf_iff 0x80000000#64).mp (mapped _ 0#64).higherHalf) (by decide)

end ModernOS.KernelMemory
