import Mathlib.Data.BitVec

/-!
The capabilities of `include/process.h`.

A `Capability` is a mask, and `capabilities_` is a set of bits, of which bit `n` stands for the
capability `1 << n`. `has_capability` tests the bit whose number is the mask, as if a capability
were a position: it answers for the capability `1 << cap` (`hasCapability_eq`), and it throws
from the mask 64 on.
-/

namespace ModernOS.Process

/-- A value of `Capability`, an enumeration over `uint64_t`. -/
abbrev Capability := BitVec 64

/-- The enumerators of `Capability`. -/
inductive Enumerator where
  | None
  | ChownFiles
  | BypassFilePermissions
  | BypassFileOwnership
  | OverrideFileOwnership
  | Kill
  | SetGid
  | SetUid
  | SetPcap
  | LinuxImmutable
  | BindService
  | Broadcast
  | NetAdmin
  | NetRaw
  | IpcLock
  | IpcOwner
  | SysModule
  | SysRawio
  | SysChroot
  | SysPtrace
  | SysPacket
  | SysAdmin
  | SysBoot
  | SysNice
  | SysResource
  | SysTime
  | SysTtyConfig
  | Mknod
  | Lease
  | AuditWrite
  | AuditControl
  | SetFcap
  | MacOverride
  | MacAdmin
  | Syslog
  | WakeAlarm
  | BlockSuspend
  | AuditRead
  | All
  deriving DecidableEq, Repr

def Enumerator.value : Enumerator → Capability
  | None => 0#64
  | ChownFiles => 1#64 <<< 0
  | BypassFilePermissions => 1#64 <<< 1
  | BypassFileOwnership => 1#64 <<< 2
  | OverrideFileOwnership => 1#64 <<< 3
  | Kill => 1#64 <<< 5
  | SetGid => 1#64 <<< 6
  | SetUid => 1#64 <<< 7
  | SetPcap => 1#64 <<< 8
  | LinuxImmutable => 1#64 <<< 9
  | BindService => 1#64 <<< 10
  | Broadcast => 1#64 <<< 11
  | NetAdmin => 1#64 <<< 12
  | NetRaw => 1#64 <<< 13
  | IpcLock => 1#64 <<< 14
  | IpcOwner => 1#64 <<< 15
  | SysModule => 1#64 <<< 16
  | SysRawio => 1#64 <<< 17
  | SysChroot => 1#64 <<< 18
  | SysPtrace => 1#64 <<< 19
  | SysPacket => 1#64 <<< 20
  | SysAdmin => 1#64 <<< 21
  | SysBoot => 1#64 <<< 22
  | SysNice => 1#64 <<< 23
  | SysResource => 1#64 <<< 24
  | SysTime => 1#64 <<< 25
  | SysTtyConfig => 1#64 <<< 26
  | Mknod => 1#64 <<< 27
  | Lease => 1#64 <<< 28
  | AuditWrite => 1#64 <<< 29
  | AuditControl => 1#64 <<< 30
  | SetFcap => 1#64 <<< 31
  | MacOverride => 1#64 <<< 32
  | MacAdmin => 1#64 <<< 33
  | Syslog => 1#64 <<< 34
  | WakeAlarm => 1#64 <<< 35
  | BlockSuspend => 1#64 <<< 36
  | AuditRead => 1#64 <<< 37
  | All => 0xFFFFFFFFFFFFFFFF#64

/-- The capabilities that `operator|` makes of the enumerators. -/
inductive Built : Capability → Prop
  | enumerator (e : Enumerator) : Built e.value
  | or {a b : Capability} (left : Built a) (right : Built b) : Built (a ||| b)

/-- `std::bitset<64>::test`. It throws `std::out_of_range` (`none`) past the last bit. -/
def test (bits : BitVec 64) (pos : BitVec 64) : Option Bool :=
  if pos < 64#64 then some (bits.getLsbD pos.toNat) else none

/-- `Process::has_capability`. It is `noexcept`: an exception terminates the kernel. -/
def hasCapability (capabilities : BitVec 64) (cap : Capability) : Option Bool :=
  test capabilities cap

/-- Every bit of `cap` is held. -/
def Holds (capabilities : BitVec 64) (cap : Capability) : Prop := cap &&& capabilities = cap

instance (capabilities : BitVec 64) (cap : Capability) : Decidable (Holds capabilities cap) :=
  inferInstanceAs (Decidable (_ = _))

/-- The check returns, and it returns whether every bit of `cap` is held. -/
def Exact (capabilities : BitVec 64) (cap : Capability) : Prop :=
  hasCapability capabilities cap = some (decide (Holds capabilities cap))

/-- The capabilities with numbers below 64. -/
def lowCapabilities : Capability :=
  Enumerator.ChownFiles.value ||| Enumerator.BypassFilePermissions.value |||
    Enumerator.BypassFileOwnership.value ||| Enumerator.OverrideFileOwnership.value |||
    Enumerator.Kill.value

section Check

variable {capabilities cap : BitVec 64}

/-- No enumerator has the bit 4, except for `All`. -/
theorem Built.eq_all (built : Built cap) (bit : cap.getLsbD 4 = true) :
    cap = Enumerator.All.value := by
  induction built with
  | enumerator e => cases e <;> first | rfl | exact absurd bit (by decide)
  | @or a b left right ihLeft ihRight =>
      rw [BitVec.getLsbD_or, Bool.or_eq_true] at bit
      rcases bit with inLeft | inRight
      · rw [ihLeft inLeft]
        exact BitVec.allOnes_or
      · rw [ihRight inRight]
        exact BitVec.or_allOnes

/-- The bits of the low capabilities. -/
theorem Built.lt_iff (built : Built cap) : cap < 64#64 ↔ Holds lowCapabilities cap := by
  constructor
  · intro below
    have noFour : cap.getLsbD 4 = false := by
      by_contra bit
      rw [built.eq_all (by simpa using bit)] at below
      exact absurd below (by decide)
    refine BitVec.eq_of_getLsbD_eq fun i _ => ?_
    rw [BitVec.getLsbD_and]
    by_cases high : 6 ≤ i
    · have small : cap.toNat < 2 ^ i :=
        Nat.lt_of_lt_of_le below (Nat.pow_le_pow_right (by decide : 0 < 2) high)
      rw [show cap.getLsbD i = false from Nat.testBit_lt_two_pow small, Bool.false_and]
    · by_cases four : i = 4
      · rw [four, noFour, Bool.false_and]
      · have low : lowCapabilities.getLsbD i = true := by
          have cases : i = 0 ∨ i = 1 ∨ i = 2 ∨ i = 3 ∨ i = 5 := by omega
          rcases cases with rfl | rfl | rfl | rfl | rfl <;> decide
        rw [low, Bool.and_true]
  · intro low
    rw [BitVec.lt_def, ← show cap &&& lowCapabilities = cap from low, BitVec.toNat_and]
    exact Nat.and_le_right.trans_lt (by decide)

/-- A single capability is held exactly when its bit is set. -/
theorem holds_shiftLeft_iff {n : ℕ} (below : n < 64) :
    Holds capabilities (1#64 <<< n) ↔ capabilities.getLsbD n = true := by
  rw [Holds, ← BitVec.twoPow_eq, BitVec.twoPow_and]
  split
  · rename_i bit
    exact iff_of_true rfl bit
  · rename_i noBit
    refine iff_of_false (fun zero => ?_) noBit
    have bit := congrArg (BitVec.getLsbD · n) zero
    rw [BitVec.getLsbD_twoPow, BitVec.getLsbD_zero] at bit
    simp [below] at bit

/-- What is checked is the capability whose number is the mask. -/
theorem hasCapability_eq (below : cap < 64#64) :
    hasCapability capabilities cap =
      some (decide (Holds capabilities (1#64 <<< cap.toNat))) := by
  rw [hasCapability, test, if_pos below, Option.some_inj, Bool.eq_iff_iff, decide_eq_true_iff]
  exact (holds_shiftLeft_iff below).symm

/-- A mask does not have the bit whose number it is. -/
theorem getLsbD_toNat_self (cap : BitVec 64) : cap.getLsbD cap.toNat = false :=
  Nat.testBit_lt_two_pow Nat.lt_two_pow_self

/-- A check is exact exactly when the mask is the number of a capability, which is held along with
the one that is asked for. No capability is checked exactly for every set. -/
theorem hasCapability_exact_iff (built : Built cap) :
    (∀ capabilities, Exact capabilities cap ↔ Holds lowCapabilities cap ∧
      (Holds capabilities (1#64 <<< cap.toNat) ↔ Holds capabilities cap)) ∧
    ∃ capabilities, ¬ Exact capabilities cap := by
  have exact_iff (capabilities : BitVec 64) : Exact capabilities cap ↔ Holds lowCapabilities cap ∧
      (Holds capabilities (1#64 <<< cap.toNat) ↔ Holds capabilities cap) := by
    by_cases below : cap < 64#64
    · rw [Exact, hasCapability_eq below, Option.some_inj, decide_eq_decide]
      exact (and_iff_right (built.lt_iff.mp below)).symm
    · rw [Exact, hasCapability, test, if_neg below]
      exact iff_of_false (by simp) fun low => below (built.lt_iff.mpr low.1)
  refine ⟨exact_iff, cap, fun exact => ?_⟩
  obtain ⟨low, same⟩ := (exact_iff cap).mp exact
  have tested := (holds_shiftLeft_iff (built.lt_iff.mpr low)).mp (same.mpr (BitVec.and_self ..))
  rw [getLsbD_toNat_self] at tested
  cases tested

/-- A set with the capability `Kill` is said not to have it, and a question about `BindService`
terminates the kernel. -/
theorem hasCapability_not_exact :
    hasCapability Enumerator.Kill.value Enumerator.Kill.value = some false ∧
    hasCapability Enumerator.BindService.value Enumerator.BindService.value = none ∧
    ¬ ∀ capabilities cap, Built cap → cap ≠ 0#64 → Exact capabilities cap := by
  refine ⟨by decide, by decide, fun always => ?_⟩
  have exact := always Enumerator.Kill.value _ (.enumerator .Kill) (by decide)
  exact absurd exact (by unfold Exact; decide)

theorem hasCapability_exact_iff_chownFiles :
    (∀ capabilities, Exact capabilities Enumerator.ChownFiles.value ↔
      Holds lowCapabilities Enumerator.ChownFiles.value ∧
        (Holds capabilities (1#64 <<< 1) ↔ Holds capabilities Enumerator.ChownFiles.value)) ∧
    ∃ capabilities, ¬ Exact capabilities Enumerator.ChownFiles.value :=
  hasCapability_exact_iff (.enumerator .ChownFiles)

end Check

end ModernOS.Process
