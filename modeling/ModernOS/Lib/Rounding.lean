import Mathlib.Algebra.Ring.Nat
import Mathlib.Order.Bounds.Defs

/-!
Rounding to multiples, and rounding with masks.

`down d a` is the greatest multiple of `d` that is not above `a` (`isGreatest_down`), `up d a` the
least that is not below it (`isLeast_up`). Clearing the `k` lowest bits of a word rounds it down to
a multiple of `2 ^ k` (`toNat_and_not_mask`). Adding `2 ^ k - 1` first rounds it up, unless the sum
is no word any more (`toNat_up`); then the result is zero (`up_of_wraps`).
-/

namespace Rounding

/-- `a`, rounded down to a multiple of `d`. -/
def down (d a : ℕ) : ℕ := a / d * d

/-- `a`, rounded up to a multiple of `d`. -/
def up (d a : ℕ) : ℕ := down d (a + (d - 1))

section Multiples

variable {d a m : ℕ}

theorem dvd_down (d a : ℕ) : d ∣ down d a := Nat.dvd_mul_left d (a / d)

theorem down_le (d a : ℕ) : down d a ≤ a := Nat.div_mul_le_self a d

theorem lt_down_add (positive : 0 < d) : a < down d a + d := Nat.lt_div_mul_add positive

theorem le_down (multiple : d ∣ m) (below : m ≤ a) : m ≤ down d a := by
  rw [← Nat.div_mul_cancel multiple]
  exact Nat.mul_le_mul_right d (Nat.div_le_div_right below)

theorem isGreatest_down (d a : ℕ) : IsGreatest {m | d ∣ m ∧ m ≤ a} (down d a) :=
  ⟨⟨dvd_down d a, down_le d a⟩, fun _ ⟨multiple, below⟩ => le_down multiple below⟩

theorem down_eq_self : down d a = a ↔ d ∣ a := (Nat.dvd_iff_div_mul_eq a d).symm

theorem dvd_up (d a : ℕ) : d ∣ up d a := dvd_down d _

theorem le_up (positive : 0 < d) : a ≤ up d a := by
  have above : a + (d - 1) < up d a + d := lt_down_add positive
  omega

theorem up_lt (positive : 0 < d) : up d a < a + d := by
  have below : up d a ≤ a + (d - 1) := down_le d _
  omega

theorem isLeast_up (positive : 0 < d) : IsLeast {m | d ∣ m ∧ a ≤ m} (up d a) := by
  refine ⟨⟨dvd_up d a, le_up positive⟩, ?_⟩
  rintro m ⟨⟨q, rfl⟩, above⟩
  obtain ⟨r, same⟩ := dvd_up d a
  have below : d * r < d * (q + 1) := by
    rw [← same, Nat.mul_succ]
    exact Nat.lt_of_lt_of_le (up_lt positive) (Nat.add_le_add_right above d)
  rw [same]
  exact Nat.mul_le_mul_left d (Nat.lt_succ_iff.mp (Nat.lt_of_mul_lt_mul_left below))

/-- The two agree on the multiples only. -/
theorem down_eq_up (positive : 0 < d) : down d a = up d a ↔ d ∣ a := by
  constructor
  · intro same
    have between := down_le d a
    rw [same] at between
    have fixed : up d a = a := Nat.le_antisymm between (le_up positive)
    exact fixed ▸ dvd_up d a
  · intro multiple
    rw [down_eq_self.mpr multiple]
    exact Nat.le_antisymm (le_up positive) ((isLeast_up positive).2 ⟨multiple, Nat.le_refl a⟩)

end Multiples

section Masks

variable {w k : ℕ} (x : BitVec w)

/-- The bits under the mask are the remainder. -/
theorem toNat_and_mask (fits : k ≤ w) :
    (x &&& BitVec.ofNat w (2 ^ k - 1)).toNat = x.toNat % 2 ^ k := by
  have small : 2 ^ k - 1 < 2 ^ w := by
    have le := Nat.pow_le_pow_right (show 0 < 2 by decide) fits
    have positive := Nat.two_pow_pos k
    omega
  rw [BitVec.toNat_and, BitVec.toNat_ofNat, Nat.mod_eq_of_lt small, Nat.and_two_pow_sub_one_eq_mod]

/-- Clearing them rounds down. -/
theorem toNat_and_not_mask (k : ℕ) :
    (x &&& ~~~BitVec.ofNat w (2 ^ k - 1)).toNat = down (2 ^ k) x.toNat := by
  apply Nat.eq_of_testBit_eq
  intro i
  rw [down, Nat.testBit_mul_two_pow, Nat.testBit_div_two_pow, BitVec.testBit_toNat,
    BitVec.getLsbD_and, BitVec.getLsbD_not, BitVec.getLsbD_ofNat, Nat.testBit_two_pow_sub_one,
    BitVec.testBit_toNat]
  by_cases low : i < k
  · simp [low, Nat.not_le.mpr low]
  · have place : i - k + k = i := Nat.sub_add_cancel (Nat.le_of_not_lt low)
    simp only [place, low, Nat.le_of_not_lt low, decide_true, decide_false, Bool.and_false,
      Bool.not_false, Bool.and_true, Bool.true_and]
    by_cases inside : i < w
    · simp [inside]
    · simp [inside, BitVec.getLsbD_of_ge x i (Nat.le_of_not_lt inside)]

/-- The word that is rounded down to round `x` up. -/
theorem toNat_add_sub_one (fits : k < w) :
    (x + BitVec.ofNat w (2 ^ k) - 1#w).toNat = (x.toNat + (2 ^ k - 1)) % 2 ^ w := by
  have wide : 1 < 2 ^ w := Nat.one_lt_two_pow (Nat.ne_zero_of_lt fits)
  have mask : BitVec.ofNat w (2 ^ k) - 1#w = BitVec.ofNat w (2 ^ k - 1) :=
    BitVec.ofNat_sub_ofNat_of_le _ _ wide Nat.one_le_two_pow
  rw [BitVec.sub_eq_add_neg, BitVec.add_assoc, ← BitVec.sub_eq_add_neg, mask, BitVec.toNat_add,
    BitVec.toNat_ofNat, Nat.add_mod_mod]

/-- Rounding up, where the next multiple is at most `2 ^ w - 2 ^ k`. -/
theorem toNat_up (fits : k < w) (room : x.toNat + 2 ^ k ≤ 2 ^ w) :
    ((x + BitVec.ofNat w (2 ^ k) - 1#w) &&& ~~~BitVec.ofNat w (2 ^ k - 1)).toNat =
      up (2 ^ k) x.toNat := by
  have positive := Nat.two_pow_pos k
  rw [toNat_and_not_mask, toNat_add_sub_one x fits, Nat.mod_eq_of_lt (by omega)]
  rfl

/-- Behind the last multiple, the sum wraps, and nothing is left of it. -/
theorem up_of_wraps (fits : k < w) (wraps : 2 ^ w < x.toNat + 2 ^ k) :
    (x + BitVec.ofNat w (2 ^ k) - 1#w) &&& ~~~BitVec.ofNat w (2 ^ k - 1) = 0#w := by
  have inside := x.isLt
  have narrow : 2 ^ k < 2 ^ w := Nat.pow_lt_pow_right (by decide) fits
  apply BitVec.eq_of_toNat_eq
  rw [toNat_and_not_mask, toNat_add_sub_one x fits, Nat.mod_eq_sub_mod (by omega),
    Nat.mod_eq_of_lt (by omega), down, Nat.div_eq_of_lt (by omega), Nat.zero_mul]
  rfl

end Masks

end Rounding
