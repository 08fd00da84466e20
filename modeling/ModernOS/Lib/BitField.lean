import Mathlib.Data.Nat.Notation

/-!
Bit-fields of a machine word.

`get lo len` reads the field of `len` bits that starts at bit `lo`, `set lo`
overwrites it and leaves the other bits alone, as a compiler does for the
bit-field members of a C structure laid out from bit 0 upwards.

A word that is cut into fields with shifts, masks and casts (`setWidth_mask`, `setWidth_shift_mask`)
is put together again from them, one after another (`join`).
-/

namespace BitField

variable {w len len' : ℕ}

/-- The field of `len` bits that starts at bit `lo`. -/
def get (lo len : ℕ) (x : BitVec w) : BitVec len := x.extractLsb' lo len

/-- The word with the field of `len` bits that starts at bit `lo` replaced by `v`. -/
def set (lo : ℕ) (v : BitVec len) (x : BitVec w) : BitVec w :=
  (x &&& ~~~((BitVec.allOnes len).setWidth w <<< lo)) ||| (v.setWidth w <<< lo)

theorem getLsbD_set (lo i : ℕ) (v : BitVec len) (x : BitVec w) (inside : i < w) :
    (set lo v x).getLsbD i =
      if lo ≤ i ∧ i < lo + len then v.getLsbD (i - lo) else x.getLsbD i := by
  simp only [set, BitVec.getLsbD_or, BitVec.getLsbD_and, BitVec.getLsbD_not,
    BitVec.getLsbD_shiftLeft, BitVec.getLsbD_setWidth, BitVec.getLsbD_allOnes, inside,
    decide_true, Bool.true_and]
  by_cases below : i < lo
  · simp [below, Nat.not_le.mpr below]
  · have narrow : i - lo < w := by omega
    by_cases within : i < lo + len
    · have fits : i - lo < len := by omega
      simp [below, Nat.le_of_not_lt below, within, fits, narrow]
    · have beyond : ¬ i - lo < len := by omega
      simp [below, within, beyond, BitVec.getLsbD_of_ge v (i - lo) (by omega)]

/-- A field reads back the value written to it. -/
theorem get_set_self (lo : ℕ) (v : BitVec len) (x : BitVec w) (fits : lo + len ≤ w) :
    get lo len (set lo v x) = v := by
  apply BitVec.eq_of_getLsbD_eq
  intro i hi
  rw [get, BitVec.getLsbD_extractLsb', getLsbD_set _ _ _ _ (by omega)]
  simp [hi]

/-- Writing one field leaves a field that shares no bit with it. -/
theorem get_set_of_disjoint (lo lo' : ℕ) (v : BitVec len) (x : BitVec w) (fits : lo' + len' ≤ w)
    (apart : lo' + len' ≤ lo ∨ lo + len ≤ lo') :
    get lo' len' (set lo v x) = get lo' len' x := by
  apply BitVec.eq_of_getLsbD_eq
  intro i hi
  rw [get, get, BitVec.getLsbD_extractLsb', BitVec.getLsbD_extractLsb',
    getLsbD_set _ _ _ _ (by omega), if_neg (by omega)]

/-! ### Words cut into fields -/

variable (x : BitVec w)

/-- The lowest field, cut out with a mask and a cast. -/
theorem setWidth_mask : (x &&& (BitVec.allOnes len).setWidth w).setWidth len = get 0 len x := by
  apply BitVec.eq_of_getLsbD_eq
  intro i inside
  simp only [get, BitVec.getLsbD_setWidth, BitVec.getLsbD_and, BitVec.getLsbD_allOnes,
    BitVec.getLsbD_extractLsb', inside, decide_true, Bool.true_and, Nat.zero_add]
  by_cases narrow : i < w
  · simp [narrow]
  · simp [narrow, BitVec.getLsbD_of_ge x i (Nat.le_of_not_lt narrow)]

/-- A field, cut out with a shift, a mask and a cast. -/
theorem setWidth_shift_mask (lo : ℕ) :
    (x >>> lo &&& (BitVec.allOnes len).setWidth w).setWidth len = get lo len x := by
  rw [setWidth_mask]
  apply BitVec.eq_of_getLsbD_eq
  intro i inside
  simp [get, inside]

/-- The fields of a word that is extended, or cut off above them. -/
theorem get_setWidth {lo : ℕ} (fits : lo + len ≤ len') :
    get lo len (x.setWidth len') = get lo len x := by
  apply BitVec.eq_of_getLsbD_eq
  intro i inside
  have within : lo + i < len' := by omega
  simp [get, inside, within]

/-- There is nothing above the word. -/
theorem get_of_ge {lo : ℕ} (above : w ≤ lo) : get lo len x = BitVec.zero len := by
  apply BitVec.eq_of_getLsbD_eq
  intro i inside
  simp [get, inside, BitVec.getLsbD_of_ge x (lo + i) (by omega)]

/-- A field is put behind those below it. -/
theorem join (lo len : ℕ) :
    (get 0 lo x).setWidth w ||| (get lo len x).setWidth w <<< lo =
      (get 0 (lo + len) x).setWidth w := by
  apply BitVec.eq_of_getLsbD_eq
  intro i inside
  simp only [get, BitVec.getLsbD_or, BitVec.getLsbD_shiftLeft, BitVec.getLsbD_setWidth,
    BitVec.getLsbD_extractLsb', inside, decide_true, Bool.true_and, Nat.zero_add]
  by_cases below : i < lo
  · have within : i < lo + len := by omega
    simp [below, within]
  · have position : lo + (i - lo) = i := by omega
    have within : i - lo < len ↔ i < lo + len := by omega
    have narrow : i - lo < w := by omega
    simp [below, position, within, narrow]

/-- The field of all bits. -/
theorem get_all : get 0 w x = x := by
  apply BitVec.eq_of_getLsbD_eq
  intro i inside
  simp [get, inside]

end BitField
