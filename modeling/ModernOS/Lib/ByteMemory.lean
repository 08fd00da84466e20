import Mathlib.Algebra.Group.Nat.Defs

/-!
Flat byte memory with 64-bit addresses.

`read n` and `write n` access `n` bytes in little-endian order; addresses wrap
around. Everything about words is said byte by byte: `write_apply` gives the byte
at each address after a store, `byte_read` the bytes of a loaded word, and
`read_write_self` and `read_write_of_apart` follow. `fillString` is the loop of a
string store; `fillString_apply` gives its result when the stores do not meet.
-/

/-- The byte at each address. -/
abbrev ByteMemory := BitVec 64 → BitVec 8

namespace ByteMemory

variable {n : ℕ}

/-- Byte `k` of a word, from the low end. -/
def byte (k : ℕ) {w : ℕ} (v : BitVec w) : BitVec 8 := v.extractLsb' (8 * k) 8

theorem getLsbD_byte (k i : ℕ) {w : ℕ} (v : BitVec w) (small : i < 8) :
    (byte k v).getLsbD i = v.getLsbD (8 * k + i) := by
  simp [byte, small]

theorem byte_zero_append (high : BitVec (8 * n)) (low : BitVec 8) :
    byte 0 (high ++ low) = low := by
  apply BitVec.eq_of_getLsbD_eq
  intro i inside
  rw [getLsbD_byte 0 i _ inside, BitVec.getLsbD_append, if_pos (by omega)]
  congr 1
  omega

theorem byte_succ_append (k : ℕ) (high : BitVec (8 * n)) (low : BitVec 8) :
    byte (k + 1) (high ++ low) = byte k high := by
  apply BitVec.eq_of_getLsbD_eq
  intro i inside
  rw [getLsbD_byte _ i _ inside, getLsbD_byte _ i _ inside, BitVec.getLsbD_append,
    if_neg (by omega)]
  congr 1
  omega

/-- A word is determined by its bytes. -/
theorem eq_of_byte {v v' : BitVec (8 * n)} (same : ∀ k < n, byte k v = byte k v') : v = v' := by
  apply BitVec.eq_of_getLsbD_eq
  intro i hi
  have bytes := congrArg (fun b : BitVec 8 => b.getLsbD (i % 8)) (same (i / 8) (by omega))
  simp only [getLsbD_byte _ _ _ (Nat.mod_lt i (by decide : 8 > 0)), Nat.div_add_mod] at bytes
  exact bytes

/-- Load `n` bytes from address `a`. -/
def read (m : ByteMemory) : (n : ℕ) → (a : BitVec 64) → BitVec (8 * n)
  | 0, _ => 0#0
  | n + 1, a => read m n (a + 1#64) ++ m a

/-- Store `n` bytes at address `a`. -/
def write (m : ByteMemory) (n : ℕ) (a : BitVec 64) (v : BitVec (8 * n)) : ByteMemory :=
  fun b => if (b - a).toNat < n then byte (b - a).toNat v else m b

theorem write_apply (m : ByteMemory) (a : BitVec 64) (v : BitVec (8 * n)) (b : BitVec 64) :
    m.write n a v b = if (b - a).toNat < n then byte (b - a).toNat v else m b := rfl

theorem byte_read (m : ByteMemory) {k : ℕ} (small : k < n) (a : BitVec 64) :
    byte k (m.read n a) = m (a + BitVec.ofNat 64 k) := by
  induction n generalizing k a with
  | zero => omega
  | succ n ih =>
      rw [read]
      cases k with
      | zero => exact (byte_zero_append ..).trans (congrArg m (BitVec.add_zero a).symm)
      | succ k =>
          have next : a + 1#64 + BitVec.ofNat 64 k = a + BitVec.ofNat 64 (k + 1) := by
            rw [BitVec.add_assoc, ← BitVec.ofNat_add, Nat.add_comm]
          exact (byte_succ_append ..).trans ((ih (by omega) (a + 1#64)).trans (congrArg m next))

/-- The low byte of a loaded word. -/
theorem byte_zero_read (m : ByteMemory) (some_byte : 0 < n) (a : BitVec 64) :
    byte 0 (m.read n a) = m a :=
  (byte_read m some_byte a).trans (congrArg m (BitVec.add_zero a))

example : read (fun a => if a = 1#64 then 0xAB#8 else 0#8) 8 0#64 = 0xAB00#64 := by
  decide +kernel

theorem read_eq_iff {m : ByteMemory} {a : BitVec 64} {v : BitVec (8 * n)} :
    m.read n a = v ↔ ∀ k < n, m (a + BitVec.ofNat 64 k) = byte k v := by
  constructor
  · rintro rfl k small
    exact (byte_read m small a).symm
  · intro same
    exact eq_of_byte fun k small => (byte_read m small a).trans (same k small)

/-- A word just stored is loaded again. -/
theorem read_write_self (m : ByteMemory) (a : BitVec 64) (v : BitVec (8 * n)) (fits : n ≤ 2 ^ 64) :
    (m.write n a v).read n a = v := by
  refine read_eq_iff.mpr fun k small => ?_
  have offset : (a + BitVec.ofNat 64 k - a).toNat = k := by
    rw [BitVec.add_comm, BitVec.add_sub_cancel, BitVec.toNat_ofNat]
    omega
  rw [write_apply, offset, if_pos small]

/-- A store of `n` bytes at `a` does not meet `k` bytes at `b`. -/
def Apart (a : BitVec 64) (n : ℕ) (b : BitVec 64) (k : ℕ) : Prop :=
  n ≤ (b - a).toNat ∧ k ≤ (a - b).toNat

instance (a : BitVec 64) (n : ℕ) (b : BitVec 64) (k : ℕ) : Decidable (Apart a n b k) :=
  inferInstanceAs (Decidable (_ ∧ _))

/-- A store leaves the words it does not meet. -/
theorem read_write_of_apart (m : ByteMemory) {a b : BitVec 64} {k : ℕ} (apart : Apart a n b k)
    (v : BitVec (8 * n)) : (m.write n a v).read k b = m.read k b := by
  refine read_eq_iff.mpr fun i small => ?_
  rw [byte_read m small, write_apply, if_neg]
  obtain ⟨above, below⟩ := apart
  bv_omega

/-! ### String stores -/

/-- Store the word `v` `n` times, from address `a` on, with the given distance. -/
def fillString (v : BitVec 64) (stride : BitVec 64) : ℕ → BitVec 64 → ByteMemory → ByteMemory
  | 0, _, m => m
  | n + 1, a, m => fillString v stride n (a + stride) (m.write 8 a v)

/-- A byte that none of the words meets stays. -/
theorem fillString_apply_of_apart {n : ℕ} {v stride a b : BitVec 64}
    (apart : ∀ k < n, 8 ≤ (b - (a + BitVec.ofNat 64 k * stride)).toNat) (m : ByteMemory) :
    fillString v stride n a m b = m b := by
  induction n generalizing a m with
  | zero => rfl
  | succ n ih =>
      have first := apart 0 (Nat.succ_pos n)
      rw [BitVec.zero_mul, BitVec.add_zero] at first
      rw [fillString, ih, write_apply, if_neg (by omega)]
      intro k small
      have later := apart (k + 1) (by omega)
      rwa [BitVec.ofNat_add, BitVec.add_mul, BitVec.one_mul, BitVec.add_comm _ stride,
        ← BitVec.add_assoc] at later

/-- `n` words of zero stored upwards: the `8 * n` bytes from `a` on are zero, the others are
as before. -/
theorem fillString_zero_apply {n : ℕ} (fits : 8 * n ≤ 2 ^ 64) (a : BitVec 64) (m : ByteMemory)
    (b : BitVec 64) :
    fillString 0#64 8#64 n a m b = if (b - a).toNat < 8 * n then 0#8 else m b := by
  induction n generalizing a m with
  | zero => rfl
  | succ n ih =>
      rw [fillString, ih (by omega), write_apply]
      have zero : byte (b - a).toNat 0#64 = 0#8 := by simp [byte]
      rw [zero]
      have next : (b - (a + 8#64)).toNat = ((b - a).toNat + (2 ^ 64 - 8)) % 2 ^ 64 := by bv_omega
      rw [next]
      split
      · rw [if_pos (by omega)]
      · split
        · rw [if_pos (by omega)]
        · rw [if_neg (by omega)]

end ByteMemory
