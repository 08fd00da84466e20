import ModernOS.Lib.ByteMemory

/-!
Words in a buffer of bytes.

`load` reads a word in little-endian order, byte by byte; it fails at a byte outside of the buffer.
It succeeds where there is room for the word (`exists_load`), and what it gives is the word whose
bytes are there (`wordAt_of_load`).
-/

namespace ByteBuffer

open ByteMemory

/-- Load `n` bytes from an offset on. -/
def load (buffer : List (BitVec 8)) : (n : ℕ) → (offset : ℕ) → Option (BitVec (8 * n))
  | 0, _ => some 0#0
  | n + 1, offset => do
      let low ← buffer[offset]?
      let high ← load buffer n (offset + 1)
      return high ++ low

/-- The bytes of a word are in the buffer, from an offset on. -/
def WordAt (buffer : List (BitVec 8)) {n : ℕ} (offset : ℕ) (v : BitVec (8 * n)) : Prop :=
  ∀ k < n, buffer[offset + k]? = some (byte k v)

variable {buffer : List (BitVec 8)} {n offset : ℕ}

theorem wordAt_of_load {v : BitVec (8 * n)} (loaded : load buffer n offset = some v) :
    WordAt buffer offset v := by
  induction n generalizing offset with
  | zero => exact fun k below => absurd below (Nat.not_lt_zero k)
  | succ n ih =>
      obtain ⟨low, first, rest⟩ := Option.bind_eq_some_iff.mp loaded
      obtain ⟨high, later, whole⟩ := Option.bind_eq_some_iff.mp rest
      obtain rfl := Option.some.inj whole
      intro k below
      cases k with
      | zero => rw [Nat.add_zero, first, byte_zero_append]
      | succ k =>
          rw [byte_succ_append, ← ih later k (by omega)]
          congr 1
          omega

theorem exists_load (inside : offset + n ≤ buffer.length) :
    ∃ v, load buffer n offset = some v := by
  induction n generalizing offset with
  | zero => exact ⟨_, rfl⟩
  | succ n ih =>
      obtain ⟨high, later⟩ := @ih (offset + 1) (by omega)
      have first : buffer[offset]? = some buffer[offset] := List.getElem?_eq_getElem (by omega)
      rw [load, first, later]
      exact ⟨_, rfl⟩

end ByteBuffer
