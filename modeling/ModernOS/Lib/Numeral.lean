import Mathlib.Data.Nat.Digits.Lemmas

/-!
Numerals: strings of digits, the most significant one first.

A numeral is read digit by digit (`read`), in a base of at most 16 with upper-case letters. What
is written digit by digit is read as the number with those digits (`read_map`), and the digits of
a number give a numeral without leading zeros (`canonical_numeral`).
-/

namespace Numeral

/-- The character of a digit. -/
def digitChar (d : ℕ) : BitVec 8 := BitVec.ofNat 8 (if d < 10 then 0x30 + d else 0x41 + (d - 10))

/-- The digit that a character stands for. -/
def digitOf (base : ℕ) (c : BitVec 8) : Option ℕ := (List.range base).find? (digitChar · = c)

/-- The value of a string of digits. -/
def read (base : ℕ) (str : List (BitVec 8)) : Option ℕ :=
  (str.mapM (digitOf base)).map fun ds => Nat.ofDigits base ds.reverse

/-- The string is read as `n` and has no zero in front, `0` itself apart. -/
structure Canonical (base : ℕ) (str : List (BitVec 8)) (n : ℕ) : Prop where
  value : read base str = some n
  nonempty : str ≠ []
  head : str.head? = some (digitChar 0) → str = [digitChar 0]

/-- The numeral of a number. -/
def numeral (base n : ℕ) : List (BitVec 8) :=
  if n = 0 then [digitChar 0] else (Nat.digits base n).reverse.map digitChar

section

variable {base : ℕ}

theorem digitChar_injOn : Set.InjOn digitChar (Set.Iio 16) := by
  have all : ∀ d < 16, ∀ d' < 16, digitChar d = digitChar d' → d = d' := by decide
  exact fun d inside d' inside' same => all d inside d' inside' same

theorem ne_zero_of_mem_map {ds : List ℕ} (digits : ∀ d ∈ ds, d < 16) {c : BitVec 8}
    (mem : c ∈ ds.map digitChar) : c ≠ 0#8 := by
  obtain ⟨d, digit, rfl⟩ := List.mem_map.mp mem
  have all : ∀ d < 16, digitChar d ≠ 0#8 := by decide
  exact all d (digits d digit)

theorem digitOf_digitChar (small : base ≤ 16) {d : ℕ} (inside : d < base) :
    digitOf base (digitChar d) = some d := by
  refine List.find?_range_eq_some.mpr ⟨decide_eq_true rfl, List.mem_range.mpr inside, ?_⟩
  intro d' below
  have other : digitChar d' ≠ digitChar d := fun same =>
    below.ne (digitChar_injOn (below.trans (inside.trans_le small)) (inside.trans_le small) same)
  simp [other]

/-- The characters of some digits are read back. -/
theorem read_map (small : base ≤ 16) {ds : List ℕ} (digits : ∀ d ∈ ds, d < base) :
    read base (ds.map digitChar) = some (Nat.ofDigits base ds.reverse) := by
  have readBack : (ds.map digitChar).mapM (digitOf base) = some ds := by
    induction ds with
    | nil => rfl
    | cons d ds ih =>
        rw [List.map_cons, List.mapM_cons, digitOf_digitChar small (digits d List.mem_cons_self),
          ih fun d' mem => digits d' (List.mem_cons_of_mem d mem)]
        rfl
  rw [read, readBack]
  rfl

/-- The digits of weight below `base ^ m`, the lowest first. -/
def digitsBelow (base m n : ℕ) : List ℕ := (List.range m).map fun i => n / base ^ i % base

theorem digitsBelow_succ (base m n : ℕ) :
    digitsBelow base (m + 1) n = n % base :: digitsBelow base m (n / base) := by
  have shift (i : ℕ) : n / base ^ (i + 1) % base = n / base / base ^ i % base := by
    rw [Nat.div_div_eq_div_mul, Nat.pow_succ']
  rw [digitsBelow, List.range_succ_eq_map, List.map_cons, List.map_map, Nat.pow_zero, Nat.div_one]
  exact congrArg _ (List.map_congr_left fun i _ => shift i)

theorem ofDigits_digitsBelow (base m n : ℕ) :
    Nat.ofDigits base (digitsBelow base m n) = n % base ^ m := by
  induction m generalizing n with
  | zero => exact (Nat.mod_one n).symm
  | succ m ih => rw [digitsBelow_succ, Nat.ofDigits_cons, ih, Nat.pow_succ', Nat.mod_mul]

theorem canonical_numeral (large : 1 < base) (small : base ≤ 16) (n : ℕ) :
    Canonical base (numeral base n) n := by
  rw [numeral]
  split
  · rename_i zero
    refine ⟨?_, List.cons_ne_nil _ _, fun _ => rfl⟩
    rw [zero]
    exact @read_map base small [0] fun d mem => by
      rw [List.mem_singleton.mp mem]
      exact Nat.zero_lt_of_lt large
  · rename_i nonzero
    have some_digit : Nat.digits base n ≠ [] := Nat.digits_ne_nil_iff_ne_zero.mpr nonzero
    refine ⟨?_, ?_, fun head => ?_⟩
    · rw [read_map small fun d mem => Nat.digits_lt_base large (List.mem_reverse.mp mem),
        List.reverse_reverse, Nat.ofDigits_digits]
    · simp [some_digit]
    · have last := Nat.getLast_digit_ne_zero base nonzero
      have inside := Nat.digits_lt_base large (List.getLast_mem some_digit)
      rw [List.head?_map, List.head?_reverse, List.getLast?_eq_some_getLast some_digit,
        Option.map_some, Option.some_inj] at head
      exact absurd (digitChar_injOn (inside.trans_le small) (show 0 < 16 by decide) head) last

end

end Numeral
