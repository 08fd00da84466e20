import ModernOS.Console.Legacy
import ModernOS.Console.Syscall
import ModernOS.Lib.Numeral

/-!
What `print_dec` and the `print_number` of the older kernel print.

`print_dec` writes the digits downwards and prints the rest of the array; `print_number` writes
them upwards and prints backwards. Both print the decimal numeral of the value.
-/

namespace ModernOS.Console

open CountedLoop LoggedArray Numeral

section

variable {w : ℕ} {value : BitVec w}

/-- A digit as a character: `'0' + value`. -/
theorem ascii_add_digit (small : value.toNat < 10) :
    ascii '0' + value.setWidth 8 = digitChar value.toNat := by
  have all : ∀ n < 10, ascii '0' + BitVec.ofNat 8 n = digitChar n := by decide
  rw [← BitVec.ofNat_toNat]
  exact all _ small

/-- One round of either loop: it takes the last digit off the value. -/
theorem digits_round (wide : (10#w).toNat = 10) (positive : 0 < value.toNat) :
    (Nat.digits 10 value.toNat).map digitChar =
      (ascii '0' + (value % 10#w).setWidth 8) ::
        (Nat.digits 10 (value / 10#w).toNat).map digitChar := by
  have last : (value % 10#w).toNat = value.toNat % 10 := by rw [BitVec.toNat_umod, wide]
  have rest : (value / 10#w).toNat = value.toNat / 10 := by rw [BitVec.toNat_udiv, wide]
  have small : (value % 10#w).toNat < 10 := last ▸ Nat.mod_lt _ (by decide)
  rw [Nat.digits_def' (by decide) positive, List.map_cons, ascii_add_digit small, last, rest]

end

/-! ### The digits in the array -/

section

variable (value : BitVec 64) (num : BitVec 32)

/-- The digits are written downwards. -/
theorem decDigits_wrote (buffer : Buffer) (pos : ℤ) :
    (decDigits value buffer pos).2 = pos - (Nat.digits 10 value.toNat).length ∧
      Wrote buffer (decDigits value buffer pos).1 (decDigits value buffer pos).2
        ((Nat.digits 10 value.toNat).map digitChar).reverse := by
  induction value, buffer, pos using decDigits.induct with
  | case1 value buffer pos positive ih =>
      have digits := @digits_round 64 value rfl positive
      have length := congrArg List.length digits
      rw [List.length_cons, List.length_map, List.length_map] at length
      obtain ⟨ends, wrote⟩ := ih
      rw [decDigits, dif_pos positive, digits, List.reverse_cons]
      refine ⟨by omega, .concat ?_⟩
      have here : (decDigits (value / 10#64) (buffer.store (pos - 1)
          (ascii '0' + (value % 10#64).setWidth 8)) (pos - 1)).2 +
          ((Nat.digits 10 (value / 10#64).toNat).map digitChar).reverse.length = pos - 1 := by
        rw [List.length_reverse, List.length_map]
        omega
      rwa [here]
  | case2 value buffer pos zero =>
      obtain zero : value.toNat = 0 := Nat.eq_zero_of_not_pos zero
      rw [decDigits, dif_neg (by omega), zero, Nat.digits_zero]
      exact ⟨(Int.sub_zero pos).symm, .nil buffer pos⟩

/-- The digits are written upwards. -/
theorem numberDigits_wrote (buffer : Buffer) (i : ℤ) :
    (Legacy.numberDigits num buffer i).2 = i + (Nat.digits 10 num.toNat).length ∧
      Wrote buffer (Legacy.numberDigits num buffer i).1 i
        ((Nat.digits 10 num.toNat).map digitChar) := by
  induction num, buffer, i using Legacy.numberDigits.induct with
  | case1 num buffer i positive ih =>
      have digits := @digits_round 32 num rfl positive
      have length := congrArg List.length digits
      rw [List.length_cons, List.length_map, List.length_map] at length
      obtain ⟨ends, wrote⟩ := ih
      rw [Legacy.numberDigits, dif_pos positive, digits]
      exact ⟨by omega, wrote.cons⟩
  | case2 num buffer i zero =>
      obtain zero : num.toNat = 0 := Nat.eq_zero_of_not_pos zero
      rw [Legacy.numberDigits, dif_neg (by omega), zero, Nat.digits_zero]
      exact ⟨(Int.add_zero i).symm, .nil buffer i⟩

theorem toNat_wide : (num.setWidth 64).toNat = num.toNat := by
  rw [BitVec.toNat_setWidth, Nat.mod_eq_of_lt (num.isLt.trans (by decide))]

theorem length_digits_le : (Nat.digits 10 value.toNat).length ≤ 20 :=
  (Nat.digits_length_le_iff (by decide) _).mpr (value.isLt.trans (by decide))

/-- The array of `print_dec` after its loop, and the index where the digits start. -/
def decBuffer : Buffer × ℤ := decDigits value ((Buffer.init []).store 20 0#8) 20

/-- The array of `print_number` after its loop, and the number of the digits. -/
def numberBuffer : Buffer × ℤ := Legacy.numberDigits num (Buffer.init []) 0

theorem decString_eq : decString value =
    if value = 0#64 then [ascii '0']
    else (decBuffer value).1.string (decBuffer value).2 (21 - (decBuffer value).2).toNat := rfl

theorem printNumberTo_eq {σ : Type*} (put : Byte → σ → σ) (s : σ) :
    Legacy.printNumberTo put num s =
      if num = 0#32 then put (ascii '0') s
      else forDown (numberBuffer num).2.toNat
        (fun i s => put ((numberBuffer num).1.cells i) s) s := rfl

theorem decBuffer_within : (decBuffer value).1.Within fun i => 0 ≤ i ∧ i < 21 := by
  obtain ⟨ends, wrote⟩ := decDigits_wrote value ((Buffer.init []).store 20 0#8) 20
  have fits := length_digits_le value
  refine wrote.within (Within.store (fun i mem => absurd mem List.not_mem_nil) (by decide) _) ?_
  intro j above below
  rw [List.length_reverse, List.length_map] at below
  omega

theorem numberBuffer_within : (numberBuffer num).1.Within fun i => 0 ≤ i ∧ i < 32 := by
  obtain ⟨-, wrote⟩ := numberDigits_wrote num (Buffer.init []) 0
  have fits := length_digits_le (num.setWidth 64)
  rw [toNat_wide] at fits
  refine wrote.within (fun i mem => absurd mem List.not_mem_nil) fun j above below => ?_
  rw [List.length_map] at below
  omega

/-! ### The characters -/

/-- `print_dec` prints the numeral of its argument. -/
theorem decString_eq_numeral : decString value = numeral 10 value.toNat := by
  rw [decString_eq, numeral]
  by_cases zero : value = 0#64
  · subst zero
    rfl
  · have nonzero : value.toNat ≠ 0 := fun h => zero (BitVec.eq_of_toNat_eq h)
    rw [if_neg zero, if_neg nonzero, List.map_reverse]
    obtain ⟨ends, wrote⟩ := decDigits_wrote value ((Buffer.init []).store 20 0#8) 20
    have fits := length_digits_le value
    rw [← decBuffer] at ends wrote
    apply Buffer.string_eq wrote.inside
    · intro c mem
      refine ne_zero_of_mem_map (fun d digit => ?_) (List.mem_reverse.mp mem)
      exact (Nat.digits_lt_base (by decide) digit).trans (by decide)
    · rw [List.length_reverse, List.length_map, wrote.outside _ (Or.inr ?_)]
      · rw [ends, Int.sub_add_cancel]
        exact store_cells_self _ 20 _
      · rw [List.length_reverse, List.length_map]
    · rw [List.length_reverse, List.length_map]
      omega

/-- `print_number` prints the numeral of its argument. -/
theorem printNumberTo_eq_numeral {σ : Type*} (put : Byte → σ → σ) (s : σ) :
    Legacy.printNumberTo put num s = (numeral 10 num.toNat).foldl (fun s c => put c s) s := by
  rw [printNumberTo_eq, numeral]
  by_cases zero : num = 0#32
  · subst zero
    rfl
  · have nonzero : num.toNat ≠ 0 := fun h => zero (BitVec.eq_of_toNat_eq h)
    obtain ⟨ends, wrote⟩ := numberDigits_wrote num (Buffer.init []) 0
    have cells := map_cells wrote.inside
    rw [List.length_map] at cells
    rw [if_neg zero, if_neg nonzero, List.map_reverse, ← cells, ← forDown_foldl]
    simp only [numberBuffer, ends, Int.zero_add, Int.toNat_natCast]

/-- On the screen of the older kernel the number is the string that `print_dec` prints. -/
theorem printNumber_eq (s : Legacy.State) :
    Legacy.printNumber num s = Legacy.print (decString (num.setWidth 64)) s := by
  rw [decString_eq_numeral, toNat_wide]
  exact printNumberTo_eq_numeral num Legacy.putchar s

/-! ### Canonical decimals -/

/-- `print_dec` stays inside its array and prints a canonical decimal. -/
structure DecCanonical : Prop where
  inside : (decBuffer value).1.Within fun i => 0 ≤ i ∧ i < 21
  prints : ∀ s, printDec value s = print (decString value) s
  canonical : Canonical 10 (decString value) value.toNat

/-- `print_number` stays inside its array and puts the characters of `print_dec`. -/
structure NumberAgrees : Prop where
  inside : (numberBuffer num).1.Within fun i => 0 ≤ i ∧ i < 32
  prints : ∀ {σ : Type} (put : Byte → σ → σ) (s : σ), Legacy.printNumberTo put num s =
    (decString (num.setWidth 64)).foldl (fun s c => put c s) s

end

/-- **Decimal printing is canonical in both kernels.** -/
theorem decimal_canonical : (∀ value, DecCanonical value) ∧ ∀ num, NumberAgrees num := by
  constructor
  · intro value
    have canonical : Canonical 10 (decString value) value.toNat := by
      rw [decString_eq_numeral]
      exact canonical_numeral (by decide) (by decide) _
    exact ⟨decBuffer_within value, fun s => (print_decString value s).symm, canonical⟩
  · intro num
    constructor
    · exact numberBuffer_within num
    · intro σ put s
      rw [printNumberTo_eq_numeral, decString_eq_numeral, toNat_wide]

end ModernOS.Console
