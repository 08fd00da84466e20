import ModernOS.Console.Model
import ModernOS.Lib.Numeral

/-!
What `print_hex` prints.

The loop puts the digit of weight 16^i at position `i + 2` of the buffer, so that the digits come
out with the least significant one first. They are read back as the value exactly when they are
the same backwards (`readsBack_iff`).
-/

namespace ModernOS.Console

open CountedLoop Numeral

/-- The string that `print_hex` passes to `print`. -/
def hexString (value : BitVec 64) : List Byte := (hexBuffer value).string 0 19

/-- The digit of `value` of weight 16^i. -/
def nibble (value : BitVec 64) (i : ℕ) : BitVec 64 := value >>> (i * 4) &&& 0xF#64

/-- `0x` and sixteen upper-case digits that are read as the value. -/
def ReadsBack (value : BitVec 64) : Prop :=
  ∃ digits, hexString value = ascii '0' :: ascii 'x' :: digits ∧ digits.length = 16 ∧
    Numeral.read 16 digits = some value.toNat

section

variable (value : BitVec 64)

theorem printHex_eq (s : State) : printHex value s = print (hexString value) s := rfl

theorem toNat_nibble (i : ℕ) : (nibble value i).toNat = value.toNat / 16 ^ i % 16 := by
  rw [nibble, BitVec.toNat_and, BitVec.toNat_ushiftRight, Nat.shiftRight_eq_div_pow,
    show (0xF#64).toNat = 2 ^ 4 - 1 from rfl, Nat.and_two_pow_sub_one_eq_mod, Nat.mul_comm i 4,
    Nat.pow_mul]

theorem hexChars_getD {d : ℕ} (inside : d < 16) : hexChars.getD d 0#8 = digitChar d := by
  revert d
  decide

/-- The sixteen digits, the least significant one first. -/
def hexDigits : List ℕ := digitsBelow 16 16 value.toNat

theorem hexDigits_lt {d : ℕ} (mem : d ∈ hexDigits value) : d < 16 := by
  obtain ⟨i, -, rfl⟩ := List.mem_map.mp mem
  exact Nat.mod_lt _ (by decide)

theorem length_hexDigits : (hexDigits value).length = 16 := by
  rw [hexDigits, digitsBelow, List.length_map, List.length_range]

theorem ofDigits_hexDigits : Nat.ofDigits 16 (hexDigits value) = value.toNat := by
  rw [hexDigits, ofDigits_digitsBelow]
  exact Nat.mod_eq_of_lt value.isLt

/-- The loop of `print_hex` stores the digits upwards. -/
theorem hexBuffer_wrote : LoggedArray.Wrote (Buffer.init ("0x".toList.map ascii))
    (forDown 16 (fun i buffer =>
      buffer.store (i + 2) (hexChars.getD (value >>> (i * 4) &&& 0xF#64).toNat 0#8))
      (Buffer.init ("0x".toList.map ascii))) 2 ((hexDigits value).map digitChar) := by
  have digits : (List.range 16).map (fun i => hexChars.getD (nibble value i).toNat 0#8) =
      (hexDigits value).map digitChar := by
    rw [hexDigits, digitsBelow, List.map_map]
    refine List.map_congr_left fun i _ => ?_
    rw [toNat_nibble, hexChars_getD (Nat.mod_lt _ (by decide))]
    rfl
  rw [← digits]
  exact wrote_forDown _ 2 16 _

/-- The digits come with the least significant one first. -/
theorem hexString_eq :
    hexString value = ascii '0' :: ascii 'x' :: (hexDigits value).map digitChar := by
  have wrote := hexBuffer_wrote value
  have length : ((hexDigits value).map digitChar).length = 16 := by
    rw [List.length_map, length_hexDigits]
  apply Buffer.string_eq
  · intro i below
    rw [List.length_cons, List.length_cons, length] at below
    rw [hexBuffer]
    refine (LoggedArray.store_cells_of_ne _ (by omega) _).trans ?_
    rcases i with _ | _ | i
    · exact wrote.outside _ (Or.inl (by decide))
    · exact wrote.outside _ (Or.inl (by decide))
    · have here := wrote.inside i (by omega)
      rw [List.getElem_cons_succ, List.getElem_cons_succ, ← here]
      congr 1
      omega
  · intro c mem
    rcases List.mem_cons.mp mem with rfl | later
    · decide
    rcases List.mem_cons.mp later with rfl | digit
    · decide
    exact ne_zero_of_mem_map (fun d mem => hexDigits_lt value mem) digit
  · rw [List.length_cons, List.length_cons, length]
    exact LoggedArray.store_cells_self _ 18 _
  · rw [List.length_cons, List.length_cons, length]
    decide

theorem hexDigits_getElem? {i : ℕ} (below : i < 16) :
    (hexDigits value)[i]? = some (nibble value i).toNat := by
  rw [hexDigits, digitsBelow, List.getElem?_map, List.getElem?_range below, Option.map_some,
    toNat_nibble]

theorem hexDigits_reverse_getElem? {i : ℕ} (below : i < 16) :
    (hexDigits value).reverse[i]? = some (nibble value (15 - i)).toNat := by
  rw [List.getElem?_reverse (by rwa [length_hexDigits]), length_hexDigits]
  exact hexDigits_getElem? value (by omega)

theorem readsBack_iff_reverse :
    ReadsBack value ↔ (hexDigits value).reverse = hexDigits value := by
  have read : Numeral.read 16 ((hexDigits value).map digitChar) =
      some (Nat.ofDigits 16 (hexDigits value).reverse) :=
    read_map (Nat.le_refl 16) fun d mem => hexDigits_lt value mem
  constructor
  · rintro ⟨digits, string, -, value_eq⟩
    rw [hexString_eq, List.cons_inj_right, List.cons_inj_right] at string
    rw [← string, read, Option.some_inj] at value_eq
    refine Nat.ofDigits_inj_of_len_eq (by decide) List.length_reverse
      (fun d mem => hexDigits_lt value (List.mem_reverse.mp mem))
      (fun d mem => hexDigits_lt value mem) ?_
    rw [value_eq, ofDigits_hexDigits]
  · intro same
    refine ⟨_, hexString_eq value, ?_, ?_⟩
    · rw [List.length_map, length_hexDigits]
    · rw [read, same, ofDigits_hexDigits]

/-- **What `print_hex` prints can be read back** exactly when the digits of the value are the same
backwards. -/
theorem readsBack_iff : ReadsBack value ↔ ∀ i < 16, nibble value i = nibble value (15 - i) := by
  rw [readsBack_iff_reverse]
  constructor
  · intro same i below
    have digit := hexDigits_reverse_getElem? value below
    rw [same, hexDigits_getElem? value below, Option.some_inj] at digit
    exact BitVec.eq_of_toNat_eq digit
  · intro same
    refine List.ext_getElem? fun i => ?_
    rcases Nat.lt_or_ge i 16 with below | above
    · rw [hexDigits_reverse_getElem? value below, hexDigits_getElem? value below, same i below]
    · rw [List.getElem?_eq_none, List.getElem?_eq_none]
      · rwa [length_hexDigits]
      · rwa [List.length_reverse, length_hexDigits]

/-- `1` is printed as `0x1000000000000000`. -/
theorem readsBack_fails : ¬ ∀ value, ReadsBack value := by
  intro all
  have same := (readsBack_iff_reverse 1#64).mp (all 1#64)
  exact absurd same (by decide)

end

end ModernOS.Console
