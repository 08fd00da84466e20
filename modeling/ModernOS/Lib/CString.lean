import Mathlib.Data.List.OfFn
import Mathlib.Data.Nat.Notation

/-!
C strings, and the arrays that hold them.

A `CString` is a string without its terminator, so none of its characters is NUL. An array
holds one when it begins with its characters and has NUL in all other places (`Holds`).
`strncpy` with a bound below the length of the array makes the array hold the string cut off at
the bound, as long as the array ends with NUL (`holds_strncpy`), and `strcmp` does not leave an
array that holds a string (`strcmp_holds`).
-/

/-- A string without its terminator. -/
@[ext] structure CString where
  chars : List (BitVec 8)
  noNul : ∀ c ∈ chars, c ≠ 0#8
  deriving DecidableEq

namespace CString

/-- The array that a pointer to the string points to. -/
def array (s : CString) : List (BitVec 8) := s.chars ++ [0#8]

/-- The first `n` characters. -/
def truncate (n : ℕ) (s : CString) : CString :=
  ⟨s.chars.take n, fun c mem => s.noNul c (List.mem_of_mem_take mem)⟩

variable {m n : ℕ}

/-- `strncpy`: `n` characters are written, NUL from the end of the string on. -/
def strncpy (dst : Fin m → BitVec 8) (src : CString) (n : ℕ) : Fin m → BitVec 8 := fun i =>
  if i < n then src.chars.getD i 0#8 else dst i

/-- `strcmp`; undefined when it reads behind the end of an array. -/
def strcmp : List (BitVec 8) → List (BitVec 8) → Option ℤ
  | a :: as, b :: bs =>
      if a ≠ b then some (a.toNat - b.toNat)
      else if a = 0#8 then some 0
      else strcmp as bs
  | _, _ => none

/-- The array holds the string, with its terminator and nothing else. -/
structure Holds (a : Fin m → BitVec 8) (s : CString) : Prop where
  inside : s.chars.length < m
  chars : ∀ i : Fin m, a i = s.chars.getD i 0#8

variable {a : Fin m → BitVec 8} {s t : CString}

theorem Holds.ofFn (holds : Holds a s) :
    List.ofFn a = s.chars ++ List.replicate (m - s.chars.length) 0#8 := by
  have inside := holds.inside
  apply List.ext_getElem
  · simp
    omega
  · intro i here _
    rw [List.getElem_ofFn, holds.chars, List.getElem_append]
    split
    · rename_i short
      simp [List.getD_eq_getElem?_getD, short]
    · rename_i long
      simp [List.getD_eq_getElem?_getD, Nat.le_of_not_lt long]

/-- Two strings that end with NUL are compared within their arrays. -/
theorem strcmp_append {as bs : List (BitVec 8)} (ha : ∀ c ∈ as, c ≠ 0#8)
    (hb : ∀ c ∈ bs, c ≠ 0#8) (rest rest' : List (BitVec 8)) :
    ∃ z, strcmp (as ++ 0#8 :: rest) (bs ++ 0#8 :: rest') = some z ∧ (z = 0 ↔ as = bs) := by
  induction as generalizing bs with
  | nil =>
      cases bs with
      | nil => exact ⟨0, by simp [strcmp], by simp⟩
      | cons b bs =>
          have nonzero := hb b List.mem_cons_self
          refine ⟨_, if_pos nonzero.symm, iff_of_false ?_ (by simp)⟩
          bv_omega
  | cons a as ih =>
      have nonzero := ha a List.mem_cons_self
      cases bs with
      | nil =>
          refine ⟨_, if_pos nonzero, iff_of_false ?_ (by simp)⟩
          bv_omega
      | cons b bs =>
          by_cases same : a = b
          · subst same
            obtain ⟨z, compared, zero⟩ := ih (fun c mem => ha c (List.mem_cons_of_mem _ mem))
              fun c mem => hb c (List.mem_cons_of_mem _ mem)
            refine ⟨z, ?_, zero.trans (by simp)⟩
            simpa [strcmp, nonzero] using compared
          · refine ⟨_, if_pos same, iff_of_false ?_ (by simp [same])⟩
            bv_omega

/-- `strcmp` of an array that holds a string stays inside it. -/
theorem strcmp_holds (holds : Holds a s) (t : CString) :
    ∃ z, strcmp (List.ofFn a) t.array = some z ∧ (z = 0 ↔ s = t) := by
  have inside := holds.inside
  obtain ⟨k, length⟩ := Nat.exists_eq_add_of_lt inside
  obtain ⟨z, compared, zero⟩ := strcmp_append s.noNul t.noNul (List.replicate k 0#8) []
  refine ⟨z, ?_, zero.trans CString.ext_iff.symm⟩
  rwa [holds.ofFn, show m - s.chars.length = k + 1 by omega, List.replicate_succ, array]

/-- An array holds one string only. -/
theorem Holds.unique (holds : Holds a s) (holds' : Holds a t) : s = t := by
  obtain ⟨z, compared, zero⟩ := strcmp_holds holds t
  obtain ⟨z', compared', zero'⟩ := strcmp_holds holds' t
  rw [compared] at compared'
  cases compared'
  exact zero.mp (zero'.mpr rfl)

/-- Copying with a bound makes the array hold the string cut off there. -/
theorem holds_strncpy {dst : Fin m → BitVec 8} (inside : n < m)
    (ends : ∀ i : Fin m, n ≤ i → dst i = 0#8) (src : CString) :
    Holds (strncpy dst src n) (src.truncate n) where
  inside := (List.length_take_le n src.chars).trans_lt inside
  chars i := by
    rw [strncpy, truncate, List.getD_eq_getElem?_getD, List.getD_eq_getElem?_getD,
      List.getElem?_take]
    split
    · rfl
    · rename_i past
      exact ends i (Nat.le_of_not_lt past)

/-- The characters from the bound on stay. -/
theorem strncpy_of_le (dst : Fin m → BitVec 8) (src : CString) {i : Fin m} (past : n ≤ i) :
    strncpy dst src n i = dst i := if_neg (Nat.not_lt.mpr past)

end CString
