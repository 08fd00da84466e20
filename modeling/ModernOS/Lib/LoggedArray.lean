import Mathlib.Data.Int.Notation
import Mathlib.Data.List.Basic
import Mathlib.Logic.Function.Basic

/-!
Arrays that remember where they were written, and counted loops.

A `LoggedArray` is an array without bounds, given by its contents, together with
the list of the indices stored at. A bounds property of a program is then a
property of that list: `Within P` says that every store hit an index that
satisfies `P`.

`Wrote` says that a string has been stored in an array, upwards (`Wrote.cons`) or
downwards (`Wrote.concat`).

`forRange lo hi body` is the loop `for (i = lo; i < hi; ++i)`, and `forDown n body`
the loop `for (i = n - 1; i >= 0; --i)`. The first is used through its rules only: an
invariant (`forRange_invariant`), an assertion that counts the rounds
(`forRange_induction`), and a loop that follows another (`forRange_map`).
-/

/-- The contents of an array, and the indices stored at, latest first. -/
structure LoggedArray (ι α : Type*) where
  cells : ι → α
  stores : List ι

namespace LoggedArray

variable {ι α : Type*}

/-- The same contents with an empty log. -/
def forget (m : LoggedArray ι α) : LoggedArray ι α := ⟨m.cells, []⟩

@[simp] theorem forget_stores (m : LoggedArray ι α) : m.forget.stores = [] := rfl

@[simp] theorem forget_cells (m : LoggedArray ι α) : m.forget.cells = m.cells := rfl

/-- Every store hit an index that satisfies `P`. -/
def Within (P : ι → Prop) (m : LoggedArray ι α) : Prop := ∀ i ∈ m.stores, P i

theorem within_forget (P : ι → Prop) (m : LoggedArray ι α) : m.forget.Within P :=
  fun _ mem => absurd mem List.not_mem_nil

variable [DecidableEq ι]

/-- Store `a` at index `i`. -/
def store (m : LoggedArray ι α) (i : ι) (a : α) : LoggedArray ι α :=
  ⟨Function.update m.cells i a, i :: m.stores⟩

@[simp] theorem store_stores (m : LoggedArray ι α) (i : ι) (a : α) :
    (m.store i a).stores = i :: m.stores := rfl

theorem store_cells_self (m : LoggedArray ι α) (i : ι) (a : α) : (m.store i a).cells i = a :=
  Function.update_self ..

theorem store_cells_of_ne (m : LoggedArray ι α) {i j : ι} (other : j ≠ i) (a : α) :
    (m.store i a).cells j = m.cells j := Function.update_of_ne other ..

theorem Within.store {P : ι → Prop} {m : LoggedArray ι α} (within : m.Within P) {i : ι}
    (inside : P i) (a : α) : (m.store i a).Within P := by
  intro j mem
  rcases List.mem_cons.mp mem with rfl | old
  · exact inside
  · exact within j old

/-! ### A string in an array -/

section Wrote

variable {m m' : LoggedArray ℤ α} {lo : ℤ} {a : α} {str : List α}

/-- `m'` is `m` with `str` stored from index `lo` on, and nothing has been stored elsewhere. -/
structure Wrote (m m' : LoggedArray ℤ α) (lo : ℤ) (str : List α) : Prop where
  inside : ∀ i (below : i < str.length), m'.cells (lo + i) = str[i]
  outside : ∀ j, j < lo ∨ lo + str.length ≤ j → m'.cells j = m.cells j
  stores : ∀ j ∈ m'.stores, j ∈ m.stores ∨ lo ≤ j ∧ j < lo + str.length

theorem Wrote.nil (m : LoggedArray ℤ α) (lo : ℤ) : Wrote m m lo [] where
  inside _ below := absurd below (Nat.not_lt_zero _)
  outside _ _ := rfl
  stores _ mem := Or.inl mem

/-- The stores after one at `i`, between bounds for both. -/
theorem Wrote.stores_of_store {i first last : ℤ} (wrote : Wrote (m.store i a) m' lo str)
    (above : first ≤ i ∧ first ≤ lo) (below : i < last ∧ lo + str.length ≤ last) :
    ∀ j ∈ m'.stores, j ∈ m.stores ∨ first ≤ j ∧ j < last := by
  intro j mem
  rcases wrote.stores j mem with old | here
  · rcases List.mem_cons.mp old with rfl | older
    · exact Or.inr ⟨above.1, below.1⟩
    · exact Or.inl older
  · exact Or.inr (by omega)

/-- The string is stored upwards. -/
theorem Wrote.cons (wrote : Wrote (m.store lo a) m' (lo + 1) str) : Wrote m m' lo (a :: str) where
  inside i below := by
    cases i with
    | zero =>
        rw [wrote.outside _ (Or.inl (by omega))]
        exact (congrArg _ (Int.add_zero lo)).trans (m.store_cells_self lo a)
    | succ i =>
        have later := wrote.inside i (Nat.lt_of_succ_lt_succ below)
        rw [List.getElem_cons_succ, ← later]
        congr 1
        omega
  outside j out := by
    rw [List.length_cons] at out
    rw [wrote.outside j (by omega)]
    exact m.store_cells_of_ne (by omega) a
  stores := by
    rw [List.length_cons]
    exact wrote.stores_of_store (by omega) (by omega)

/-- The string is stored downwards. -/
theorem Wrote.concat (wrote : Wrote (m.store (lo + str.length) a) m' lo str) :
    Wrote m m' lo (str ++ [a]) where
  inside i below := by
    rw [List.length_append, List.length_singleton] at below
    rw [List.getElem_append]
    split
    · rename_i earlier
      exact wrote.inside i earlier
    · rename_i last
      obtain rfl : i = str.length := by omega
      rw [wrote.outside _ (Or.inr (Int.le_refl _)), List.getElem_singleton]
      exact m.store_cells_self _ a
  outside j out := by
    rw [List.length_append, List.length_singleton] at out
    rw [wrote.outside j (by omega)]
    exact m.store_cells_of_ne (by omega) a
  stores := by
    rw [List.length_append, List.length_singleton]
    exact wrote.stores_of_store (by omega) (by omega)

theorem Wrote.within {P : ℤ → Prop} (wrote : Wrote m m' lo str) (within : m.Within P)
    (inside : ∀ j, lo ≤ j → j < lo + str.length → P j) : m'.Within P := by
  intro j mem
  rcases wrote.stores j mem with old | ⟨above, below⟩
  · exact within j old
  · exact inside j above below

/-- The part of an array that holds a string. -/
theorem map_cells {m : LoggedArray ℤ α}
    (inside : ∀ i (below : i < str.length), m.cells (lo + i) = str[i]) :
    ((List.range str.length).map fun i : ℕ => m.cells (lo + i)) = str := by
  apply List.ext_getElem
  · simp
  · intro i _ below
    simpa using inside i below

end Wrote

end LoggedArray

namespace CountedLoop

variable {σ : Type*}

/-- Run the body for `i = lo, …, hi - 1`. -/
def forRange (lo hi : ℕ) (body : ℕ → σ → σ) (s : σ) : σ :=
  (List.range' lo (hi - lo)).foldl (fun s i => body i s) s

/-- Run the body for `i = n - 1, …, 0`. -/
def forDown : ℕ → (ℕ → σ → σ) → σ → σ
  | 0, _, s => s
  | n + 1, body, s => forDown n body (body n s)

/-- What each round of a counted loop preserves holds after the loop. -/
theorem forRange_invariant {I : σ → Prop} {lo hi : ℕ} {body : ℕ → σ → σ}
    (preserved : ∀ i s, lo ≤ i → i < hi → I s → I (body i s)) {s : σ} (init : I s) :
    I (forRange lo hi body s) := by
  unfold forRange
  have bounds : ∀ i ∈ List.range' lo (hi - lo), lo ≤ i ∧ i < hi := fun i mem => by
    obtain ⟨below, above⟩ := List.mem_range'_1.mp mem
    exact ⟨below, by omega⟩
  generalize List.range' lo (hi - lo) = rounds at bounds
  induction rounds generalizing s with
  | nil => exact init
  | cons i rest ih =>
      obtain ⟨below, above⟩ := bounds i List.mem_cons_self
      exact ih (preserved i s below above init) fun j mem => bounds j (List.mem_cons_of_mem i mem)

/-- The induction rule of a counted loop: `I i` holds before round `i`. -/
theorem forRange_induction {I : ℕ → σ → Prop} {lo hi : ℕ} (order : lo ≤ hi) {body : ℕ → σ → σ}
    (round : ∀ i s, lo ≤ i → i < hi → I i s → I (i + 1) (body i s)) {s : σ} (init : I lo s) :
    I hi (forRange lo hi body s) := by
  unfold forRange
  obtain ⟨n, rfl⟩ := Nat.exists_eq_add_of_le order
  rw [Nat.add_sub_cancel_left]
  clear order
  induction n with
  | zero => exact init
  | succ n ih =>
      have before := ih fun i s below above => round i s below (by omega)
      rw [List.range'_concat, List.foldl_append, Nat.one_mul]
      exact round (lo + n) _ (by omega) (by omega) before

/-- A loop that another one follows through `f`, round by round. -/
theorem forRange_map {τ : Type*} {f : σ → τ} {lo hi : ℕ} {body : ℕ → σ → σ} {body' : ℕ → τ → τ}
    (follows : ∀ i s, f (body i s) = body' i (f s)) (s : σ) :
    f (forRange lo hi body s) = forRange lo hi body' (f s) := by
  unfold forRange
  generalize List.range' lo (hi - lo) = rounds
  induction rounds generalizing s with
  | nil => rfl
  | cons i rest ih => rw [List.foldl_cons, ih, follows, List.foldl_cons]

/-- Two loops whose bodies agree on their rounds. -/
theorem forRange_congr {lo hi : ℕ} {body body' : ℕ → σ → σ}
    (same : ∀ i s, lo ≤ i → i < hi → body i s = body' i s) (s : σ) :
    forRange lo hi body s = forRange lo hi body' s := by
  unfold forRange
  refine List.foldl_ext _ _ s fun s i mem => ?_
  obtain ⟨below, above⟩ := List.mem_range'_1.mp mem
  exact same i s below (by omega)

/-- A loop that counts down and stores at each index. -/
theorem wrote_forDown {α : Type*} (f : ℕ → α) (lo : ℤ) (n : ℕ) (m : LoggedArray ℤ α) :
    LoggedArray.Wrote m (forDown n (fun i m => m.store (i + lo) (f i)) m) lo
      ((List.range n).map f) := by
  induction n generalizing m with
  | zero => exact .nil m lo
  | succ n ih =>
      rw [List.range_succ, List.map_append, forDown]
      refine .concat ?_
      rw [List.length_map, List.length_range, Int.add_comm]
      exact ih _

/-- A loop that counts down goes backwards through what is at the indices. -/
theorem forDown_foldl {α : Type*} (f : ℕ → α) (put : α → σ → σ) (n : ℕ) (s : σ) :
    forDown n (fun i s => put (f i) s) s =
      ((List.range n).map f).reverse.foldl (fun s a => put a s) s := by
  induction n generalizing s with
  | zero => rfl
  | succ n ih =>
      rw [List.range_succ, List.map_append, List.reverse_append, List.map_singleton,
        List.reverse_singleton, List.singleton_append, List.foldl_cons, ← ih]
      rfl

-- A loop is used through its invariants; its rounds are not to be unrolled.
attribute [irreducible] forRange

end CountedLoop
