import Mathlib.Algebra.Ring.Nat
import Mathlib.Data.List.Infix

/-!
The layout of a text in lines of bounded width.

A cursor goes to the next row at a line end, and when it has filled a row. `rows` is the number of
rows that it goes down in a text: one for each line end, and one for each row that a line fills
(`foldl_advance_row`).
-/

namespace Layout

variable {α : Type*} [DecidableEq α]

structure Cursor where
  column : ℕ
  row : ℕ
  deriving DecidableEq, Repr

variable (lineEnd : α) (width : ℕ)

/-- The cursor after a character. -/
def advance (cursor : Cursor) (c : α) : Cursor :=
  if c = lineEnd ∨ width ≤ cursor.column + 1 then ⟨0, cursor.row + 1⟩
  else ⟨cursor.column + 1, cursor.row⟩

/-- The full rows of some lines. -/
def fullRows (lines : List (List α)) : ℕ := (lines.map fun line => line.length / width).sum

/-- The number of rows that the cursor goes down in a text. -/
def rows (text : List α) : ℕ := text.count lineEnd + fullRows width (text.splitOn lineEnd)

variable {lineEnd width}

theorem row_le_advance (cursor : Cursor) (c : α) :
    cursor.row ≤ (advance lineEnd width cursor c).row := by
  unfold advance
  split
  · exact Nat.le_succ _
  · exact Nat.le_refl _

theorem row_le_foldl_advance (cursor : Cursor) (text : List α) :
    cursor.row ≤ (text.foldl (advance lineEnd width) cursor).row := by
  induction text generalizing cursor with
  | nil => exact Nat.le_refl _
  | cons c text ih => exact (row_le_advance cursor c).trans (ih _)

/-- The row after a text that starts within a row, whose first line `line` goes on in that row. -/
theorem foldl_advance_row_eq {cursor : Cursor} (inside : cursor.column < width) {text : List α}
    {line : List α} {lines : List (List α)} (split : text.splitOn lineEnd = line :: lines) :
    (text.foldl (advance lineEnd width) cursor).row =
      cursor.row + text.count lineEnd + (cursor.column + line.length) / width +
        fullRows width lines := by
  induction text generalizing cursor line lines with
  | nil =>
      obtain ⟨rfl, rfl⟩ := List.cons.inj (split.symm.trans (List.splitOn_nil lineEnd))
      simp [fullRows, Nat.div_eq_of_lt inside]
  | cons c text ih =>
      obtain ⟨first, others, rest⟩ := List.exists_cons_of_ne_nil (List.splitOn_ne_nil lineEnd text)
      rw [List.splitOn_cons_eq_if_modifyHead, rest] at split
      have positive := Nat.zero_lt_of_lt inside
      have below : (text.foldl (advance lineEnd width) ⟨0, cursor.row + 1⟩).row =
          cursor.row + 1 + text.count lineEnd + first.length / width + fullRows width others := by
        simpa using @ih ⟨0, cursor.row + 1⟩ positive first others rest
      by_cases ends : c = lineEnd
      · -- The line is over, and the next one starts in the first column.
        rw [if_pos (beq_iff_eq.mpr ends)] at split
        obtain ⟨rfl, rfl⟩ := List.cons.inj split
        rw [List.foldl_cons, advance, if_pos (.inl ends), below, ends, List.count_cons_self]
        simp only [fullRows, List.map_cons, List.sum_cons, List.length_nil,
          Nat.add_zero, Nat.div_eq_of_lt inside]
        omega
      · rw [if_neg (by simpa using ends)] at split
        obtain ⟨rfl, rfl⟩ := List.cons.inj split
        rw [List.foldl_cons, List.count_cons_of_ne ends, List.length_cons, advance]
        by_cases full : width ≤ cursor.column + 1
        · -- The row is full: it is the first of the rows that the line takes.
          rw [if_pos (.inr full), below]
          have row : cursor.column + (first.length + 1) = first.length + width := by omega
          rw [row, Nat.add_div_right _ positive]
          omega
        · have beside := @ih ⟨cursor.column + 1, cursor.row⟩ (not_le.mp full) first others rest
          rw [if_neg (not_or.mpr ⟨ends, full⟩), beside]
          have column : cursor.column + (first.length + 1) = cursor.column + 1 + first.length := by
            omega
          rw [column]

/-- The row after a text that starts in the first cell. -/
theorem foldl_advance_row (positive : 0 < width) (text : List α) :
    (text.foldl (advance lineEnd width) ⟨0, 0⟩).row = rows lineEnd width text := by
  obtain ⟨line, lines, split⟩ := List.exists_cons_of_ne_nil (List.splitOn_ne_nil lineEnd text)
  rw [foldl_advance_row_eq positive split, rows, split]
  simp only [fullRows, List.map_cons, List.sum_cons, Nat.zero_add]
  omega

theorem rows_concat_lineEnd (positive : 0 < width) (text : List α) :
    rows lineEnd width (text ++ [lineEnd]) = rows lineEnd width text + 1 := by
  rw [← foldl_advance_row positive, ← foldl_advance_row positive, List.foldl_append,
    List.foldl_cons, List.foldl_nil, advance, if_pos (.inl rfl)]

theorem rows_concat_le (positive : 0 < width) (text : List α) (c : α) :
    rows lineEnd width (text ++ [c]) ≤ rows lineEnd width text + 1 := by
  rw [← foldl_advance_row positive, ← foldl_advance_row positive, List.foldl_append,
    List.foldl_cons, List.foldl_nil, advance]
  split
  · exact Nat.le_refl _
  · exact Nat.le_succ _

/-- A longer text does not take fewer rows. -/
theorem rows_mono (positive : 0 < width) {text text' : List α} (longer : text <+: text') :
    rows lineEnd width text ≤ rows lineEnd width text' := by
  obtain ⟨rest, rfl⟩ := longer
  rw [← foldl_advance_row positive, ← foldl_advance_row positive, List.foldl_append]
  exact row_le_foldl_advance _ rest

end Layout
