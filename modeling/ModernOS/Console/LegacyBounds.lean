import ModernOS.Console.Legacy
import ModernOS.Lib.Layout
import Mathlib.Algebra.Ring.Int.Defs

/-!
Where the console of `kernel/kernel.cpp` stores.

Its cursor follows the one of `Layout` on rows of 80 cells (`print_cursor`), and nothing stops it at
the last row. So what a text does to the video memory depends on the rows that it takes, and on its
characters, which are extended with their sign before the attribute is merged in.
-/

namespace ModernOS.Console.Legacy

open Layout Transition

/-- An index of `video_memory` that is a cell of the screen. -/
def OnScreen (index : ℤ) : Prop := 0 ≤ index ∧ index < 80 * 25

/-- The attribute byte of a cell. -/
def attributeByte (cell : BitVec 16) : Byte := (cell >>> 8).setWidth 8

/-- A value of type `int`. -/
def IsInt (n : ℤ) : Prop := -2 ^ 31 ≤ n ∧ n < 2 ^ 31

/-- The results of the arithmetic on the cursor in `putchar`. -/
def arithmetic (c : Byte) (s : State) : List ℤ :=
  if c = ascii '\n' then [s.cursorY + 1]
  else
    [s.cursorY * 80, s.cursorY * 80 + s.cursorX, s.cursorX + 1] ++
      if 80 ≤ s.cursorX + 1 then [s.cursorY + 1] else []

/-- The character is stored on the screen, white on black, without an overflow. -/
structure PutSafely (c : Byte) (s : State) : Prop where
  stores : ∀ i ∈ (putchar c { s with video := s.video.forget }).video.stores, OnScreen i
  attribute_byte : ∀ i ∈ (putchar c { s with video := s.video.forget }).video.stores,
    attributeByte ((putchar c s).video.cells i) = 0x0F#8
  noOverflow : ∀ n ∈ arithmetic c s, IsInt n

/-- The console before anything is printed. -/
def initial (video : LoggedArray ℤ (BitVec 16)) : State := ⟨video, 0, 0⟩

/-- Every character of the string is stored safely. -/
def PrintsSafely (video : LoggedArray ℤ (BitVec 16)) (str : List Byte) : Prop :=
  ∀ pre c, pre ++ [c] <+: str → PutSafely c (print pre (initial video))

/-! ### The cursor -/

/-- The cursor of the console is in this cell. -/
structure At (cursor : Cursor) (s : State) : Prop where
  column : s.cursorX = cursor.column
  row : s.cursorY = cursor.row
  inside : cursor.column < 80

section Cursor

variable {c : Byte} {s : State} {cursor : Cursor}

theorem putchar_at (here : At cursor s) (c : Byte) :
    At (Layout.advance (ascii '\n') 80 cursor c) (putchar c s) := by
  have inside := here.inside
  unfold putchar Layout.advance
  by_cases ends : c = ascii '\n'
  · rw [if_pos ends, if_pos (.inl ends)]
    exact ⟨rfl, by simp [here.row], (by decide : 0 < 80)⟩
  by_cases full : 80 ≤ cursor.column + 1
  · rw [if_neg ends, if_pos (.inr full)]
    have full : 80 ≤ s.cursorX + 1 := by rw [here.column]; omega
    simp only [if_pos full]
    exact ⟨rfl, by simp [here.row], (by decide : 0 < 80)⟩
  · rw [if_neg ends, if_neg (not_or.mpr ⟨ends, full⟩)]
    have notFull : ¬ 80 ≤ s.cursorX + 1 := by rw [here.column]; omega
    simp only [if_neg notFull]
    exact ⟨by simp [here.column], here.row, not_le.mp full⟩

/-- After a text the cursor is in the cell that the layout of the text gives. -/
theorem print_at (text : List Byte) (here : At cursor s) :
    At (text.foldl (Layout.advance (ascii '\n') 80) cursor) (print text s) := by
  induction text generalizing cursor s with
  | nil => exact here
  | cons c text ih => exact ih (putchar_at here c)

end Cursor

/-! ### A character -/

/-- The sign of a character spoils the attribute. -/
theorem attributeByte_iff (c : Byte) :
    attributeByte (c.signExtend 16 ||| whiteOnBlack) = 0x0F#8 ↔ c < 0x80#8 := by
  revert c
  decide

section Character

variable {c : Byte} {s : State} {cursor : Cursor}

theorem putchar_stores (printable : c ≠ ascii '\n') :
    (putchar c { s with video := s.video.forget }).video.stores =
      [s.cursorY * 80 + s.cursorX] ∧
    (putchar c s).video.cells (s.cursorY * 80 + s.cursorX) =
      c.signExtend 16 ||| whiteOnBlack := by
  unfold putchar
  rw [if_neg printable, if_neg printable]
  dsimp only
  split <;> exact ⟨rfl, LoggedArray.store_cells_self ..⟩

/-- A line end is safe exactly when there is a next row. -/
theorem putSafely_lineEnd_iff (here : At cursor s) :
    PutSafely (ascii '\n') s ↔ cursor.row + 1 < 2 ^ 31 := by
  have noStore : (putchar (ascii '\n') { s with video := s.video.forget }).video.stores = [] := by
    rw [putchar, if_pos rfl, LoggedArray.forget_stores]
  have result : arithmetic (ascii '\n') s = [(cursor.row : ℤ) + 1] := by
    rw [arithmetic, if_pos rfl, here.row]
  constructor
  · intro safe
    have int := safe.noOverflow _ (by rw [result]; exact List.mem_cons_self)
    exact_mod_cast int.2
  · intro next
    refine ⟨by simp [noStore], by simp [noStore], ?_⟩
    rw [result, List.forall_mem_singleton]
    exact ⟨by omega, by exact_mod_cast next⟩

/-- A character is stored safely exactly when it is ASCII and its row is on the screen. -/
theorem putSafely_printable_iff (here : At cursor s) (printable : c ≠ ascii '\n') :
    PutSafely c s ↔ c < 0x80#8 ∧ cursor.row < 25 := by
  have inside := here.inside
  obtain ⟨stores, cell⟩ := putchar_stores (s := s) printable
  have index : s.cursorY * 80 + s.cursorX = cursor.row * 80 + cursor.column := by
    rw [here.row, here.column]
  constructor
  · intro safe
    have onScreen := safe.stores _ (by rw [stores]; exact List.mem_cons_self)
    have white := safe.attribute_byte _ (by rw [stores]; exact List.mem_cons_self)
    rw [cell, attributeByte_iff] at white
    rw [index] at onScreen
    obtain ⟨-, below⟩ := onScreen
    exact ⟨white, by omega⟩
  · rintro ⟨white, below⟩
    refine ⟨?_, ?_, ?_⟩
    · rw [stores, List.forall_mem_singleton, index]
      exact ⟨by omega, by omega⟩
    · rw [stores, List.forall_mem_singleton, cell, attributeByte_iff]
      exact white
    · have bounds : ∀ n ∈ arithmetic c s, 0 ≤ n ∧ n ≤ 2000 := by
        rw [arithmetic, if_neg printable, here.row, here.column]
        split <;> simp <;> omega
      intro n mem
      obtain ⟨low, high⟩ := bounds n mem
      exact ⟨by omega, by omega⟩

end Character

/-! ### A text -/

/-- The cursor after a text, in the row that the text ends in. -/
theorem exists_at (video : LoggedArray ℤ (BitVec 16)) (text : List Byte) :
    ∃ cursor, At cursor (print text (initial video)) ∧
      cursor.row = rows (ascii '\n') 80 text :=
  ⟨_, print_at text ⟨rfl, rfl, (by decide : 0 < 80)⟩, foldl_advance_row (by decide) text⟩

/-- A text is printed safely exactly when its characters are ASCII and within the first 25 rows,
and its line ends do not exhaust the rows that an `int` can count. -/
theorem printsSafely_iff (video : LoggedArray ℤ (BitVec 16)) (str : List Byte) :
    PrintsSafely video str ↔
      (∀ pre c, pre ++ [c] <+: str → c ≠ ascii '\n' →
        c < 0x80#8 ∧ rows (ascii '\n') 80 pre < 25) ∧ rows (ascii '\n') 80 str < 2 ^ 31 := by
  have width : 0 < 80 := by decide
  constructor
  · intro safe
    have onScreen : ∀ pre c, pre ++ [c] <+: str → c ≠ ascii '\n' →
        c < 0x80#8 ∧ rows (ascii '\n') 80 pre < 25 := by
      intro pre c sub printable
      obtain ⟨cursor, here, row⟩ := exists_at video pre
      exact row ▸ (putSafely_printable_iff here printable).mp (safe pre c sub)
    refine ⟨onScreen, ?_⟩
    rcases List.eq_nil_or_concat str with rfl | ⟨front, c, rfl⟩
    · decide
    rw [List.concat_eq_append] at *
    by_cases ends : c = ascii '\n'
    · obtain ⟨cursor, here, row⟩ := exists_at video front
      have next := safe front c (List.prefix_refl _)
      rw [ends, putSafely_lineEnd_iff here, row] at next
      rw [ends, rows_concat_lineEnd width]
      exact next
    · have last := (onScreen front c (List.prefix_refl _) ends).2
      have next : rows (ascii '\n') 80 (front ++ [c]) ≤ _ := rows_concat_le width front c
      omega
  · rintro ⟨onScreen, fits⟩ pre c sub
    obtain ⟨cursor, here, row⟩ := exists_at video pre
    by_cases ends : c = ascii '\n'
    · rw [ends] at sub ⊢
      rw [putSafely_lineEnd_iff here, row, ← rows_concat_lineEnd width]
      exact (rows_mono width sub).trans_lt fits
    · rw [putSafely_printable_iff here ends, row]
      exact onScreen pre c sub ends

/-- The byte `0x80` is not stored white on black. -/
theorem not_printsSafely :
    ¬ ∀ (video : LoggedArray ℤ (BitVec 16)) (str : List Byte), PrintsSafely video str := by
  intro always
  have safe := always ⟨fun _ => 0#16, []⟩ [0x80#8] [] 0x80#8 (List.prefix_refl _)
  have white := safe.attribute_byte 0 (by decide)
  exact absurd white (by decide)

end ModernOS.Console.Legacy
