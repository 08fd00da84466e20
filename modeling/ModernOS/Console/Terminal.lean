import ModernOS.Lib.Terminal
import ModernOS.Console.Bounds
import Mathlib.Algebra.Group.Nat.Defs

/-!
The console against a terminal.

`Shows` compares the console with a terminal of 25 rows and 80 columns that wraps and
scrolls before it places a character. `putchar` wraps before it stores and scrolls after
it, so the two agree after every character but one that overruns the screen: it is stored
below the last row, and the row that scrolling then makes is blank (`shows_putchar_iff`).
The column is a `size_t`, which a tab can bring back to zero.
-/

namespace ModernOS.Console

open CountedLoop Transition

/-! ### The cells of the screen -/

/-- The cell of the screen in row `r` and column `c`. -/
def cellAt (s : State) (r c : ℕ) : BitVec 16 := s.vga.cells (BitVec.ofNat 64 (r * 80 + c))

theorem index_inj {r r' c c' : ℕ} (row : r < 25) (row' : r' < 25) (column : c < 80)
    (column' : c' < 80) :
    BitVec.ofNat 64 (r * 80 + c) = BitVec.ofNat 64 (r' * 80 + c') ↔ r = r' ∧ c = c' := by
  constructor
  · intro same
    have places := congrArg BitVec.toNat same
    rw [BitVec.toNat_ofNat, BitVec.toNat_ofNat, Nat.mod_eq_of_lt (by omega),
      Nat.mod_eq_of_lt (by omega)] at places
    omega
  · rintro ⟨rfl, rfl⟩
    rfl

theorem cellAt_store (s : State) {r r' c c' : ℕ} (row : r < 25) (row' : r' < 25) (column : c < 80)
    (column' : c' < 80) (value : BitVec 16) :
    cellAt (s.store (BitVec.ofNat 64 (r' * 80 + c')) value) r c =
      if r = r' ∧ c = c' then value else cellAt s r c :=
  (Function.update_apply ..).trans (if_congr (index_inj row row' column column') rfl rfl)

/-- A store beyond the last row does not show. -/
theorem cellAt_store_below (s : State) {r c : ℕ} (row : r < 25) (column : c < 80)
    (value : BitVec 16) : cellAt (s.store 2000#64 value) r c = cellAt s r c := by
  refine Function.update_of_ne (fun same => ?_) ..
  have places := congrArg BitVec.toNat same
  rw [BitVec.toNat_ofNat, Nat.mod_eq_of_lt (by omega)] at places
  exact absurd places (by simp; omega)

/-! ### Scrolling -/

/-- What the first loop of `scroll_up` has done before round `x` of line `y`: the lines above
have moved, and so has the part of this one left of `x`. -/
def Moved (s : State) (y x : ℕ) (s' : State) : Prop :=
  ∀ r < 25, ∀ c < 80, cellAt s' r c =
    if r + 1 < y ∨ r + 1 = y ∧ c < x then cellAt s (r + 1) c else cellAt s r c

theorem Moved.round {s s' : State} {y x : ℕ} (low : 1 ≤ y) (high : y < 25) (narrow : x < 80)
    (moved : Moved s y x s') :
    Moved s y (x + 1) (s'.store (BitVec.ofNat 64 ((y - 1) * 80 + x)) (cellAt s' y x)) := by
  intro r row c column
  have source : cellAt s' y x = cellAt s y x := by
    rw [moved y high x narrow, if_neg (by omega)]
  rw [cellAt_store s' row (by omega) column narrow, source, moved r row c column]
  by_cases here : r = y - 1 ∧ c = x
  · obtain ⟨rfl, rfl⟩ := here
    rw [if_pos ⟨rfl, rfl⟩, if_pos (by omega), Nat.sub_add_cancel low]
  · rw [if_neg here]
    exact if_congr (by omega) rfl rfl

theorem moved_moveLines (s : State) : Moved s 25 0 (moveLines s) := by
  refine forRange_induction (I := fun y => Moved s y 0) (show 1 ≤ 25 by decide)
    (fun y s' low high start => ?_) ?_
  · have line : Moved s y 80 _ := forRange_induction (I := Moved s y) (Nat.zero_le 80)
      (fun x s'' _ narrow moved => moved.round low high narrow) start
    intro r row c column
    exact (line r row c column).trans (if_congr (by omega) rfl rfl)
  · intro r row c column
    rw [if_neg (by omega)]

/-- The loops of the console leave its cursor and its colour. -/
structure SameCursor (s s' : State) : Prop where
  cursorX : s'.cursorX = s.cursorX
  cursorY : s'.cursorY = s.cursorY
  color : s'.color = s.color

theorem SameCursor.store {s s' : State} (same : SameCursor s s') (index : Size)
    (value : BitVec 16) : SameCursor s (s'.store index value) :=
  ⟨same.cursorX, same.cursorY, same.color⟩

theorem sameCursor_moveLines (s : State) : SameCursor s (moveLines s) :=
  forRange_invariant (I := SameCursor s)
    (fun _ _ _ _ same => forRange_invariant (I := SameCursor s)
      (fun _ _ _ _ same => same.store _ _) same) ⟨rfl, rfl, rfl⟩

theorem sameCursor_clearLastLine (s : State) : SameCursor s (clearLastLine s) :=
  forRange_invariant (I := SameCursor s) (fun _ _ _ _ same => same.store _ _) ⟨rfl, rfl, rfl⟩

theorem cellAt_clearLastLine (s : State) {r c : ℕ} (row : r < 25) (column : c < 80) :
    cellAt (clearLastLine s) r c =
      if r = 24 then cell s.color (ascii ' ') else cellAt s r c := by
  let I (x : ℕ) (s' : State) : Prop := ∀ r < 25, ∀ c < 80, cellAt s' r c =
    if r = 24 ∧ c < x then cell s.color (ascii ' ') else cellAt s r c
  have cleared : I 80 (clearLastLine s) := by
    refine forRange_induction (I := I) (Nat.zero_le 80) (fun x s' _ narrow inv => ?_) ?_
    · intro r row c column
      refine (cellAt_store s' row (show 24 < 25 by decide) column narrow _).trans ?_
      by_cases here : r = 24 ∧ c = x
      · rw [if_pos here, if_pos (by omega)]
      · rw [if_neg here, inv r row c column]
        exact if_congr (by omega) rfl rfl
    · intro r row c column
      rw [if_neg (by omega)]
  rw [cleared r row c column]
  exact if_congr (by omega) rfl rfl

theorem scrollUp_cursorX (s : State) : (scrollUp s).cursorX = s.cursorX :=
  (sameCursor_clearLastLine _).cursorX.trans (sameCursor_moveLines s).cursorX

theorem scrollUp_color (s : State) : (scrollUp s).color = s.color :=
  (sameCursor_clearLastLine _).color.trans (sameCursor_moveLines s).color

theorem scrollUp_cursorY (s : State) : (scrollUp s).cursorY.toNat = 24 := by
  show (BitVec.ofNat 64 24).toNat = 24
  decide

/-- `scroll_up`. -/
theorem cellAt_scrollUp (s : State) {r c : ℕ} (row : r < 25) (column : c < 80) :
    cellAt (scrollUp s) r c =
      if r < 24 then cellAt s (r + 1) c else cell s.color (ascii ' ') := by
  show cellAt (clearLastLine (moveLines s)) r c = _
  rw [cellAt_clearLastLine _ row column, (sameCursor_moveLines s).color,
    moved_moveLines s r row c column]
  by_cases last : r = 24
  · rw [if_pos last, if_neg (by omega)]
  · rw [if_neg last, if_pos (by omega), if_pos (by omega)]

/-- `clear_screen`. -/
theorem cellAt_clearScreen (s : State) {r c : ℕ} (row : r < 25) (column : c < 80) :
    cellAt (clearScreen s) r c = cell s.color (ascii ' ') := by
  let I (i : ℕ) (s' : State) : Prop := ∀ r < 25, ∀ c < 80, r * 80 + c < i →
    cellAt s' r c = cell s.color (ascii ' ')
  have cleared : I 2000 (clearScreen s) := by
    refine forRange_induction (I := I) (Nat.zero_le 2000) (fun i s' _ inside inv => ?_)
      (fun _ _ _ _ none => absurd none (Nat.not_lt_zero _))
    intro r row c column earlier
    have place : BitVec.ofNat 64 i = BitVec.ofNat 64 (i / 80 * 80 + i % 80) :=
      congrArg _ (by omega)
    rw [place, cellAt_store s' row (by omega) column (by omega)]
    by_cases here : r = i / 80 ∧ c = i % 80
    · rw [if_pos here]
    · rw [if_neg here, inv r row c column (by omega)]
  exact cleared r row c column (by omega)

/-! ### The terminal -/

/-- What a character does on the terminal. -/
def action (color : Byte) (c : Byte) : Terminal.Action (BitVec 16) :=
  if c = ascii '\n' then .newline
  else if c = ascii '\r' then .carriageReturn
  else if c = ascii '\t' then .tab 8
  else if 32 ≤ c.toNat ∧ c.toNat ≤ 127 then .put (cell color c)
  else .ignore

/-- A terminal of 25 rows and 80 columns. -/
abbrev Screen := Terminal 24 80 (BitVec 16)

/-- The terminal after a character. -/
def typed (color : Byte) (t : Screen) (c : Byte) : Screen :=
  t.act (cell color (ascii ' ')) (action color c)

/-- The console shows what the terminal does, and its cursor is in the same place. -/
structure Shows (t : Screen) (s : State) : Prop where
  cells : ∀ (r : Fin 25) (c : Fin 80), cellAt s r c = t.cells r c
  row : s.cursorY.toNat = t.row
  column : s.cursorX.toNat = t.column

theorem shows_clearScreen (s : State) :
    Shows (Terminal.clear (cell s.color (ascii ' '))) (clearScreen s) where
  cells r c := cellAt_clearScreen s r.isLt c.isLt
  row := rfl
  column := rfl

/-! ### One character -/

section Step

variable {t : Screen} {s : State}

theorem putchar_of_row {c : Byte} (row : Row (advance c s)) : putchar c s = advance c s :=
  if_neg (not_le.mpr row)

theorem putchar_of_full {c : Byte} (full : 25 ≤ (advance c s).cursorY.toNat) :
    putchar c s = scrollUp (advance c s) := if_pos full

theorem Shows.inside (shows : Shows t s) : Row s := shows.row.trans_lt t.row.isLt

/-- The console goes to the start of the next row, and looks whether to scroll. -/
theorem Shows.newline (shows : Shows t s) {s' : State}
    (below : s' = { s with cursorX := 0#64, cursorY := s.cursorY + 1#64 }) :
    Shows (t.newline (cell s.color (ascii ' ')))
      (if VGA_HEIGHT ≤ s'.cursorY.toNat then scrollUp s' else s') := by
  have row := shows.row
  have inside := t.row.isLt
  have next : s'.cursorY.toNat = t.row + 1 := by
    rw [below]
    show (s.cursorY + 1#64).toNat = _
    bv_omega
  by_cases above : (t.row : ℕ) < 24
  · rw [if_neg (show ¬ 25 ≤ _ by omega), t.newline_of_lt _ above]
    refine ⟨fun r c => ?_, next, ?_⟩
    · rw [below]
      exact shows.cells r c
    · rw [below]
      rfl
  · rw [if_pos (show 25 ≤ _ by omega), t.newline_of_last _ (by omega)]
    refine ⟨fun r c => ?_, (scrollUp_cursorY s').trans (show 24 = (t.row : ℕ) by omega), ?_⟩
    · rw [cellAt_scrollUp s' r.isLt c.isLt, t.scroll_cells, below]
      split
      · exact shows.cells ⟨r + 1, _⟩ c
      · rfl
    · rw [scrollUp_cursorX, below]
      rfl

theorem Shows.wrap (shows : Shows t s) (room : ¬ (80 ≤ t.column ∧ (t.row : ℕ) = 24)) :
    Shows (t.wrap (cell s.color (ascii ' '))) (wrap s) := by
  have column := shows.column
  have row := shows.row
  by_cases full : 80 ≤ t.column
  · have above : (t.row : ℕ) < 24 := by omega
    have wrapped : Console.wrap s = { s with cursorX := 0#64, cursorY := s.cursorY + 1#64 } :=
      if_pos (show 80 ≤ _ by omega)
    have moved := shows.newline wrapped
    rw [t.wrap_of_full _ full]
    rwa [if_neg] at moved
    rw [wrapped]
    show ¬ 25 ≤ (s.cursorY + 1#64).toNat
    bv_omega
  · have stays : Console.wrap s = s := if_neg (show ¬ 80 ≤ _ by omega)
    rwa [t.wrap_of_room _ (by omega), stays]

/-- A cell is stored at the cursor. -/
def storeAtCursor (value : BitVec 16) (s : State) : State :=
  { s.store (s.cursorY * BitVec.ofNat 64 VGA_WIDTH + s.cursorX) value with
    cursorX := s.cursorX + 1#64 }

theorem place_eq (c : Byte) (s : State) :
    Console.place c s = storeAtCursor (cell s.color c) (Console.wrap s) := by
  have color : (Console.wrap s).color = s.color := by
    unfold Console.wrap
    split <;> rfl
  rw [← color]
  rfl

theorem Shows.place (shows : Shows t s) (room : t.column < 80) (value : BitVec 16) :
    Shows (t.place value) (storeAtCursor value s) := by
  have column := shows.column
  have row := shows.row
  have index : s.cursorY * BitVec.ofNat 64 VGA_WIDTH + s.cursorX =
      BitVec.ofNat 64 (t.row * 80 + t.column) := by
    apply BitVec.eq_of_toNat_eq
    rw [toNat_index s shows.inside (show _ < 80 by omega), row, column, BitVec.toNat_ofNat]
    have inside := t.row.isLt
    exact (Nat.mod_eq_of_lt (show (t.row : ℕ) * 80 + t.column < 2 ^ 64 by omega)).symm
  refine ⟨fun r c => ?_, row, ?_⟩
  · rw [storeAtCursor, index]
    refine (cellAt_store s r.isLt t.row.isLt c.isLt room value).trans ?_
    rw [t.place_cells, shows.cells r c]
    exact if_congr (and_congr_left' Fin.ext_iff.symm) rfl rfl
  · show (s.cursorX + 1#64).toNat = t.column + 1
    bv_omega

/-- A printable character that does not overrun the screen. -/
theorem Shows.put (shows : Shows t s) {c : Byte} (printable : Printable c)
    (room : ¬ (80 ≤ t.column ∧ (t.row : ℕ) = 24)) :
    Shows (t.act (cell s.color (ascii ' ')) (.put (cell s.color c))) (putchar c s) := by
  have wrapped := shows.wrap room
  have narrow : (t.wrap (cell s.color (ascii ' '))).column < 80 := by
    by_cases full : 80 ≤ t.column
    · rw [t.wrap_of_full _ full, t.newline_of_lt _ (by omega)]
      show 0 < 80
      decide
    · rw [t.wrap_of_room _ (by omega)]
      omega
  have placed := wrapped.place narrow (cell s.color c)
  rw [← place_eq, ← advance_of_printable printable] at placed
  rwa [putchar_of_row placed.inside]

/-- The cell of a character shows which character it is. -/
theorem cell_inj {color c c' : Byte} (same : cell color c = cell color c') : c = c' := by
  have low (c : Byte) : (cell color c).setWidth 8 = c := by
    apply BitVec.eq_of_getLsbD_eq
    intro i inside
    simp [cell, BitVec.getElem_signExtend, inside, show i < 16 by omega]
  rw [← low c, same, low c']

theorem putchar_overrun {c : Byte} (overruns : Overruns c s) : putchar c s =
    scrollUp (storeAtCursor (cell s.color c) { s with cursorX := 0#64, cursorY := 25#64 }) := by
  have last : s.cursorY = 24#64 := BitVec.eq_of_toNat_eq overruns.last
  have advanced : advance c s =
      storeAtCursor (cell s.color c) { s with cursorX := 0#64, cursorY := 25#64 } := by
    rw [advance_of_printable overruns.printable, place_eq, Console.wrap, if_pos overruns.full, last]
    rfl
  rw [putchar_of_full (by rw [advanced]; exact le_refl 25), advanced]

/-- A character that overruns the screen is lost, and leaves the last row blank. -/
theorem cellAt_overrun {c : Byte} (overruns : Overruns c s) {r x : ℕ} (row : r < 25)
    (column : x < 80) : cellAt (putchar c s) r x =
      if r < 24 then cellAt s (r + 1) x else cell s.color (ascii ' ') := by
  have index : 25#64 * BitVec.ofNat 64 VGA_WIDTH + 0#64 = 2000#64 := by decide
  rw [putchar_overrun overruns, cellAt_scrollUp _ row column]
  refine if_ctx_congr Iff.rfl (fun above => ?_) fun _ => rfl
  show cellAt (s.store (25#64 * BitVec.ofNat 64 VGA_WIDTH + 0#64) _) (r + 1) x = _
  rw [index]
  exact cellAt_store_below s (by omega) column _

theorem Shows.overrun_iff (shows : Shows t s) {c : Byte} (overruns : Overruns c s) :
    Shows (t.act (cell s.color (ascii ' ')) (.put (cell s.color c))) (putchar c s) ↔
      c = ascii ' ' := by
  let blank := cell s.color (ascii ' ')
  have full : 80 ≤ t.column := shows.column ▸ overruns.full
  have last : (t.row : ℕ) = 24 := shows.row ▸ overruns.last
  have scrolled (r : Fin 25) (x : Fin 80) :
      cellAt (putchar c s) r x = (t.scroll blank).cells r x := by
    rw [cellAt_overrun overruns r.isLt x.isLt, t.scroll_cells]
    split
    · exact shows.cells ⟨r + 1, _⟩ x
    · rfl
  -- The terminal has scrolled too, and then shows the character at the start of the last row.
  have placed (r : Fin 25) (x : Fin 80) :
      (t.act blank (.put (cell s.color c))).cells r x =
        if r = t.row ∧ (x : ℕ) = 0 then cell s.color c else (t.scroll blank).cells r x := by
    show ((t.wrap blank).place _).cells r x = _
    rw [t.wrap_of_full _ full, t.newline_of_last _ last]
    rfl
  constructor
  · intro agree
    have corner := agree.cells t.row 0
    rw [scrolled, placed, if_pos ⟨rfl, rfl⟩, t.scroll_cells, dif_neg (by omega)] at corner
    exact (cell_inj corner).symm
  · rintro rfl
    refine ⟨fun r x => ?_, ?_, ?_⟩
    · rw [scrolled, placed]
      split
      · rename_i corner
        rw [t.scroll_cells, corner.1, dif_neg (by omega)]
      · rfl
    · rw [putchar_overrun overruns, scrollUp_cursorY]
      show 24 = ((t.wrap blank).row : ℕ)
      rw [t.wrap_of_full _ full, t.newline_of_last _ last]
      exact last.symm
    · rw [putchar_overrun overruns, scrollUp_cursorX]
      show 1 = (t.wrap blank).column + 1
      rw [t.wrap_of_full _ full, t.newline_of_last _ last]

/-- A tab goes to the next multiple of 8, unless the column is at the end of `size_t`. -/
theorem toNat_tab_iff (x : Size) :
    ((x + 8#64) &&& ~~~7#64).toNat = (x.toNat / 8 + 1) * 8 ↔ x.toNat < 2 ^ 64 - 8 := by
  have cleared (y : Size) : y &&& ~~~7#64 = (y >>> 3) <<< 3 := by
    have mask : 7#64 = (BitVec.allOnes 3).setWidth 64 := by decide
    apply BitVec.eq_of_getLsbD_eq
    intro i inside
    rw [mask, BitVec.getLsbD_and, BitVec.getLsbD_not, BitVec.getLsbD_setWidth,
      BitVec.getLsbD_allOnes, BitVec.getLsbD_shiftLeft, BitVec.getLsbD_ushiftRight]
    by_cases low : i < 3
    · simp [low]
    · simp [low, inside, show 3 + (i - 3) = i by omega]
  rw [cleared, BitVec.toNat_shiftLeft, BitVec.toNat_ushiftRight, Nat.shiftLeft_eq,
    Nat.shiftRight_eq_div_pow, BitVec.toNat_add]
  have small := x.isLt
  show (x.toNat + 8) % 2 ^ 64 / 8 * 8 % 2 ^ 64 = _ ↔ _
  omega

/-- The characters that the terminal places are those `putchar` stores. -/
theorem printable_iff (c : Byte) : Printable c ↔ 32 ≤ c.toNat ∧ c.toNat ≤ 127 := by
  have small := c.isLt
  rw [Printable, BitVec.toInt_eq_toNat_cond]
  split <;> omega

/-- A printable character is shown, unless it overruns the screen and is no blank. -/
theorem Shows.put_iff (shows : Shows t s) {c : Byte} (printable : Printable c) :
    Shows (t.act (cell s.color (ascii ' ')) (.put (cell s.color c))) (putchar c s) ↔
      (Overruns c s → c = ascii ' ') := by
  by_cases room : 80 ≤ t.column ∧ (t.row : ℕ) = 24
  · have overruns : Overruns c s := ⟨printable, shows.column ▸ room.1, shows.row ▸ room.2⟩
    rw [shows.overrun_iff overruns]
    exact ⟨fun blank _ => blank, fun follows => follows overruns⟩
  · refine iff_of_true (shows.put printable room) fun overruns => ?_
    exact absurd ⟨shows.column ▸ overruns.full, shows.row ▸ overruns.last⟩ room

theorem Shows.carriageReturn (shows : Shows t s) :
    Shows (t.act (cell s.color (ascii ' ')) .carriageReturn) (putchar (ascii '\r') s) := by
  have stays : putchar (ascii '\r') s = { s with cursorX := 0#64 } := putchar_of_row shows.inside
  rw [stays]
  exact ⟨shows.cells, shows.row, rfl⟩

theorem Shows.tab_iff (shows : Shows t s) :
    Shows (t.act (cell s.color (ascii ' ')) (.tab 8)) (putchar (ascii '\t') s) ↔
      s.cursorX.toNat < 2 ^ 64 - 8 := by
  have stays : putchar (ascii '\t') s =
    { s with cursorX := (s.cursorX + 8#64) &&& ~~~7#64 } := putchar_of_row shows.inside
  have column := shows.column
  rw [stays, ← toNat_tab_iff, column]
  exact ⟨fun agree => agree.column, fun same => ⟨shows.cells, shows.row, same⟩⟩

theorem putchar_of_ignored {c : Byte} (newline : c ≠ ascii '\n') (carriageReturn : c ≠ ascii '\r')
    (tab : c ≠ ascii '\t') (printable : ¬ Printable c) (inside : Row s) : putchar c s = s := by
  have advanced : advance c s = s := by
    rw [advance, if_neg newline, if_neg carriageReturn, if_neg tab, if_neg printable]
  exact (putchar_of_row (advanced.symm ▸ inside)).trans advanced

/-- The character does not overrun the screen, unless it is a blank, and it is no tab at the end
of `size_t`. -/
structure Follows (s : State) (c : Byte) : Prop where
  room : Overruns c s → c = ascii ' '
  tab : c = ascii '\t' → s.cursorX.toNat < 2 ^ 64 - 8

/-- After one more character the console shows what the terminal does, exactly then. -/
theorem shows_putchar_iff (shows : Shows t s) (c : Byte) :
    Shows (typed s.color t c) (putchar c s) ↔ Follows s c := by
  have control {d : Byte} (unprintable : ¬ Printable d) : Overruns d s → d = ascii ' ' :=
    fun overruns => absurd overruns.printable unprintable
  unfold typed action
  by_cases newline : c = ascii '\n'
  · subst newline
    rw [if_pos rfl]
    exact iff_of_true (shows.newline rfl)
      ⟨control (by decide), fun tab => absurd tab (by decide)⟩
  rw [if_neg newline]
  by_cases carriageReturn : c = ascii '\r'
  · subst carriageReturn
    rw [if_pos rfl]
    exact iff_of_true shows.carriageReturn
      ⟨control (by decide), fun tab => absurd tab (by decide)⟩
  rw [if_neg carriageReturn]
  by_cases tab : c = ascii '\t'
  · subst tab
    rw [if_pos rfl, shows.tab_iff]
    exact ⟨fun small => ⟨control (by decide), fun _ => small⟩, fun follows => follows.tab rfl⟩
  rw [if_neg tab]
  by_cases printable : Printable c
  · rw [if_pos ((printable_iff c).mp printable), shows.put_iff printable]
    exact ⟨fun room => ⟨room, fun same => absurd same tab⟩, fun follows => follows.room⟩
  · rw [if_neg fun inside => printable ((printable_iff c).mpr inside),
      putchar_of_ignored newline carriageReturn tab printable shows.inside]
    exact iff_of_true shows ⟨control printable, fun same => absurd same tab⟩

end Step

/-! ### Strings -/

theorem putchar_color (c : Byte) (s : State) : (putchar c s).color = s.color := by
  have advanced : (advance c s).color = s.color := by
    have placed : (place c s).color = s.color := by
      rw [place_eq]
      unfold storeAtCursor wrap
      dsimp only
      split <;> rfl
    unfold advance
    split
    · rfl
    split
    · rfl
    split
    · rfl
    split
    · exact placed
    · rfl
  unfold putchar
  dsimp only
  split
  · exact (scrollUp_color _).trans advanced
  · exact advanced

theorem print_color (str : List Byte) (s : State) : (print str s).color = s.color :=
  run_invariant (I := fun s' : State => s'.color = s.color)
    (fun s' c same => (putchar_color c s').trans same) rfl str

theorem clearScreen_color (s : State) : (clearScreen s).color = s.color := by
  show (forRange 0 (VGA_WIDTH * VGA_HEIGHT)
    (fun i s' => s'.store (BitVec.ofNat 64 i) (cell s.color (ascii ' '))) s).color = s.color
  refine forRange_invariant (I := fun s' : State => s'.color = s.color)
    (fun i s' _ _ same => ?_) rfl
  exact same

/-- The terminal after a string, in a given colour. -/
def terminal (color : Byte) (str : List Byte) : Screen :=
  run (typed color) (Terminal.clear (cell color (ascii ' '))) str

theorem follows_of_shows (s₀ : State) {str : List Byte} {c : Byte}
    (before : Shows (terminal s₀.color str) (print str (clearScreen s₀)))
    (after : Shows (terminal s₀.color (str ++ [c])) (print (str ++ [c]) (clearScreen s₀))) :
    Follows (print str (clearScreen s₀)) c := by
  have color : (print str (clearScreen s₀)).color = s₀.color :=
    (print_color str _).trans (clearScreen_color s₀)
  rw [terminal, run_append, print, List.foldl_append] at after
  have next := shows_putchar_iff before c
  rw [color] at next
  exact next.mp after

/-- **The console shows what was printed** after every part of a string exactly when each
character of it finds the console in a state from which it follows the terminal. -/
theorem print_shows_iff (s₀ : State) (str : List Byte) :
    (∀ pre, pre <+: str → Shows (terminal s₀.color pre) (print pre (clearScreen s₀))) ↔
      EveryStep (fun s c => putchar c s) Follows (clearScreen s₀) str := by
  let step (p : Screen × State) (c : Byte) : Screen × State := (typed s₀.color p.1 c, putchar c p.2)
  let start : Screen × State := (Terminal.clear (cell s₀.color (ascii ' ')), clearScreen s₀)
  let Agrees (p : Screen × State) : Prop := Shows p.1 p.2
  have both (pre : List Byte) : run step start pre =
      (terminal s₀.color pre, print pre (clearScreen s₀)) :=
    @run_prod Screen Byte (typed s₀.color) State (fun s c => putchar c s) _ _ pre
  have states : (∀ pre, pre <+: str → Agrees (run step start pre)) ↔
      Agrees start ∧ EveryStep step (fun p c => Agrees (step p c)) start str := everyState_iff
  simp only [both] at states
  have congr : EveryStep step (fun p c => Agrees (step p c)) start str ↔
      EveryStep step (fun p c => Follows p.2 c) start str := by
    refine everyStep_congr (I := fun p => Agrees p ∧ p.2.color = s₀.color) ?_ ?_
      ⟨shows_clearScreen s₀, clearScreen_color s₀⟩ str
    · rintro ⟨t, s⟩ c ⟨shows, same⟩ follows
      refine ⟨?_, (putchar_color c s).trans same⟩
      have next := (shows_putchar_iff shows c).mpr follows
      rwa [same] at next
    · rintro ⟨t, s⟩ c ⟨shows, same⟩
      have next := shows_putchar_iff shows c
      rwa [same] at next
  refine states.trans ?_
  rw [congr, and_iff_right (shows_clearScreen s₀)]
  exact everyStep_map (f := Prod.snd) fun _ _ => rfl

/-- The last row is filled. -/
def fullRow : List Byte := List.replicate 24 (ascii '\n') ++ List.replicate 80 (ascii 'A')

/-- The character after that is lost. -/
theorem print_loses :
    ¬ ∀ (s₀ : State) (str : List Byte),
      Shows (terminal s₀.color str) (print str (clearScreen s₀)) := by
  intro shows
  let s₀ : State := ⟨⟨fun _ => 0#16, []⟩, 0#64, 0#64, 7#8⟩
  have overruns : Overruns (ascii 'A') (print fullRow (clearScreen s₀)) :=
    ⟨by decide, by decide +kernel, by decide +kernel⟩
  have follows := follows_of_shows s₀ (shows s₀ fullRow) (shows s₀ (fullRow ++ [ascii 'A']))
  exact absurd (follows.room overruns) (by decide)

end ModernOS.Console
