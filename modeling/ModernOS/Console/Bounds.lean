import ModernOS.Console.Model

/-!
Where the console stores.

After every character the cursor is in one of the 25 rows (`row_putchar`), and so it
is after every call. From such a state a character is stored on the screen unless it
has to wrap from the last row: `putchar` scrolls after it has stored, so the
character goes to the row below the last one, at index 2000
(`stores_onScreen_iff`).
-/

namespace ModernOS.Console

open CountedLoop Transition

/-- An index of `VGA_MEMORY` that is a cell of the screen. -/
def OnScreen (index : Size) : Prop := index.toNat < VGA_WIDTH * VGA_HEIGHT

instance : DecidablePred OnScreen := fun _ => inferInstanceAs (Decidable (_ < _))

/-- The cursor is in a row of the screen. -/
def Row (s : State) : Prop := s.cursorY.toNat < VGA_HEIGHT

/-- The character has to be placed on the line after the last one. -/
structure Overruns (c : Byte) (s : State) : Prop where
  printable : Printable c
  full : VGA_WIDTH ≤ s.cursorX.toNat
  last : s.cursorY.toNat = VGA_HEIGHT - 1

theorem onScreen_ofNat {n : ℕ} (inside : n < VGA_WIDTH * VGA_HEIGHT) :
    OnScreen (BitVec.ofNat 64 n) := by
  show (BitVec.ofNat 64 n).toNat < _
  rw [BitVec.toNat_ofNat]
  exact (Nat.mod_le n _).trans_lt inside

/-! ### Scrolling -/

section Scroll

variable {I : LoggedArray Size (BitVec 16) → Prop}
  (kept : ∀ m index value, OnScreen index → I m → I (m.store index value)) {s : State}

include kept

theorem moveLines_vga (init : I s.vga) : I (moveLines s).vga := by
  unfold moveLines
  refine forRange_invariant (I := fun s : State => I s.vga) (fun y s low high inv => ?_) init
  refine forRange_invariant (I := fun s : State => I s.vga) (fun x s _ narrow inv => ?_) inv
  refine kept _ _ _ (onScreen_ofNat ?_) inv
  have high : y < 25 := high
  have narrow : x < 80 := narrow
  show (y - 1) * 80 + x < 2000
  omega

theorem clearLastLine_vga (init : I s.vga) : I (clearLastLine s).vga := by
  unfold clearLastLine
  refine forRange_invariant (I := fun s : State => I s.vga) (fun x s _ narrow inv => ?_) init
  refine kept _ _ _ (onScreen_ofNat ?_) inv
  have narrow : x < 80 := narrow
  show 24 * 80 + x < 2000
  omega

/-- `scroll_up` is made of stores on the screen: a property of the video memory that these
keep is kept by `scroll_up`. -/
theorem scrollUp_vga (init : I s.vga) : I (scrollUp s).vga :=
  clearLastLine_vga kept (moveLines_vga kept init)

end Scroll

theorem scrollUp_within {s : State} (within : s.vga.Within OnScreen) :
    (scrollUp s).vga.Within OnScreen :=
  scrollUp_vga (fun _ _ _ inside within => within.store inside _) within

/-- `scroll_up` takes nothing back. -/
theorem scrollUp_mem_stores {s : State} {i : Size} (mem : i ∈ s.vga.stores) :
    i ∈ (scrollUp s).vga.stores :=
  scrollUp_vga (I := fun m => i ∈ m.stores) (fun _ _ _ _ mem => List.mem_cons_of_mem _ mem) mem

/-! ### The cursor -/

theorem row_scrollUp (s : State) : Row (scrollUp s) := by
  show (BitVec.ofNat 64 _).toNat < _
  decide

theorem row_clearScreen (s : State) : Row (clearScreen s) := by
  show 0 < 25
  decide

/-- Whatever the character does to the cursor, scrolling brings it back to a row. -/
theorem row_putchar (c : Byte) (s : State) : Row (putchar c s) := by
  unfold putchar
  dsimp only
  split
  · exact row_scrollUp _
  · rename_i inside
    exact not_le.mp inside

theorem row_print (str : List Byte) {s : State} (row : Row s) : Row (print str s) :=
  run_invariant (I := Row) (fun s c _ => row_putchar c s) row str

theorem row_step {s : State} (row : Row s) (op : Op) : Row (step s op) := by
  cases op with
  | putchar c => exact row_putchar c s
  | print str => exact row_print str row
  | printHex value => exact row_print _ row
  | printDec value =>
      show Row (printDec value s)
      unfold printDec
      split
      · exact row_putchar _ s
      · exact row_print _ row

theorem row_run (s : State) (ops : List Op) : Row (run step (clearScreen s) ops) :=
  run_invariant (I := Row) (fun _ op row => row_step row op) (row_clearScreen s) ops

/-! ### Storing a character -/

theorem toNat_index (s : State) (row : Row s) (column : s.cursorX.toNat < VGA_WIDTH) :
    (s.cursorY * BitVec.ofNat 64 VGA_WIDTH + s.cursorX).toNat =
      s.cursorY.toNat * VGA_WIDTH + s.cursorX.toNat := by
  have row : s.cursorY.toNat < 25 := row
  have column : s.cursorX.toNat < 80 := column
  rw [BitVec.toNat_add, BitVec.toNat_mul]
  show (s.cursorY.toNat * 80 % 2 ^ 64 + s.cursorX.toNat) % 2 ^ 64 = s.cursorY.toNat * 80 + _
  omega

/-- Wrapping ends in a cell of the screen, except from the last row. -/
theorem wrap_inside {s : State} (row : Row s)
    (room : ¬ (VGA_WIDTH ≤ s.cursorX.toNat ∧ s.cursorY.toNat = VGA_HEIGHT - 1)) :
    Row (wrap s) ∧ (wrap s).cursorX.toNat < VGA_WIDTH := by
  unfold wrap
  split
  · rename_i full
    have above : ¬ s.cursorY.toNat = 24 := fun last => room ⟨full, last⟩
    have row : s.cursorY.toNat < 25 := row
    refine ⟨?_, show 0 < 80 by decide⟩
    show (s.cursorY + 1#64).toNat < 25
    rw [BitVec.toNat_add, BitVec.toNat_ofNat]
    omega
  · rename_i partly
    exact ⟨row, not_le.mp partly⟩

@[simp] theorem wrap_vga (s : State) : (wrap s).vga = s.vga := by
  unfold wrap
  split <;> rfl

theorem place_stores (c : Byte) (s : State) :
    (place c s).vga.stores =
      ((wrap s).cursorY * BitVec.ofNat 64 VGA_WIDTH + (wrap s).cursorX) :: s.vga.stores :=
  congrArg (fun m : LoggedArray Size (BitVec 16) => _ :: m.stores) (wrap_vga s)

theorem place_within {c : Byte} {s : State} (row : Row s) (within : s.vga.Within OnScreen)
    (room : ¬ (VGA_WIDTH ≤ s.cursorX.toNat ∧ s.cursorY.toNat = VGA_HEIGHT - 1)) :
    (place c s).vga.Within OnScreen := by
  obtain ⟨row', column⟩ := wrap_inside row room
  refine LoggedArray.Within.store ?_ ?_ _
  · rw [wrap_vga]
    exact within
  · show BitVec.toNat _ < _
    rw [toNat_index _ row' column]
    have row' : (wrap s).cursorY.toNat < 25 := row'
    have column : (wrap s).cursorX.toNat < 80 := column
    show _ * 80 + _ < 2000
    omega

theorem advance_within {c : Byte} {s : State} (row : Row s) (within : s.vga.Within OnScreen)
    (room : ¬ Overruns c s) : (advance c s).vga.Within OnScreen := by
  unfold advance
  split
  · exact within
  split
  · exact within
  split
  · exact within
  split
  · rename_i printable
    exact place_within row within fun ⟨full, last⟩ => room ⟨printable, full, last⟩
  · exact within

theorem putchar_within {c : Byte} {s : State} (row : Row s) (within : s.vga.Within OnScreen)
    (room : ¬ Overruns c s) : (putchar c s).vga.Within OnScreen := by
  have advanced := advance_within row within room
  unfold putchar
  dsimp only
  split
  · exact scrollUp_within advanced
  · exact advanced

/-- The control characters of `putchar` are not printable. -/
theorem advance_of_printable {c : Byte} (printable : Printable c) (s : State) :
    advance c s = place c s := by
  have other : ∀ d : Byte, ¬ Printable d → c ≠ d := fun d control same =>
    control (same ▸ printable)
  unfold advance
  rw [if_neg (other _ (by decide)), if_neg (other _ (by decide)), if_neg (other _ (by decide)),
    if_pos printable]

/-- A character that overruns the screen is stored at index 2000. -/
theorem putchar_of_overruns {c : Byte} {s : State} (overruns : Overruns c s) :
    2000#64 ∈ (putchar c s).vga.stores := by
  have last : s.cursorY = 24#64 := BitVec.eq_of_toNat_eq overruns.last
  have wrapped : wrap s = { s with cursorX := 0#64, cursorY := 25#64 } := by
    unfold wrap
    rw [if_pos overruns.full, last]
    congr 1
  have stored : 2000#64 ∈ (place c s).vga.stores := by
    rw [place_stores, wrapped]
    have index : 25#64 * BitVec.ofNat 64 VGA_WIDTH + 0#64 = 2000#64 := by decide
    exact List.mem_cons.mpr (Or.inl index.symm)
  unfold putchar
  rw [advance_of_printable overruns.printable]
  dsimp only
  split
  · exact scrollUp_mem_stores stored
  · exact stored

/-- **The console stores on the screen** for the next character, in any state that calls
lead to from `clear_screen`, exactly when it does not have to wrap a printable character
from the last row. -/
theorem stores_onScreen_iff (s₀ : State) (ops : List Op) (c : Byte) :
    let s := run step (clearScreen s₀) ops
    (∀ i ∈ storesOf (putchar c) s, OnScreen i) ↔ ¬ Overruns c s := by
  intro s
  have row : Row s := row_run s₀ ops
  let fresh : State := { s with vga := s.vga.forget }
  constructor
  · rintro inside ⟨printable, full, last⟩
    have below := putchar_of_overruns (s := fresh) ⟨printable, full, last⟩
    exact absurd (inside _ below) (by decide)
  · intro room
    exact putchar_within (s := fresh) row (LoggedArray.within_forget _ _)
      fun ⟨printable, full, last⟩ => room ⟨printable, full, last⟩

/-- The cursor goes to the last row and its line is filled. -/
def fillLastRow : List Op :=
  [.print (List.replicate 24 (ascii '\n') ++ List.replicate 80 (ascii 'A'))]

/-- The next character is stored below the last row. -/
theorem stores_offScreen :
    ¬ ∀ (s₀ : State) (ops : List Op) (c : Byte),
      ∀ i ∈ storesOf (putchar c) (run step (clearScreen s₀) ops), OnScreen i := by
  intro inside
  let s := run step (clearScreen ⟨⟨fun _ => 0#16, []⟩, 0#64, 0#64, 7#8⟩) fillLastRow
  have overruns : Overruns (ascii 'A') { s with vga := s.vga.forget } :=
    ⟨by decide, by decide +kernel, by decide +kernel⟩
  exact absurd (inside _ fillLastRow _ _ (putchar_of_overruns overruns)) (by decide)

end ModernOS.Console
