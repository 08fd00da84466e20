import ModernOS.Console.Terminal

/-!
What `scroll_up` does to the screen, cell by cell.

The lines are copied in place, from the top: a line is read before the round after has overwritten
it, which `moved_moveLines` keeps track of. The stores of `scroll_up` are in its log; the indices
it loads from are recorded by a variant (`scrollUpTraced`) that is the same program otherwise.
-/

namespace ModernOS.Console

open CountedLoop

/-! ### Loads -/

/-- The console, with the indices that have been loaded from, latest first. -/
structure Traced where
  state : State
  loads : List Size

namespace Traced

/-- `VGA_MEMORY[index]`. -/
def load (t : Traced) (index : Size) : BitVec 16 × Traced :=
  (t.state.vga.cells index, ⟨t.state, index :: t.loads⟩)

/-- `VGA_MEMORY[index] = value`. -/
def store (t : Traced) (index : Size) (value : BitVec 16) : Traced :=
  ⟨t.state.store index value, t.loads⟩

/-- Every load hit a cell of the screen. -/
def LoadsOnScreen (t : Traced) : Prop := ∀ i ∈ t.loads, OnScreen i

theorem LoadsOnScreen.load {t : Traced} (inside : t.LoadsOnScreen) {index : Size}
    (onScreen : OnScreen index) : (t.load index).2.LoadsOnScreen := by
  intro i mem
  rcases List.mem_cons.mp mem with rfl | earlier
  · exact onScreen
  · exact inside i earlier

end Traced

/-- The first loop of `scroll_up`, with its loads. -/
def moveLinesTraced (t : Traced) : Traced :=
  forRange 1 VGA_HEIGHT (fun y t =>
    forRange 0 VGA_WIDTH (fun x t =>
      let src := BitVec.ofNat 64 (y * VGA_WIDTH + x)
      let dst := BitVec.ofNat 64 ((y - 1) * VGA_WIDTH + x)
      let (value, t) := t.load src
      t.store dst value) t) t

/-- The second loop: it does not load. -/
def clearLastLineTraced (t : Traced) : Traced :=
  let blank := cell t.state.color (ascii ' ')
  let lastLineStart := (VGA_HEIGHT - 1) * VGA_WIDTH
  forRange 0 VGA_WIDTH (fun x t => t.store (BitVec.ofNat 64 (lastLineStart + x)) blank) t

/-- `scroll_up`, with its loads. -/
def scrollUpTraced (t : Traced) : Traced :=
  let t := clearLastLineTraced (moveLinesTraced t)
  ⟨{ t.state with cursorY := BitVec.ofNat 64 (VGA_HEIGHT - 1) }, t.loads⟩

/-- The indices of the video memory that `scroll_up` loads from, latest first. -/
def loadsOf (s : State) : List Size := (scrollUpTraced ⟨s, []⟩).loads

theorem moveLinesTraced_state (t : Traced) : (moveLinesTraced t).state = moveLines t.state :=
  forRange_map (f := Traced.state)
    (fun _ t => forRange_map (f := Traced.state) (fun _ _ => rfl) t) t

theorem clearLastLineTraced_state (t : Traced) :
    (clearLastLineTraced t).state = clearLastLine t.state :=
  forRange_map (f := Traced.state) (fun _ _ => rfl) t

/-- The variant is `scroll_up`. -/
theorem scrollUpTraced_state (t : Traced) : (scrollUpTraced t).state = scrollUp t.state := by
  have cleared : (clearLastLineTraced (moveLinesTraced t)).state =
      clearLastLine (moveLines t.state) := by
    rw [clearLastLineTraced_state, moveLinesTraced_state]
  rw [scrollUpTraced, cleared]
  rfl

theorem moveLinesTraced_loads {t : Traced} (inside : t.LoadsOnScreen) :
    (moveLinesTraced t).LoadsOnScreen := by
  refine forRange_invariant (I := Traced.LoadsOnScreen) (fun y t _ high inside => ?_) inside
  refine forRange_invariant (I := Traced.LoadsOnScreen) (fun x t _ narrow inside => ?_) inside
  refine inside.load (onScreen_ofNat ?_)
  have high : y < 25 := high
  have narrow : x < 80 := narrow
  show y * 80 + x < 2000
  omega

theorem clearLastLineTraced_loads {t : Traced} (inside : t.LoadsOnScreen) :
    (clearLastLineTraced t).LoadsOnScreen := by
  refine forRange_invariant (I := Traced.LoadsOnScreen) (fun x t _ _ inside => ?_) inside
  exact inside

theorem loadsOf_onScreen (s : State) : ∀ i ∈ loadsOf s, OnScreen i := by
  have none : Traced.LoadsOnScreen ⟨s, []⟩ := fun _ mem => absurd mem List.not_mem_nil
  exact clearLastLineTraced_loads (moveLinesTraced_loads none)

/-! ### Stores -/

theorem storesOf_scrollUp_onScreen (s : State) : ∀ i ∈ storesOf scrollUp s, OnScreen i :=
  scrollUp_within (s := { s with vga := s.vga.forget }) (LoggedArray.within_forget OnScreen s.vga)

/-- Nothing changes outside the screen. -/
theorem scrollUp_cells_of_offScreen (s : State) {i : Size} (outside : ¬ OnScreen i) :
    (scrollUp s).vga.cells i = s.vga.cells i := by
  refine scrollUp_vga (I := fun m => m.cells i = s.vga.cells i)
    (fun m index value inside same => ?_) rfl
  have other : i ≠ index := by
    rintro rfl
    exact outside inside
  exact (m.store_cells_of_ne other value).trans same

/-! ### The screen -/

/-- What is expected of `scroll_up`. -/
structure ShiftsByRow (s : State) : Prop where
  moved : ∀ y x, y < 24 → x < 80 → cellAt (scrollUp s) y x = cellAt s (y + 1) x
  blank : ∀ x, x < 80 → cellAt (scrollUp s) 24 x = cell s.color (ascii ' ')
  outside : ∀ i, ¬ OnScreen i → (scrollUp s).vga.cells i = s.vga.cells i
  stores : ∀ i ∈ storesOf scrollUp s, OnScreen i
  traced : (scrollUpTraced ⟨s, []⟩).state = scrollUp s
  loads : ∀ i ∈ loadsOf s, OnScreen i
  cursorY : (scrollUp s).cursorY = 24#64
  cursorX : (scrollUp s).cursorX = s.cursorX

/-- **The screen moves up by one row**, whatever it shows and wherever the cursor is. -/
theorem scrollUp_shiftsByRow (s : State) : ShiftsByRow s where
  moved y x above narrow := by
    rw [cellAt_scrollUp s (by omega) narrow, if_pos above]
  blank x narrow := by
    rw [cellAt_scrollUp s (by decide) narrow, if_neg (lt_irrefl 24)]
  outside _ := scrollUp_cells_of_offScreen s
  stores := storesOf_scrollUp_onScreen s
  traced := scrollUpTraced_state ⟨s, []⟩
  loads := loadsOf_onScreen s
  cursorY := rfl
  cursorX := scrollUp_cursorX s

end ModernOS.Console
