import Mathlib.Data.Fin.Basic

/-!
A character terminal of fixed size.

The cursor is always in a row of the screen. Its column may be past the edge: wrapping is
deferred until a cell has to be placed. When the cursor goes down from the last row, the
screen moves up by a row instead.
-/

/-- A terminal with rows `0, …, h` and columns `0, …, w - 1`, whose cells show `α`. -/
structure Terminal (h w : ℕ) (α : Type*) where
  cells : Fin (h + 1) → Fin w → α
  row : Fin (h + 1)
  column : ℕ

namespace Terminal

variable {h w : ℕ} {α : Type*}

/-- What a character does. -/
inductive Action (α : Type*) where
  | newline
  | carriageReturn
  | tab (width : ℕ)
  | put (a : α)
  | ignore

/-- The screen full of `blank`, with the cursor in the first cell. -/
def clear (blank : α) : Terminal h w α := ⟨fun _ _ => blank, 0, 0⟩

/-- All rows move up by one, and the last one becomes blank. -/
def scroll (blank : α) (t : Terminal h w α) : Terminal h w α :=
  { t with cells := fun r c => if above : r < h then t.cells ⟨r + 1, by omega⟩ c else blank }

/-- The cursor goes to the start of the next row. -/
def newline (blank : α) (t : Terminal h w α) : Terminal h w α :=
  if above : t.row < h then { t with row := ⟨t.row + 1, by omega⟩, column := 0 }
  else { t.scroll blank with column := 0 }

/-- The cursor leaves a row that is full. -/
def wrap (blank : α) (t : Terminal h w α) : Terminal h w α :=
  if w ≤ t.column then t.newline blank else t

/-- Show `a` at the cursor, and go to the next column. -/
def place (a : α) (t : Terminal h w α) : Terminal h w α :=
  { t with
    cells := fun r c => if r = t.row ∧ c = t.column then a else t.cells r c
    column := t.column + 1 }

/-- The terminal after an action. -/
def act (blank : α) (t : Terminal h w α) : Action α → Terminal h w α
  | .newline => t.newline blank
  | .carriageReturn => { t with column := 0 }
  | .tab width => { t with column := (t.column / width + 1) * width }
  | .put a => (t.wrap blank).place a
  | .ignore => t

variable (blank a : α) (t : Terminal h w α)

theorem scroll_cells (r : Fin (h + 1)) (c : Fin w) : (t.scroll blank).cells r c =
    if above : r < h then t.cells ⟨r + 1, by omega⟩ c else blank := rfl

theorem place_cells (r : Fin (h + 1)) (c : Fin w) :
    (t.place a).cells r c = if r = t.row ∧ c = t.column then a else t.cells r c := rfl

theorem newline_of_lt (above : t.row < h) :
    t.newline blank = { t with row := ⟨t.row + 1, by omega⟩, column := 0 } := dif_pos above

theorem newline_of_last (last : (t.row : ℕ) = h) :
    t.newline blank = { t.scroll blank with column := 0 } := dif_neg (by omega)

theorem wrap_of_full (full : w ≤ t.column) : t.wrap blank = t.newline blank := if_pos full

theorem wrap_of_room (room : t.column < w) : t.wrap blank = t := if_neg (by omega)

/-! ### The cells seen through a function -/

/-- What the action does to cells that are seen through `f`. -/
def Action.map {β : Type*} (f : α → β) : Action α → Action β
  | .newline => .newline
  | .carriageReturn => .carriageReturn
  | .tab width => .tab width
  | .put a => .put (f a)
  | .ignore => .ignore

/-- The terminal with its cells seen through `f`. -/
def map {β : Type*} (f : α → β) (t : Terminal h w α) : Terminal h w β :=
  ⟨fun r c => f (t.cells r c), t.row, t.column⟩

theorem map_newline {β : Type*} (f : α → β) :
    (t.newline blank).map f = (t.map f).newline (f blank) := by
  by_cases above : (t.row : ℕ) < h
  · rw [t.newline_of_lt blank above, (t.map f).newline_of_lt (f blank) above]
    rfl
  · rw [t.newline_of_last blank (by omega),
      (t.map f).newline_of_last (f blank) (show (t.row : ℕ) = h by omega)]
    simp only [map, scroll, mk.injEq, and_true]
    funext r c
    exact apply_dite f _ _ _

/-- What a terminal does to its cells does not depend on what they show. -/
theorem map_act {β : Type*} (f : α → β) (a : Action α) :
    (t.act blank a).map f = (t.map f).act (f blank) (a.map f) := by
  cases a with
  | newline => exact t.map_newline blank f
  | carriageReturn => rfl
  | tab width => rfl
  | put a =>
      have wrapped : (t.wrap blank).map f = (t.map f).wrap (f blank) := by
        by_cases full : w ≤ t.column
        · rw [t.wrap_of_full blank full, (t.map f).wrap_of_full (f blank) full, map_newline]
        · rw [t.wrap_of_room blank (by omega),
            (t.map f).wrap_of_room (f blank) (show t.column < w by omega)]
      show ((t.wrap blank).place a).map f = ((t.map f).wrap (f blank)).place (f a)
      rw [← wrapped]
      simp only [map, place, mk.injEq, and_true]
      funext r c
      exact apply_ite f _ _ _
  | ignore => rfl

/-! ### Lines -/

/-- The actions that show a line. -/
def line (l : List α) : List (Action α) := l.map .put

/-- The actions that show each line on a row of its own, below the row of the cursor. -/
def lines (ls : List (List α)) : List (Action α) := ls.flatMap fun l => .newline :: line l

/-- A character that is shown does not find the cursor at the edge. -/
def Roomy (t : Terminal h w α) : Action α → Prop
  | .put _ => t.column < w
  | _ => True

theorem newline_column : (t.newline blank).column = 0 := by
  unfold newline
  split <;> rfl

end Terminal
