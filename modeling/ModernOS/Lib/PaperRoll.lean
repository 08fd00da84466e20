import ModernOS.Lib.Terminal
import ModernOS.Lib.Transition
import Mathlib.Algebra.Group.Nat.Defs
import Mathlib.Data.List.GetD
import Mathlib.Order.Basic

/-!
A terminal as the window over a roll of paper.

The roll is not scrolled: the cursor only goes down, and what has been printed stays where it is.
A terminal shows the last rows of it (`window_act`), so what is on the screen after any actions is
what the roll has in those rows. A text whose lines fit into the width is on the roll line by line
(`Lines`), and none of its characters finds the cursor at the edge (`everyStep_roomy_sheet`).
-/

/-- A roll of paper with columns `0, …, w - 1` and rows without end, whose cells show `α`. -/
structure PaperRoll (w : ℕ) (α : Type*) where
  cells : ℕ → Fin w → α
  row : ℕ
  column : ℕ

namespace PaperRoll

open Terminal Transition

variable {h w : ℕ} {α : Type*}

/-- The cursor goes to the start of the next row. Below row `h` the paper is blank as it comes. -/
def newline (h : ℕ) (blank : α) (p : PaperRoll w α) : PaperRoll w α where
  cells r c := if r = p.row + 1 ∧ h ≤ p.row then blank else p.cells r c
  row := p.row + 1
  column := 0

/-- The cursor leaves a row that is full. -/
def wrap (h : ℕ) (blank : α) (p : PaperRoll w α) : PaperRoll w α :=
  if w ≤ p.column then p.newline h blank else p

/-- Show `a` at the cursor, and go to the next column. -/
def place (a : α) (p : PaperRoll w α) : PaperRoll w α :=
  { p with
    cells := fun r c => if r = p.row ∧ c = p.column then a else p.cells r c
    column := p.column + 1 }

/-- The roll after an action. -/
def act (h : ℕ) (blank : α) (p : PaperRoll w α) : Action α → PaperRoll w α
  | .newline => p.newline h blank
  | .carriageReturn => { p with column := 0 }
  | .tab width => { p with column := (p.column / width + 1) * width }
  | .put a => (p.wrap h blank).place a
  | .ignore => p

/-- The last rows of the roll, down to the cursor's, or the first ones until there are enough. -/
def window (h : ℕ) (p : PaperRoll w α) : Terminal h w α where
  cells r c := p.cells (p.row - h + r) c
  row := ⟨min p.row h, by omega⟩
  column := p.column

/-- A roll of which the terminal shows the first rows. -/
def ofTerminal (t : Terminal h w α) : PaperRoll w α where
  cells r c := t.cells ⟨min r h, by omega⟩ c
  row := t.row
  column := t.column

theorem window_ofTerminal (t : Terminal h w α) : (ofTerminal t).window h = t := by
  have inside := t.row.isLt
  obtain ⟨cells, row, column⟩ := t
  simp only [window, ofTerminal, Terminal.mk.injEq, and_true]
  refine ⟨funext₂ fun r c => ?_, Fin.ext (show min (row : ℕ) h = row by omega)⟩
  congr 1
  exact Fin.ext (show min ((row : ℕ) - h + r) h = r by omega)

variable (blank : α) (p : PaperRoll w α)

/-! ### The window -/

theorem window_newline : (p.newline h blank).window h = (p.window h).newline blank := by
  by_cases above : p.row < h
  · rw [Terminal.newline_of_lt blank _ (show min p.row h < h by omega)]
    simp only [window, newline, Terminal.mk.injEq, and_true]
    refine ⟨funext₂ fun r c => ?_, Fin.ext (show min (p.row + 1) h = min p.row h + 1 by omega)⟩
    rw [if_neg (by omega), show p.row + 1 - h = 0 by omega, show p.row - h = 0 by omega]
  · rw [Terminal.newline_of_last blank _ (show min p.row h = h by omega)]
    simp only [window, newline, scroll, Terminal.mk.injEq, and_true]
    refine ⟨funext₂ fun r c => ?_, Fin.ext (show min (p.row + 1) h = min p.row h by omega)⟩
    by_cases last : (r : ℕ) < h
    · rw [if_neg (by omega), dif_pos last]
      congr 1
      omega
    · rw [if_pos (by omega), dif_neg last]

theorem window_wrap : (p.wrap h blank).window h = (p.window h).wrap blank := by
  by_cases full : w ≤ p.column
  · rw [wrap, if_pos full, window_newline, Terminal.wrap_of_full blank _ full]
  · rw [wrap, if_neg full, Terminal.wrap_of_room blank _ (show p.column < w by omega)]

theorem window_place (a : α) : (p.place a).window h = (p.window h).place a := by
  simp only [window, place, Terminal.place, Terminal.mk.injEq, and_true]
  funext r c
  refine if_congr (and_congr_left' ?_) rfl rfl
  rw [Fin.ext_iff]
  show p.row - h + (r : ℕ) = p.row ↔ (r : ℕ) = min p.row h
  omega

/-- **A terminal shows the last rows of the roll**, whatever the actions are. -/
theorem window_act (a : Action α) : (p.act h blank a).window h = (p.window h).act blank a := by
  cases a with
  | newline => exact window_newline blank p
  | carriageReturn => rfl
  | tab width => rfl
  | put a =>
      show ((p.wrap h blank).place a).window h = _
      rw [window_place, window_wrap]
      rfl
  | ignore => rfl

theorem window_run (actions : List (Action α)) :
    (run (act h blank) p actions).window h = run (Terminal.act blank) (p.window h) actions :=
  run_map (fun p a => window_act blank p a) p actions

/-! ### Lines -/

/-- A line that fits behind the cursor. -/
theorem run_line {l : List α} (fits : p.column + l.length ≤ w) :
    run (act h blank) p (line l) =
      ⟨fun r c => if r = p.row ∧ p.column ≤ c then l.getD (c - p.column) (p.cells r c)
        else p.cells r c, p.row, p.column + l.length⟩ := by
  induction l generalizing p with
  | nil =>
      obtain ⟨cells, row, column⟩ := p
      simp [line]
  | cons a l ih =>
      rw [List.length_cons] at fits
      have placed : act h blank p (.put a) = p.place a := by
        show (p.wrap h blank).place a = _
        rw [wrap, if_neg (by omega)]
      show run (act h blank) (act h blank p (.put a)) (line l) = _
      rw [placed, ih (p.place a) (show p.column + 1 + l.length ≤ w by omega)]
      simp only [place, mk.injEq, true_and, List.length_cons]
      refine ⟨funext₂ fun r c => ?_, by omega⟩
      by_cases here : r = p.row
      · subst here
        rcases Nat.lt_trichotomy c p.column with left | same | right
        · simp [show ¬ p.column + 1 ≤ c by omega, show ¬ p.column ≤ c by omega,
            show ¬ (c : ℕ) = p.column by omega]
        · simp [same]
        · have next : (c : ℕ) - p.column = c - (p.column + 1) + 1 := by omega
          simp [show p.column + 1 ≤ c by omega, show p.column ≤ c by omega,
            show ¬ (c : ℕ) = p.column by omega, next]
      · simp [here]

/-- `q` is `p` with the lines on the rows below the cursor. -/
structure Printed (h : ℕ) (blank : α) (p : PaperRoll w α) (ls : List (List α))
    (q : PaperRoll w α) : Prop where
  row : q.row = p.row + ls.length
  column : ∀ l ∈ ls.getLast?, q.column = l.length
  above : ∀ r ≤ p.row, ∀ c, q.cells r c = p.cells r c
  lines : ∀ i (inside : i < ls.length) (c : Fin w), q.cells (p.row + 1 + i) c =
    ls[i].getD c (if p.row + 1 + i ≤ h then p.cells (p.row + 1 + i) c else blank)
  below : ∀ r, q.row < r → ∀ c, q.cells r c = p.cells r c

theorem printed_lines {ls : List (List α)} (narrow : ∀ l ∈ ls, l.length ≤ w) :
    Printed h blank p ls (run (act h blank) p (lines ls)) := by
  induction ls generalizing p with
  | nil =>
      refine ⟨rfl, ?_, fun _ _ _ => rfl, fun i inside => absurd inside (Nat.not_lt_zero i),
        fun _ _ _ => rfl⟩
      rintro l ⟨⟩
  | cons l ls ih =>
      obtain ⟨fits, narrow⟩ := List.forall_mem_cons.mp narrow
      have first : run (act h blank) p (.newline :: line l) = _ :=
        run_line blank (p.newline h blank) (show 0 + l.length ≤ w by omega)
      have whole : run (act h blank) p (lines (l :: ls)) =
          run (act h blank) (run (act h blank) p (.newline :: line l)) (lines ls) :=
        run_append p (.newline :: line l) (lines ls)
      generalize run (act h blank) p (.newline :: line l) = p' at first whole
      have row : p'.row = p.row + 1 := congrArg PaperRoll.row first
      have column : p'.column = 0 + l.length := congrArg PaperRoll.column first
      -- The first line is all that has changed in the rows that the others leave.
      have cells (r : ℕ) (c : Fin w) : p'.cells r c = if r = p.row + 1 then
          l.getD c (if p.row + 1 ≤ h then p.cells r c else blank) else p.cells r c := by
        rw [first]
        by_cases here : r = p.row + 1
        · subst here
          by_cases high : p.row + 1 ≤ h
          · simp [newline, high, show ¬ h ≤ p.row by omega]
          · simp [newline, high, show h ≤ p.row by omega]
        · simp [newline, here]
      have rest := ih p' narrow
      rw [whole]
      refine ⟨?_, ?_, fun r high c => ?_, fun i inside c => ?_, fun r low c => ?_⟩
      · rw [rest.row, row, List.length_cons]
        omega
      · intro last mem
        cases ls with
        | nil =>
            obtain rfl : l = last := Option.some.inj mem
            show p'.column = _
            rw [column, Nat.zero_add]
        | cons l' ls => exact rest.column last (by rwa [List.getLast?_cons_cons] at mem)
      · rw [rest.above r (by omega), cells, if_neg (by omega)]
      · cases i with
        | zero =>
            rw [rest.above _ (show p.row + 1 + 0 ≤ p'.row by omega), cells, if_pos rfl]
            rfl
        | succ i =>
            have inside : i < ls.length := Nat.lt_of_succ_lt_succ inside
            have place : p.row + 1 + (i + 1) = p'.row + 1 + i := by omega
            have later : p'.cells (p'.row + 1 + i) c = p.cells (p'.row + 1 + i) c := by
              rw [cells, if_neg (by omega)]
            rw [place, rest.lines i inside c, later]
            rfl
      · rw [rest.below r low, cells, if_neg]
        have := rest.row
        omega

/-- `q` is `p` with the lines from the row of the cursor on. -/
structure Sheet (h : ℕ) (blank : α) (p : PaperRoll w α) (ls : List (List α))
    (q : PaperRoll w α) : Prop where
  row : q.row + 1 = p.row + ls.length
  column : ∀ l ∈ ls.getLast?, q.column = l.length
  lines : ∀ i (inside : i < ls.length) (c : Fin w), q.cells (p.row + i) c =
    ls[i].getD c (if i = 0 ∨ p.row + i ≤ h then p.cells (p.row + i) c else blank)
  below : ∀ r, q.row < r → ∀ c, q.cells r c = p.cells r c

theorem sheet_lines (start : p.column = 0) {first : List α} {rest : List (List α)}
    (narrow : ∀ l ∈ first :: rest, l.length ≤ w) :
    Sheet h blank p (first :: rest) (run (act h blank) p (line first ++ lines rest)) := by
  obtain ⟨fits, narrow⟩ := List.forall_mem_cons.mp narrow
  have head : run (act h blank) p (line first) = _ :=
    run_line blank p (show p.column + first.length ≤ w by omega)
  rw [run_append]
  generalize run (act h blank) p (line first) = p' at head
  have row : p'.row = p.row := by rw [head]
  have column : p'.column = p.column + first.length := by rw [head]
  have cells (r : ℕ) (c : Fin w) : p'.cells r c =
      if r = p.row then first.getD c (p.cells r c) else p.cells r c := by
    rw [head]
    simp [start]
  have printed := printed_lines (h := h) blank p' narrow
  refine ⟨?_, ?_, fun i inside c => ?_, fun r low c => ?_⟩
  · rw [printed.row, row, List.length_cons]
    omega
  · intro last mem
    cases rest with
    | nil =>
        obtain rfl : first = last := Option.some.inj mem
        show p'.column = _
        omega
    | cons l rest => exact printed.column last (by rwa [List.getLast?_cons_cons] at mem)
  · cases i with
    | zero =>
        rw [printed.above _ (show p.row + 0 ≤ p'.row by omega), cells, if_pos (Nat.add_zero _)]
        rfl
    | succ i =>
        have inside : i < rest.length := Nat.lt_of_succ_lt_succ inside
        have place : p.row + (i + 1) = p'.row + 1 + i := by omega
        have later : p'.cells (p'.row + 1 + i) c = p.cells (p'.row + 1 + i) c := by
          rw [cells, if_neg (by omega)]
        rw [place, printed.lines i inside c, later]
        simp
  · rw [printed.below r low, cells, if_neg]
    have := printed.row
    omega

/-- A roll with nothing on it. -/
def empty (blank : α) : PaperRoll w α := ⟨fun _ _ => blank, 0, 0⟩

theorem window_empty : (empty blank : PaperRoll w α).window h = Terminal.clear blank := by
  simp only [window, empty, Terminal.clear, Terminal.mk.injEq, true_and, and_true]
  exact Fin.ext (Nat.zero_min h)

theorem Sheet.cells_empty {ls : List (List α)} {q : PaperRoll w α}
    (sheet : Sheet h blank (empty blank) ls q) (r : ℕ) (c : Fin w) :
    q.cells r c = (ls.getD r []).getD c blank := by
  have paper (r : ℕ) (c : Fin w) : (empty blank : PaperRoll w α).cells r c = blank := rfl
  have row : q.row + 1 = 0 + ls.length := sheet.row
  rcases Nat.lt_or_ge r ls.length with inside | outside
  · have line := sheet.lines r inside c
    rw [paper, ite_self, show (empty blank : PaperRoll w α).row + r = r from Nat.zero_add r] at line
    rw [line, List.getD_eq_getElem _ _ inside]
  · rw [sheet.below r (by omega), paper, List.getD_eq_default _ _ outside]
    rfl

end PaperRoll

namespace Terminal

open Transition

variable {h w : ℕ} {α : Type*} (blank : α) (t : Terminal h w α)

/-! ### Room for lines -/

theorem everyStep_roomy_line {l : List α} (fits : t.column + l.length ≤ w) :
    EveryStep (act blank) Roomy t (line l) := by
  induction l generalizing t with
  | nil => trivial
  | cons a l ih =>
      rw [List.length_cons] at fits
      have room : t.column < w := by omega
      refine ⟨room, ?_⟩
      show EveryStep (act blank) Roomy ((t.wrap blank).place a) (line l)
      rw [t.wrap_of_room blank room]
      exact ih (t.place a) (show t.column + 1 + l.length ≤ w by omega)

/-- No character of lines that fit into the width finds the cursor at the edge. -/
theorem everyStep_roomy_lines {ls : List (List α)} (narrow : ∀ l ∈ ls, l.length ≤ w) :
    EveryStep (act blank) Roomy t (lines ls) := by
  induction ls generalizing t with
  | nil => trivial
  | cons l ls ih =>
      obtain ⟨fits, narrow⟩ := List.forall_mem_cons.mp narrow
      have whole : lines (l :: ls) = (.newline :: line l) ++ lines ls := List.flatMap_cons
      rw [whole]
      refine everyStep_append.mpr ⟨⟨trivial, everyStep_roomy_line blank _ ?_⟩, ih _ narrow⟩
      show (t.newline blank).column + l.length ≤ w
      rw [newline_column]
      omega

/-- No character of a text whose lines fit into the width finds the cursor at the edge. -/
theorem everyStep_roomy_sheet (start : t.column = 0) {first : List α} {rest : List (List α)}
    (narrow : ∀ l ∈ first :: rest, l.length ≤ w) :
    EveryStep (act blank) Roomy t (line first ++ lines rest) := by
  obtain ⟨fits, narrow⟩ := List.forall_mem_cons.mp narrow
  exact everyStep_append.mpr ⟨everyStep_roomy_line blank t (by omega),
    everyStep_roomy_lines blank _ narrow⟩

end Terminal
