import ModernOS.Lib.PaperRoll
import ModernOS.Console.Terminal
import ModernOS.Console.Syscall
import ModernOS.Console.Hex
import Mathlib.Data.List.GetD

/-!
What the screen shows of a text.

The console is the window over a roll of paper as long as no printed character has to wrap from
the last row. Text whose lines fit into the width never makes it wrap. After `clear_screen` the
screen therefore shows the last 25 lines of everything printed, in however many calls and colours
(`scrollback`).

A message that starts with a line end does not depend on the state that the console is in, not
even on a cursor that is in a row of the screen: it is read on the screen afterwards
(`message_visible`).
-/

namespace ModernOS.Console

open Transition

/-! ### Text with room -/

/-- The character of a cell. -/
def glyph (value : BitVec 16) : Byte := value.setWidth 8

@[simp] theorem glyph_cell (color c : Byte) : glyph (cell color c) = c := by
  apply BitVec.eq_of_getLsbD_eq
  intro i inside
  simp [glyph, cell, BitVec.getElem_signExtend, inside, show i < 16 by omega]

/-- A character of a line. -/
abbrev Line := List Byte

/-- A line is printable and fits into the width. -/
structure Line.Fits (l : Line) : Prop where
  printable : ∀ c ∈ l, Printable c
  narrow : l.length ≤ VGA_WIDTH

instance (l : Line) : Decidable l.Fits :=
  decidable_of_iff ((∀ c ∈ l, Printable c) ∧ l.length ≤ VGA_WIDTH)
    ⟨fun ⟨printable, narrow⟩ => ⟨printable, narrow⟩, fun fits => ⟨fits.printable, fits.narrow⟩⟩

/-- The lines, each below the row of the cursor. -/
def below (ls : List Line) : List Byte := ls.flatMap fun l => ascii '\n' :: l

theorem action_of_printable (color : Byte) {c : Byte} (printable : Printable c) :
    action color c = .put (cell color c) := by
  have other : ∀ d : Byte, ¬ Printable d → c ≠ d := fun d control same => control (same ▸ printable)
  unfold action
  rw [if_neg (other _ (by decide)), if_neg (other _ (by decide)), if_neg (other _ (by decide)),
    if_pos ((printable_iff c).mp printable)]

/-- What the characters of a text do, one line below the other. -/
theorem map_text {α : Type*} {g : Byte → Terminal.Action α} {v : Byte → α}
    (newline : g (ascii '\n') = .newline) (put : ∀ c, Printable c → g c = .put (v c))
    {first : Line} {rest : List Line} (fits : ∀ l ∈ first :: rest, l.Fits) :
    (first ++ below rest).map g =
      Terminal.line (first.map v) ++ Terminal.lines (rest.map fun l => l.map v) := by
  have line {l : Line} (fits : l.Fits) : l.map g = Terminal.line (l.map v) := by
    rw [Terminal.line, List.map_map]
    exact List.map_congr_left fun c mem => put c (fits.printable c mem)
  obtain ⟨head, fits⟩ := List.forall_mem_cons.mp fits
  rw [List.map_append, line head, below, Terminal.lines, List.map_flatMap, List.flatMap_map]
  congr 1
  refine List.flatMap_congr fun l mem => ?_
  rw [List.map_cons, newline, line (fits l mem)]

/-- Every text is made of lines. -/
theorem exists_lines (text : List Byte) : ∃ first rest,
    text.splitOn (ascii '\n') = first :: rest ∧ text = first ++ below rest := by
  have joined (first : Line) (rest : List Line) :
      [ascii '\n'].intercalate (first :: rest) = first ++ below rest := by
    induction rest generalizing first with
    | nil => rw [List.intercalate_singleton, below, List.flatMap_nil, List.append_nil]
    | cons l rest ih =>
        rw [List.intercalate_cons_cons, ih]
        simp [below]
  have whole : _ = text := List.intercalate_splitOn (ascii '\n')
  have nonempty := List.splitOn_ne_nil (ascii '\n') text
  generalize text.splitOn (ascii '\n') = ls at whole nonempty ⊢
  cases ls with
  | nil => exact absurd rfl nonempty
  | cons first rest => exact ⟨first, rest, rfl, whole.symm.trans (joined first rest)⟩

/-- The characters of lines are no tabs. -/
theorem plain_of_fits {first : Line} {rest : List Line} (fits : ∀ l ∈ first :: rest, l.Fits) :
    ∀ c ∈ first ++ below rest, c ≠ ascii '\t' := by
  have line {l : Line} (fits : l.Fits) {c : Byte} (mem : c ∈ l) : c ≠ ascii '\t' := fun tab =>
    absurd (tab ▸ fits.printable c mem) (by decide)
  obtain ⟨head, fits⟩ := List.forall_mem_cons.mp fits
  intro c mem
  rcases List.mem_append.mp mem with here | later
  · exact line head here
  · obtain ⟨l, inside, mem⟩ := List.mem_flatMap.mp later
    rcases List.mem_cons.mp mem with rfl | mem
    · decide
    · exact line (fits l inside) mem

/-! ### Printing with room -/

section

variable {t : Screen} {s : State}

theorem Shows.not_overruns (shows : Shows t s) {c : Byte} (room : t.Roomy (action s.color c)) :
    ¬ Overruns c s := by
  intro overruns
  rw [action_of_printable _ overruns.printable] at room
  have narrow : t.column < 80 := room
  have full : 80 ≤ s.cursorX.toNat := overruns.full
  exact absurd (shows.column ▸ full) (not_le.mpr narrow)

/-- A character that finds room is shown. -/
theorem Shows.type (shows : Shows t s) {c : Byte} (room : t.Roomy (action s.color c))
    (plain : c ≠ ascii '\t') : Shows (typed s.color t c) (putchar c s) :=
  (shows_putchar_iff shows c).mpr
    ⟨fun overruns => absurd overruns (shows.not_overruns room), fun tab => absurd tab plain⟩

/-- Text that finds room is shown, and is stored on the screen. -/
theorem Shows.print (shows : Shows t s) {str : List Byte}
    (room : EveryStep (typed s.color) (fun t c => t.Roomy (action s.color c)) t str)
    (plain : ∀ c ∈ str, c ≠ ascii '\t') :
    Shows (run (typed s.color) t str) (print str s) ∧
      (s.vga.Within OnScreen → (print str s).vga.Within OnScreen) := by
  induction str generalizing t s with
  | nil => exact ⟨shows, id⟩
  | cons c str ih =>
      obtain ⟨here, plain⟩ := List.forall_mem_cons.mp plain
      have next := shows.type room.1 here
      have stays := fun inside =>
        putchar_within (c := c) shows.inside inside (shows.not_overruns room.1)
      rw [← putchar_color c s] at next room ⊢
      obtain ⟨shown, within⟩ := ih next room.2 plain
      exact ⟨shown, fun inside => within (stays inside)⟩

end

/-! ### Characters without their colours -/

/-- What a character does on a terminal that shows characters. -/
def glyphAction (c : Byte) : Terminal.Action Byte := (action 0#8 c).map glyph

/-- A terminal of 25 rows and 80 columns that shows characters. -/
abbrev Page := Terminal 24 80 Byte

/-- The terminal after a character. -/
def written (u : Page) (c : Byte) : Page := u.act (ascii ' ') (glyphAction c)

/-- The characters on the screen and the cursor are those of the terminal. -/
def Displays (u : Page) (s : State) : Prop := ∃ t : Screen, Shows t s ∧ t.map glyph = u

theorem map_glyph_action (color c : Byte) : (action color c).map glyph = glyphAction c := by
  unfold glyphAction action
  split
  · rfl
  split
  · rfl
  split
  · rfl
  split
  · exact congrArg Terminal.Action.put ((glyph_cell color c).trans (glyph_cell 0#8 c).symm)
  · rfl

theorem map_glyph_typed (color : Byte) (t : Screen) (c : Byte) :
    (typed color t c).map glyph = written (t.map glyph) c := by
  rw [typed, Terminal.map_act, map_glyph_action, glyph_cell]
  rfl

theorem displays_clearScreen (s : State) :
    Displays (Terminal.clear (ascii ' ')) (clearScreen s) := by
  refine ⟨_, shows_clearScreen s, ?_⟩
  show (⟨fun _ _ => glyph (cell s.color (ascii ' ')), 0, 0⟩ : Page) = _
  rw [glyph_cell]
  rfl

section

variable {u : Page} {s : State}

/-- No character of the text finds the cursor at the edge, and none is a tab. -/
structure Spacious (u : Page) (str : List Byte) : Prop where
  room : EveryStep written (fun u c => u.Roomy (glyphAction c)) u str
  plain : ∀ c ∈ str, c ≠ ascii '\t'

theorem Displays.print (displays : Displays u s) {str : List Byte} (spacious : Spacious u str) :
    Displays (run written u str) (print str s) ∧
      (s.vga.Within OnScreen → (Console.print str s).vga.Within OnScreen) := by
  obtain ⟨t, shows, rfl⟩ := displays
  have roomy (t : Screen) (c : Byte) :
      (t.map glyph).Roomy (glyphAction c) ↔ t.Roomy (action s.color c) := by
    rw [← map_glyph_action s.color]
    cases action s.color c <;> exact Iff.rfl
  have room := (everyStep_map (map_glyph_typed s.color)).mpr spacious.room
  simp only [roomy] at room
  obtain ⟨shown, within⟩ := shows.print room spacious.plain
  exact ⟨⟨_, shown, run_map (map_glyph_typed s.color) t str⟩, within⟩

/-- `set_color` leaves the screen. -/
theorem Displays.setColor (displays : Displays u s) (color : Byte) :
    Displays u (setColor color s) := by
  obtain ⟨t, shows, same⟩ := displays
  exact ⟨t, ⟨shows.cells, shows.row, shows.column⟩, same⟩

end

/-! ### Calls -/

/-- A call that prints, or `set_color`. -/
inductive Call where
  | op (op : Op)
  | setColor (color : Byte)
  deriving DecidableEq, Repr

/-- The console after a call. -/
def call (s : State) : Call → State
  | .op op => step s op
  | .setColor color => setColor color s

/-- The text that a call prints. -/
def Op.text : Op → List Byte
  | .putchar c => [c]
  | .print str => str
  | .printHex value => hexString value
  | .printDec value => decString value

def Call.text : Call → List Byte
  | .op o => o.text
  | .setColor _ => []

theorem step_eq_print (s : State) (op : Op) : step s op = print op.text s := by
  cases op with
  | putchar c => rfl
  | print str => rfl
  | printHex value => rfl
  | printDec value => exact (print_decString value s).symm

/-- What the calls print is shown, and is stored on the screen. -/
theorem Displays.calls {u : Page} {s : State} (displays : Displays u s) {calls : List Call}
    (spacious : Spacious u (calls.flatMap Call.text)) :
    Displays (run written u (calls.flatMap Call.text)) (run call s calls) ∧
      (s.vga.Within OnScreen → (run call s calls).vga.Within OnScreen) := by
  induction calls generalizing u s with
  | nil => exact ⟨displays, id⟩
  | cons c calls ih =>
      obtain ⟨room, plain⟩ := spacious
      rw [List.flatMap_cons] at room plain ⊢
      rw [everyStep_append] at room
      rw [run_append]
      have rest : Spacious (run written u c.text) (calls.flatMap Call.text) :=
        ⟨room.2, fun c mem => plain c (List.mem_append_right _ mem)⟩
      cases c with
      | op o =>
          obtain ⟨shown, within⟩ :=
            displays.print ⟨room.1, fun c mem => plain c (List.mem_append_left _ mem)⟩
          have step : Console.print (Call.op o).text s = call s (.op o) := (step_eq_print s o).symm
          rw [step] at shown within
          obtain ⟨shown, within'⟩ := ih shown rest
          exact ⟨shown, fun inside => within' (within inside)⟩
      | setColor color => exact ih (displays.setColor color) rest

/-! ### Lines that fit -/

section

variable {first : Line} {rest : List Line} (fits : ∀ l ∈ first :: rest, l.Fits)

include fits

/-- The lines fit when they are seen through `v`, too. -/
theorem narrow_map {α : Type*} (v : Byte → α) :
    ∀ l ∈ first.map v :: rest.map fun l => l.map v, l.length ≤ VGA_WIDTH := by
  intro l mem
  have mem : l ∈ (first :: rest).map fun l => l.map v := mem
  obtain ⟨l, inside, rfl⟩ := List.mem_map.mp mem
  rw [List.length_map]
  exact (fits l inside).narrow

section

variable {α : Type*} {g : Byte → Terminal.Action α} {v : Byte → α}
  (newline : g (ascii '\n') = .newline) (put : ∀ c, Printable c → g c = .put (v c)) (blank : α)

include newline put

/-- On a terminal the text is what the window shows of it on a roll. -/
theorem run_text (p : PaperRoll VGA_WIDTH α) :
    run (fun t c => Terminal.act blank t (g c)) (p.window 24) (first ++ below rest) =
      (run (PaperRoll.act 24 blank) p
        (Terminal.line (first.map v) ++ Terminal.lines (rest.map fun l => l.map v))).window 24 := by
  rw [PaperRoll.window_run, ← map_text newline put fits, run_comap]

theorem everyStep_text (t : Terminal 24 VGA_WIDTH α) (start : t.column = 0) :
    EveryStep (fun t c => Terminal.act blank t (g c)) (fun t c => t.Roomy (g c)) t
      (first ++ below rest) := by
  refine everyStep_comap g |>.mp ?_
  rw [map_text newline put fits]
  exact Terminal.everyStep_roomy_sheet blank t start (narrow_map fits v)

end

end

theorem glyphAction_of_printable (c : Byte) (printable : Printable c) : glyphAction c = .put c := by
  rw [glyphAction, action_of_printable _ printable]
  exact congrArg Terminal.Action.put (glyph_cell 0#8 c)

/-- **The screen shows the last 25 lines** of everything that has been printed since
`clear_screen`, and the cursor is behind the last of them. -/
theorem scrollback (s₀ : State) (calls : List Call)
    (fits : ∀ l ∈ (calls.flatMap Call.text).splitOn (ascii '\n'), Line.Fits l) :
    let ls := (calls.flatMap Call.text).splitOn (ascii '\n')
    let s := run call (clearScreen s₀) calls
    (∀ r < VGA_HEIGHT, ∀ c < VGA_WIDTH, glyph (cellAt s r c) =
      (ls.getD (ls.length - VGA_HEIGHT + r) []).getD c (ascii ' ')) ∧
    s.cursorY.toNat = min (ls.length - 1) (VGA_HEIGHT - 1) ∧
    ∀ l ∈ ls.getLast?, s.cursorX.toNat = l.length := by
  intro ls s
  obtain ⟨first, rest, split, text⟩ := exists_lines (calls.flatMap Call.text)
  have same : ls = first :: rest := split
  rw [split] at fits
  let start : Page := .clear (ascii ' ')
  have spacious : Spacious start (calls.flatMap Call.text) := by
    rw [text]
    exact ⟨everyStep_text fits (v := id) rfl glyphAction_of_printable _ start rfl,
      plain_of_fits fits⟩
  obtain ⟨⟨t, shows, page⟩, -⟩ := (displays_clearScreen s₀).calls spacious
  have sheet := PaperRoll.sheet_lines (h := 24) (ascii ' ') (.empty (ascii ' ')) rfl
    (narrow_map fits id)
  rw [text, ← PaperRoll.window_empty] at page
  have page := page.trans (run_text fits (v := id) rfl glyphAction_of_printable _ _)
  generalize run (PaperRoll.act 24 (ascii ' ')) _ _ = q at sheet page
  have whole : first.map id :: rest.map (fun l => l.map id) = ls := by simp [same]
  rw [whole] at sheet
  have row : q.row + 1 = 0 + ls.length := sheet.row
  refine ⟨fun r inside c narrow => ?_, ?_, fun l mem => ?_⟩
  · have cell := congrFun₂ (congrArg Terminal.cells page) ⟨r, inside⟩ ⟨c, narrow⟩
    have place : q.row - 24 + r = ls.length - 25 + r := by omega
    calc glyph (cellAt s r c)
        = glyph (t.cells ⟨r, inside⟩ ⟨c, narrow⟩) := congrArg glyph (shows.cells ⟨r, _⟩ ⟨c, _⟩)
      _ = q.cells (q.row - 24 + r) ⟨c, narrow⟩ := cell
      _ = (ls.getD (q.row - 24 + r) []).getD c (ascii ' ') := sheet.cells_empty ..
      _ = _ := by rw [place]
  · have bottom : (t.row : ℕ) = min q.row 24 := congrArg (fun u : Page => (u.row : ℕ)) page
    rw [shows.row, bottom]
    congr 1
    omega
  · exact shows.column.trans ((congrArg Terminal.column page).trans (sheet.column l mem))

/-- Two lines in two colours. -/
theorem scrollback_two_lines : glyph (cellAt (run call
    (clearScreen ⟨⟨fun _ => 0#16, []⟩, 0#64, 0#64, 7#8⟩)
      [.op (.print [ascii 'a', ascii '\n']), .setColor 4#8, .op (.putchar (ascii 'b'))]) 1 0) =
    ascii 'b' :=
  ((scrollback ⟨⟨fun _ => 0#16, []⟩, 0#64, 0#64, 7#8⟩
    [.op (.print [ascii 'a', ascii '\n']), .setColor 4#8, .op (.putchar (ascii 'b'))]
    (by decide)).1 1 (by decide) 0 (by decide)).trans (by decide)

/-! ### A message -/

/-- The message is on the screen in one colour, from row `top` on. -/
structure Reads (s : State) (color : Byte) (top : ℕ) (message : List Line) : Prop where
  inside : top + message.length ≤ VGA_HEIGHT
  cells : ∀ i (here : i < message.length) c (there : c < message[i].length),
    cellAt s (top + i) c = cell color message[i][c]

theorem putchar_newline_cursorX (s : State) : (putchar (ascii '\n') s).cursorX = 0#64 := by
  unfold putchar
  dsimp only
  split
  · exact scrollUp_cursorX _
  · rfl

/-- The terminal that a console shows, when its cursor is at the start of a row. -/
def screenOf (s : State) (inside : Row s) : Screen :=
  ⟨fun r c => cellAt s r c, ⟨s.cursorY.toNat, inside⟩, 0⟩

/-- From the start of a row a text is shown line by line, on a roll that goes on below the
screen. -/
theorem print_sheet {s : State} (inside : Row s) (column : s.cursorX = 0#64) {first : Line}
    {rest : List Line} (fits : ∀ l ∈ first :: rest, l.Fits) :
    ∃ q, Shows (q.window 24) (print (first ++ below rest) s) ∧
      PaperRoll.Sheet 24 (cell s.color (ascii ' ')) (.ofTerminal (screenOf s inside))
        ((first :: rest).map fun l => l.map (cell s.color)) q := by
  have shows : Shows (screenOf s inside) s := ⟨fun _ _ => rfl, rfl, by rw [column]; rfl⟩
  have put (c : Byte) := @action_of_printable s.color c
  have window := run_text fits rfl put (cell s.color (ascii ' ')) (.ofTerminal (screenOf s inside))
  rw [PaperRoll.window_ofTerminal] at window
  have shown := shows.print (everyStep_text fits rfl put _ _ rfl) (plain_of_fits fits)
  refine ⟨_, window ▸ shown.1, ?_⟩
  exact PaperRoll.sheet_lines _ _ rfl (narrow_map fits (cell s.color))

/-- **A message that starts with a line end can be read** on the screen when it has been printed,
whatever the console has done before. -/
theorem message_visible (s : State) (message : List Line) (few : message.length ≤ VGA_HEIGHT)
    (fits : ∀ l ∈ message, l.Fits) :
    ∃ top, Reads (print (below message) s) s.color top message := by
  cases message with
  | nil => exact ⟨0, few, fun i here => absurd here (Nat.not_lt_zero i)⟩
  | cons first rest =>
      -- The line end brings the cursor into a row of the screen.
      have whole : print (below (first :: rest)) s =
          print (first ++ below rest) (putchar (ascii '\n') s) := rfl
      have inside := row_putchar (ascii '\n') s
      obtain ⟨q, shown, sheet⟩ := print_sheet inside (putchar_newline_cursorX s) fits
      rw [putchar_color] at sheet
      rw [whole]
      generalize putchar (ascii '\n') s = s' at inside sheet shown ⊢
      have row : q.row + 1 = s'.cursorY.toNat + ((first :: rest).map _).length := sheet.row
      rw [List.length_map] at row
      have inside : s'.cursorY.toNat < 25 := inside
      have few : (first :: rest).length ≤ 25 := few
      let top := s'.cursorY.toNat - (q.row - 24)
      refine ⟨top, show top + _ ≤ 25 by omega, fun i here c there => ?_⟩
      have narrow : c < 80 := there.trans_le (fits _ (List.getElem_mem here)).narrow
      have place : q.row - 24 + (top + i) = s'.cursorY.toNat + i := by omega
      calc cellAt _ (top + i) c
          = q.cells (q.row - 24 + (top + i)) ⟨c, narrow⟩ :=
            shown.cells ⟨top + i, by omega⟩ ⟨c, narrow⟩
        _ = q.cells (s'.cursorY.toNat + i) ⟨c, narrow⟩ := by rw [place]
        _ = _ := sheet.lines i (by rwa [List.length_map]) ⟨c, narrow⟩
        _ = cell s.color (first :: rest)[i][c] := by
          simp only [List.getElem_map]
          rw [List.getD_eq_getElem _ _ (by rwa [List.length_map]), List.getElem_map]

/-- A line in a console whose cursor is nowhere near the screen. -/
theorem message_visible_line : ∃ top,
    Reads (print (below [[ascii 'a']]) ⟨⟨fun _ => 0#16, []⟩, 1000#64, 70#64, 7#8⟩) 7#8 top
      [[ascii 'a']] :=
  message_visible ⟨⟨fun _ => 0#16, []⟩, 1000#64, 70#64, 7#8⟩ [[ascii 'a']] (by decide) (by decide)

end ModernOS.Console
