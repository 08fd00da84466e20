import ModernOS.Lib.LoggedArray
import ModernOS.Lib.Transition

/-!
The console of `kernel/kernel_main64.cpp`.

The video memory is an array indexed by `size_t`, without bounds: the code computes
an index from the cursor and stores there. A `char` is a signed byte, as for the
x86-64 compilers the kernel is built with.
-/

namespace ModernOS.Console

open CountedLoop

/-- A `char`. -/
abbrev Byte := BitVec 8

/-- `std::size_t` of the 64-bit kernel. -/
abbrev Size := BitVec 64

/-- The code of a character literal. -/
def ascii (c : Char) : Byte := BitVec.ofNat 8 c.toNat

abbrev VGA_WIDTH : ℕ := 80

abbrev VGA_HEIGHT : ℕ := 25

/-- `VGA_MEMORY`, `g_cursor_x`, `g_cursor_y` and `g_color`. -/
structure State where
  vga : LoggedArray Size (BitVec 16)
  cursorX : Size
  cursorY : Size
  color : Byte

/-- The cell that shows `c` in the given colour: `(g_color << 8) | c`. -/
def cell (color : Byte) (c : Byte) : BitVec 16 := color.setWidth 16 <<< 8 ||| c.signExtend 16

/-- `VGA_MEMORY[index] = value`. -/
def State.store (s : State) (index : Size) (value : BitVec 16) : State :=
  { s with vga := s.vga.store index value }

/-- `clear_screen`. -/
def clearScreen (s : State) : State :=
  let blank := cell s.color (ascii ' ')
  let s := forRange 0 (VGA_WIDTH * VGA_HEIGHT) (fun i s => s.store (BitVec.ofNat 64 i) blank) s
  { s with cursorX := 0#64, cursorY := 0#64 }

/-- The first loop of `scroll_up`: every line moves up by one. -/
def moveLines (s : State) : State :=
  forRange 1 VGA_HEIGHT (fun y s =>
    forRange 0 VGA_WIDTH (fun x s =>
      let src := BitVec.ofNat 64 (y * VGA_WIDTH + x)
      let dst := BitVec.ofNat 64 ((y - 1) * VGA_WIDTH + x)
      s.store dst (s.vga.cells src)) s) s

/-- The second loop of `scroll_up`: the last line is cleared. -/
def clearLastLine (s : State) : State :=
  let blank := cell s.color (ascii ' ')
  let lastLineStart := (VGA_HEIGHT - 1) * VGA_WIDTH
  forRange 0 VGA_WIDTH (fun x s => s.store (BitVec.ofNat 64 (lastLineStart + x)) blank) s

/-- `scroll_up`. -/
def scrollUp (s : State) : State :=
  { clearLastLine (moveLines s) with cursorY := BitVec.ofNat 64 (VGA_HEIGHT - 1) }

/-- The characters `putchar` stores: `c >= 32` on a signed `char`. -/
def Printable (c : Byte) : Prop := 32 ≤ c.toInt

instance : DecidablePred Printable := fun _ => inferInstanceAs (Decidable (_ ≤ _))

/-- A line that is full is left before the next character is placed. -/
def wrap (s : State) : State :=
  if VGA_WIDTH ≤ s.cursorX.toNat then { s with cursorX := 0#64, cursorY := s.cursorY + 1#64 }
  else s

/-- The branch of `putchar` for a printable character. -/
def place (c : Byte) (s : State) : State :=
  let s := wrap s
  let index := s.cursorY * BitVec.ofNat 64 VGA_WIDTH + s.cursorX
  let s := s.store index (cell s.color c)
  { s with cursorX := s.cursorX + 1#64 }

/-- What `putchar` does with the character, before it looks whether to scroll. -/
def advance (c : Byte) (s : State) : State :=
  if c = ascii '\n' then { s with cursorX := 0#64, cursorY := s.cursorY + 1#64 }
  else if c = ascii '\r' then { s with cursorX := 0#64 }
  else if c = ascii '\t' then { s with cursorX := (s.cursorX + 8#64) &&& ~~~7#64 }
  else if Printable c then place c s
  else s

/-- `putchar`. -/
def putchar (c : Byte) (s : State) : State :=
  let s := advance c s
  if VGA_HEIGHT ≤ s.cursorY.toNat then scrollUp s else s

/-- `print`. -/
def print (str : List Byte) (s : State) : State := str.foldl (fun s c => putchar c s) s

/-! ### Numbers -/

/-- A local array of `char`. -/
abbrev Buffer := LoggedArray ℤ Byte

/-- An array that holds the characters of `str` and then zeros, as an initialiser leaves it. -/
def Buffer.init (str : List Byte) : Buffer := ⟨fun i => str.getD i.toNat 0#8, []⟩

/-- The C string that starts at index `start` of an array with `len` elements from there. -/
def Buffer.string (buffer : Buffer) (start : ℤ) (len : ℕ) : List Byte :=
  ((List.range len).map fun i => buffer.cells (start + i)).takeWhile (· ≠ 0#8)

/-- A string without NUL, with a NUL behind it in the array. -/
theorem Buffer.string_eq {buffer : Buffer} {start : ℤ} {str : List Byte} {len : ℕ}
    (inside : ∀ i (below : i < str.length), buffer.cells (start + i) = str[i])
    (noNul : ∀ c ∈ str, c ≠ 0#8) (ends : buffer.cells (start + str.length) = 0#8)
    (fits : str.length < len) : buffer.string start len = str := by
  have cells : buffer.string start len =
      ((List.range len).map fun i : ℕ => buffer.cells (start + i)).takeWhile (· ≠ 0#8) := by
    simp [Buffer.string, ← List.map_eq_flatMap, Function.comp_def]
  obtain ⟨k, rfl⟩ := Nat.exists_eq_add_of_lt fits
  rw [cells, Nat.add_assoc, List.range_add, List.map_append,
    LoggedArray.map_cells inside,
    List.takeWhile_append_of_pos fun c mem => decide_eq_true (noNul c mem),
    List.range_succ_eq_map, List.map_cons, List.map_cons, List.takeWhile_cons_of_neg]
  · exact List.append_nil str
  · simpa using ends

def hexChars : List Byte := "0123456789ABCDEF".toList.map ascii

/-- The buffer that `print_hex` fills. -/
def hexBuffer (value : BitVec 64) : Buffer :=
  let buffer := Buffer.init ("0x".toList.map ascii)
  let buffer := forDown 16 (fun i buffer =>
    buffer.store (i + 2) (hexChars.getD (value >>> (i * 4) &&& 0xF#64).toNat 0#8)) buffer
  buffer.store 18 0#8

/-- `print_hex`. -/
def printHex (value : BitVec 64) (s : State) : State :=
  print ((hexBuffer value).string 0 19) s

/-- The loop of `print_dec` that writes the digits downwards from index `pos`. -/
def decDigits (value : BitVec 64) (buffer : Buffer) (pos : ℤ) : Buffer × ℤ :=
  if h : 0 < value.toNat then
    decDigits (value / 10#64) (buffer.store (pos - 1) (ascii '0' + (value % 10#64).setWidth 8))
      (pos - 1)
  else (buffer, pos)
termination_by value.toNat
decreasing_by
  rw [BitVec.toNat_udiv]
  exact Nat.div_lt_self h (by decide)

/-- `print_dec`. The array is not initialised; only cells stored here are read. -/
def printDec (value : BitVec 64) (s : State) : State :=
  if value = 0#64 then putchar (ascii '0') s
  else
    let pos := 20
    let buffer := (Buffer.init []).store pos 0#8
    let (buffer, pos) := decDigits value buffer pos
    print (buffer.string pos (21 - pos).toNat) s

/-- `set_color`. -/
def setColor (color : Byte) (s : State) : State := { s with color }

/-! ### The console as a system of calls -/

/-- A call of the console. -/
inductive Op where
  | putchar (c : Byte)
  | print (str : List Byte)
  | printHex (value : BitVec 64)
  | printDec (value : BitVec 64)
  deriving DecidableEq, Repr

/-- The console after a call. -/
def step (s : State) : Op → State
  | .putchar c => putchar c s
  | .print str => print str s
  | .printHex value => printHex value s
  | .printDec value => printDec value s

/-- The indices of the video memory that `f` stores at, latest first. -/
def storesOf (f : State → State) (s : State) : List Size :=
  (f { s with vga := s.vga.forget }).vga.stores

end ModernOS.Console
