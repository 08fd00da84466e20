import ModernOS.Console.Model

/-!
The console of `kernel/kernel.cpp`.

The cursor of this kernel is two `int`, taken as integers without bounds, and so is the index into
the video memory. There is no scrolling: after the last line the cursor goes on below the screen.
-/

namespace ModernOS.Console.Legacy

open CountedLoop

/-- `video_memory`, `cursor_x` and `cursor_y`. -/
structure State where
  video : LoggedArray ℤ (BitVec 16)
  cursorX : ℤ
  cursorY : ℤ

/-- The attribute of every character: white on black. -/
def whiteOnBlack : BitVec 16 := 0x0F00#16

/-- `putchar`. -/
def putchar (c : Byte) (s : State) : State :=
  if c = ascii '\n' then { s with cursorX := 0, cursorY := s.cursorY + 1 }
  else
    let index := s.cursorY * 80 + s.cursorX
    let s := { s with video := s.video.store index (c.signExtend 16 ||| whiteOnBlack) }
    let s := { s with cursorX := s.cursorX + 1 }
    if 80 ≤ s.cursorX then { s with cursorX := 0, cursorY := s.cursorY + 1 } else s

/-- `print`. -/
def print (str : List Byte) (s : State) : State := str.foldl (fun s c => putchar c s) s

/-- The loop of `print_number` that writes the digits upwards from index `i`. -/
def numberDigits (num : BitVec 32) (buffer : Buffer) (i : ℤ) : Buffer × ℤ :=
  if h : 0 < num.toNat then
    numberDigits (num / 10#32) (buffer.store i (ascii '0' + (num % 10#32).setWidth 8)) (i + 1)
  else (buffer, i)
termination_by num.toNat
decreasing_by
  rw [BitVec.toNat_udiv]
  exact Nat.div_lt_self h (by decide)

/-- `print_number`, over what it does with a character. The array is not initialised; only cells
stored here are read. -/
def printNumberTo {σ : Type*} (put : Byte → σ → σ) (num : BitVec 32) (s : σ) : σ :=
  if num = 0#32 then put (ascii '0') s
  else
    let (buffer, i) := numberDigits num (Buffer.init []) 0
    -- `while (--i >= 0)`
    forDown i.toNat (fun i s => put (buffer.cells i) s) s

/-- `print_number`. -/
def printNumber (num : BitVec 32) (s : State) : State := printNumberTo putchar num s

end ModernOS.Console.Legacy
