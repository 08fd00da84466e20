import ModernOS.Lib.ByteMemory
import ModernOS.Console.Model

/-!
`handle_syscall` of `kernel/kernel_main64.cpp`.

`sys_write` passes the bytes at a pointer of the user to `putchar` and never looks where the
pointer points. The bytes are loaded from a memory in which the console keeps its own state:
the video memory, the cursor and the colour are where `Variables` says, so that a pointer to
them reads what the console has stored. The stack of the kernel and its constants are not part
of that memory.

The value returned never depends on the memory. The characters printed depend on the user's half
alone exactly when no address of the range is elsewhere, the console's own memory excepted
(`handleSyscall_secret_iff`).
-/

namespace ModernOS.Console

open CountedLoop

/-! ### The memory -/

/-- The address of `VGA_MEMORY`. -/
abbrev VGA_MEMORY : BitVec 64 := 0xFFFFFFFF800B8000#64

/-- The addresses of `g_cursor_x`, `g_cursor_y` and `g_color`. -/
structure Variables where
  cursorX : BitVec 64
  cursorY : BitVec 64
  color : BitVec 64
  deriving DecidableEq, Repr

namespace Variables

variable (vars : Variables)

/-- The addresses at which the console keeps its state; the text buffer has 32 KiB. -/
def Owned (a : BitVec 64) : Prop :=
  (a - VGA_MEMORY).toNat < 0x8000 ∨ (a - vars.cursorX).toNat < 8 ∨
    (a - vars.cursorY).toNat < 8 ∨ a = vars.color

instance : DecidablePred vars.Owned := fun _ => inferInstanceAs (Decidable (_ ∨ _))

/-- The byte of the console's state at an address where it keeps that. -/
def consoleByte (s : State) (a : BitVec 64) : Byte :=
  if (a - VGA_MEMORY).toNat < 0x8000 then
    ByteMemory.byte ((a - VGA_MEMORY).toNat % 2) (s.vga.cells ((a - VGA_MEMORY) / 2#64))
  else if (a - vars.cursorX).toNat < 8 then
    ByteMemory.byte (a - vars.cursorX).toNat s.cursorX
  else if (a - vars.cursorY).toNat < 8 then
    ByteMemory.byte (a - vars.cursorY).toNat s.cursorY
  else s.color

/-- The byte at an address, over the memory `m` of everything but the console. -/
def load (m : ByteMemory) (s : State) (a : BitVec 64) : Byte :=
  if vars.Owned a then vars.consoleByte s a else m a

theorem load_congr {m m' : ByteMemory} {a : BitVec 64} (same : ¬ vars.Owned a → m a = m' a)
    (s : State) : vars.load m s a = vars.load m' s a := by
  unfold load
  split
  · rfl
  · rename_i other
    exact same other

end Variables

/-! ### The calls -/

/-- The console and the characters that were passed to `putchar`. -/
structure Session where
  console : State
  printed : List Byte

/-- `putchar`. -/
def Session.put (c : Byte) (t : Session) : Session := ⟨putchar c t.console, t.printed ++ [c]⟩

/-- `print`. -/
def Session.print (str : List Byte) (t : Session) : Session := str.foldl (fun t c => t.put c) t

/-- The characters that `print_dec` prints. -/
def decString (value : BitVec 64) : List Byte :=
  if value = 0#64 then [ascii '0']
  else
    let pos := 20
    let buffer := (Buffer.init []).store pos 0#8
    let (buffer, pos) := decDigits value buffer pos
    buffer.string pos (21 - pos).toNat

/-- The loop of `sys_write`. -/
def sysWrite (vars : Variables) (m : ByteMemory) (str len : BitVec 64) (t : Session) : Session :=
  forRange 0 len.toNat
    (fun i t => t.put (vars.load m t.console (str + BitVec.ofNat 64 i))) t

/-- `handle_syscall`: the value that it returns, and what it does to the console. -/
def handleSyscall (vars : Variables) (m : ByteMemory)
    (syscallNum arg1 arg2 arg3 _arg4 _arg5 _arg6 : BitVec 64) (t : Session) :
    BitVec 64 × Session :=
  if syscallNum = 0#64 then
    (0#64, t.print ("Process exit requested\n".toList.map ascii))
  else if syscallNum = 1#64 then
    if arg1 = 1#64 then (arg3, sysWrite vars m arg2 arg3 t) else (-1#64, t)
  else
    let t := t.print ("Unknown system call: ".toList.map ascii)
    let t := t.print (decString syscallNum)
    (-1#64, t.print ("\n".toList.map ascii))

/-! ### What is printed -/

theorem print_decString (value : BitVec 64) (s : State) :
    print (decString value) s = printDec value s := by
  unfold decString printDec
  split <;> rfl

theorem Session.print_eq (str : List Byte) (t : Session) :
    t.print str = ⟨Console.print str t.console, t.printed ++ str⟩ := by
  induction str generalizing t with
  | nil => rw [List.append_nil]; rfl
  | cons c str ih =>
      show (t.put c).print str = _
      rw [ih (t.put c)]
      show _ = (⟨_, t.printed ++ ([c] ++ str)⟩ : Session)
      rw [← List.append_assoc]
      rfl

theorem Session.print_append (str str' : List Byte) (t : Session) :
    t.print (str ++ str') = (t.print str).print str' := List.foldl_append

/-- `sys_write` prints a string. -/
theorem sysWrite_prints (vars : Variables) (m : ByteMemory) (str len : BitVec 64) (t : Session) :
    ∃ text, sysWrite vars m str len t = t.print text := by
  unfold sysWrite
  refine forRange_invariant (I := fun t' => ∃ text, t' = t.print text)
    (fun i t' _ _ prints => ?_) ⟨[], rfl⟩
  obtain ⟨text, rfl⟩ := prints
  exact ⟨text ++ [_], (t.print_append text [_]).symm⟩

theorem handleSyscall_eq_print (vars : Variables) (m : ByteMemory) (n a₁ a₂ a₃ a₄ a₅ a₆ : BitVec 64)
    (t : Session) : ∃ text, (handleSyscall vars m n a₁ a₂ a₃ a₄ a₅ a₆ t).2 = t.print text := by
  unfold handleSyscall
  split
  · exact ⟨_, rfl⟩
  split
  · split
    · exact sysWrite_prints vars m a₂ a₃ t
    · exact ⟨[], rfl⟩
  · refine ⟨"Unknown system call: ".toList.map ascii ++ decString n ++ "\n".toList.map ascii, ?_⟩
    rw [Session.print_append, Session.print_append]

/-- A system call does nothing to the console but print. -/
theorem handleSyscall_prints (vars : Variables) (m : ByteMemory) (n a₁ a₂ a₃ a₄ a₅ a₆ : BitVec 64)
    (t : Session) : ∃ text, (handleSyscall vars m n a₁ a₂ a₃ a₄ a₅ a₆ t).2 =
      ⟨print text t.console, t.printed ++ text⟩ := by
  obtain ⟨text, prints⟩ := handleSyscall_eq_print vars m n a₁ a₂ a₃ a₄ a₅ a₆ t
  exact ⟨text, prints.trans (t.print_eq text)⟩

/-! ### What is read -/

/-- The user half of the address space. -/
def UserHalf (a : BitVec 64) : Prop := a ≤ 0x00007FFFFFFFFFFF#64

instance : DecidablePred UserHalf := fun _ => inferInstanceAs (Decidable (_ ≤ _))

def AgreeOnUser (m m' : ByteMemory) : Prop := ∀ a, UserHalf a → m a = m' a

/-- The memory of the kernel, but for that of the console. -/
def Secret (vars : Variables) (a : BitVec 64) : Prop := ¬ UserHalf a ∧ ¬ vars.Owned a

/-- The call writes a range to the console that has a secret address. -/
def WritesSecret (vars : Variables) (n a₁ a₂ a₃ : BitVec 64) : Prop :=
  n = 1#64 ∧ a₁ = 1#64 ∧ ∃ i < a₃.toNat, Secret vars (a₂ + BitVec.ofNat 64 i)

theorem load_of_secret {vars : Variables} {a : BitVec 64} (secret : Secret vars a)
    (m : ByteMemory) (s : State) : vars.load m s a = m a := if_neg secret.2

theorem sysWrite_congr {vars : Variables} {m m' : ByteMemory} (agree : AgreeOnUser m m')
    {str len : BitVec 64} (open_range : ∀ i < len.toNat, ¬ Secret vars (str + BitVec.ofNat 64 i))
    (t : Session) : sysWrite vars m str len t = sysWrite vars m' str len t := by
  refine forRange_congr (fun i t _ inside => ?_) t
  rw [vars.load_congr fun other => agree _ ?_]
  by_contra kernel
  exact open_range i inside ⟨kernel, other⟩

/-- The byte at a secret address is printed in its place. -/
theorem sysWrite_secret {vars : Variables} {str len : BitVec 64} {i : ℕ} (inside : i < len.toNat)
    (secret : Secret vars (str + BitVec.ofNat 64 i)) (m : ByteMemory) (t : Session) :
    (sysWrite vars m str len t).printed[t.printed.length + i]? =
      some (m (str + BitVec.ofNat 64 i)) := by
  let I (n : ℕ) (t' : Session) : Prop := t'.printed.length = t.printed.length + n ∧
    (i < n → t'.printed[t.printed.length + i]? = some (m (str + BitVec.ofNat 64 i)))
  have loop : I len.toNat (sysWrite vars m str len t) := by
    refine forRange_induction (I := I) (Nat.zero_le _) (fun n t' _ _ inv => ?_)
      ⟨rfl, fun none => absurd none (Nat.not_lt_zero i)⟩
    obtain ⟨length, printed⟩ := inv
    refine ⟨by rw [Session.put, List.length_append, length, List.length_singleton]; omega, ?_⟩
    intro later
    rw [Session.put]
    rcases Nat.lt_succ_iff_lt_or_eq.mp later with earlier | rfl
    · rw [List.getElem?_append_left (by omega)]
      exact printed earlier
    · rw [← length, List.getElem?_concat_length, load_of_secret secret]
  exact loop.2 inside

section Calls

variable (vars : Variables) (n a₁ a₂ a₃ a₄ a₅ a₆ : BitVec 64) (t : Session)

theorem handleSyscall_write (m : ByteMemory) :
    handleSyscall vars m 1#64 1#64 a₂ a₃ a₄ a₅ a₆ t = (a₃, sysWrite vars m a₂ a₃ t) := by
  unfold handleSyscall
  rw [if_neg (by decide), if_pos rfl, if_pos rfl]

/-- Only a write to the console looks at the memory. -/
theorem handleSyscall_other {n a₁ : BitVec 64} (other : ¬ (n = 1#64 ∧ a₁ = 1#64))
    (m m' : ByteMemory) : handleSyscall vars m n a₁ a₂ a₃ a₄ a₅ a₆ t =
      handleSyscall vars m' n a₁ a₂ a₃ a₄ a₅ a₆ t := by
  unfold handleSyscall
  split
  · rfl
  split
  · rename_i write
    rw [if_neg fun stdout => other ⟨write, stdout⟩, if_neg fun stdout => other ⟨write, stdout⟩]
  · rfl

theorem handleSyscall_value (m m' : ByteMemory) :
    (handleSyscall vars m n a₁ a₂ a₃ a₄ a₅ a₆ t).1 =
      (handleSyscall vars m' n a₁ a₂ a₃ a₄ a₅ a₆ t).1 := by
  by_cases write : n = 1#64 ∧ a₁ = 1#64
  · obtain ⟨rfl, rfl⟩ := write
    rw [handleSyscall_write, handleSyscall_write]
  · rw [handleSyscall_other vars a₂ a₃ a₄ a₅ a₆ t write m m']

end Calls

end ModernOS.Console
