import Mathlib.Logic.Function.Basic
import ModernOS.Memory.Model

/-!
Interrupt handling of the 32-bit kernel: `kernel/interrupt.cpp`, and the guard of
`include/interrupt.h`.

`Flags` is the static variable `interrupts_enabled` beside the processor's own
interrupt flag, which `sti` and `cli` write. A handler is the address of a function;
the null pointer is 0. `intfAfterEntry` is the processor's part: the entry through a
gate of the descriptor table, which clears the interrupt flag when the gate is an
interrupt gate.
-/

namespace ModernOS.Interrupt

/-- The software flag and the processor's flag. -/
@[ext] structure Flags where
  interruptsEnabled : Bool
  intf : Bool
  deriving DecidableEq, Repr

/-- `enable`: `sti`, and the variable is set. -/
def enable (_ : Flags) : Flags := ⟨true, true⟩

/-- `disable`: `cli`, and the variable is cleared. -/
def disable (_ : Flags) : Flags := ⟨false, false⟩

/-- `are_enabled`. -/
def areEnabled (f : Flags) : Bool := f.interruptsEnabled

/-- `InterruptGuard`. -/
structure InterruptGuard where
  wasEnabled : Bool
  deriving DecidableEq, Repr

/-- The constructor: the member is initialised before the body runs. -/
def InterruptGuard.construct (f : Flags) : InterruptGuard × Flags := (⟨areEnabled f⟩, disable f)

/-- The destructor. -/
def InterruptGuard.destruct (g : InterruptGuard) (f : Flags) : Flags :=
  if g.wasEnabled then enable f else f

/-! ### The descriptor table -/

/-- An entry of the interrupt descriptor table. -/
structure IDTEntry where
  baseLow : BitVec 16
  selector : BitVec 16
  zero : BitVec 8
  flags : BitVec 8
  baseHigh : BitVec 16
  deriving DecidableEq, Repr

/-- The entry that `init` leaves in every place. -/
def IDTEntry.cleared : IDTEntry := ⟨0#16, 0#16, 0#8, 0#8, 0#16⟩

/-- The present bit of the gate. -/
def IDTEntry.present (e : IDTEntry) : Bool := e.flags.getLsbD 7

/-- The gate is a 32-bit interrupt gate, not a trap gate. -/
def IDTEntry.interruptGate (e : IDTEntry) : Bool := e.flags &&& 0x0F#8 == 0x0E#8

/-- The static variables of the file, and the processor's interrupt flag. -/
structure State where
  idt : BitVec 8 → IDTEntry
  handlers : BitVec 8 → Word
  flags : Flags

/-- `init`. -/
def init (s : State) : State where
  idt := fun _ => IDTEntry.cleared
  handlers := fun _ => 0#32
  flags := enable s.flags

/-- `register_handler`. -/
def registerHandler (interruptNumber : BitVec 8) (handler : Word) (s : State) : State :=
  let base := handler
  { s with
    handlers := Function.update s.handlers interruptNumber handler
    idt := Function.update s.idt interruptNumber {
      baseLow := (base &&& 0xFFFF#32).setWidth 16
      selector := 0x08#16
      zero := 0#8
      flags := 0x8E#8
      baseHigh := ((base >>> 16) &&& 0xFFFF#32).setWidth 16 } }

/-- The processor's interrupt flag after the entry through the gate of vector `v`. -/
def intfAfterEntry (v : BitVec 8) (s : State) : Bool :=
  if (s.idt v).interruptGate then false else s.flags.intf

end ModernOS.Interrupt
