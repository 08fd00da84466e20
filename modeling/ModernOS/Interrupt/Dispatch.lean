import ModernOS.Lib.IA32
import ModernOS.Interrupt.Gates

/-!
Registered handlers, as the processor enters them.

`register_handler` puts the address of a C function into the gate, without a stub in between.
The function is entered, but it does not find the vector and the error code where it looks for
its parameters, and its near return does not undo what the processor pushed
(`not_dispatches`).
-/

namespace ModernOS.Interrupt

open IA32

/-- What the processor reads from an entry. -/
def IDTEntry.toGate (e : IDTEntry) : Gate := ⟨e.base, e.selector, e.interruptGate⟩

/-- The processor delivers vector `v`, in kernel mode, with the error code that it has. -/
def deliver (s : State) (v : BitVec 8) (error : Option Word) (c : Cpu) : Cpu :=
  c.deliver (s.idt v).toGate error

/-- A vector is dispatched to `handler`: the handler is entered with the vector and the error
code, and when it has returned the interrupted code goes on. -/
structure Dispatches (s : State) (v : BitVec 8) (handler : Word) (error : Option Word)
    (c : Cpu) : Prop where
  entered : (deliver s v error c).eip = handler
  interruptNumber : (deliver s v error c).argument 0 = v.setWidth 32
  errorCode : (deliver s v error c).argument 1 = error.getD 0#32
  resumes : ∀ t, Returned (deliver s v error c) t →
    t.eip = c.eip ∧ t.cs = c.cs ∧ t.eflags = c.eflags ∧ t.esp = c.esp

section Registered

variable (s : State) (v : BitVec 8) (handler : Word) (c : Cpu)

/-- The gate of a registered vector leads to the handler. -/
theorem toGate_register :
    ((registerHandler v handler s).idt v).toGate = ⟨handler, 0x08#16, true⟩ := by
  have built : (registerHandler v handler s).idt v = gate handler := register_self s v handler
  have interrupt : (gate handler).interruptGate = true := by
    show (0x8E#8 &&& 0x0F#8 == 0x0E#8) = true
    decide
  rw [built, IDTEntry.toGate, gate_base, interrupt]
  rfl

theorem deliver_eip (error : Option Word) :
    (deliver (registerHandler v handler s) v error c).eip = handler := by
  rw [deliver, toGate_register]
  rfl

/-- Without an error code, the parameters are CS and EFLAGS. -/
theorem argument_deliver :
    (deliver (registerHandler v handler s) v none c).argument 0 = c.cs.setWidth 32 ∧
      (deliver (registerHandler v handler s) v none c).argument 1 = c.eflags :=
  ⟨stack_deliver _ none c (by decide) rfl, stack_deliver _ none c (by decide) rfl⟩

/-- With one, they are EIP and CS. -/
theorem argument_deliver_error (e : Word) :
    (deliver (registerHandler v handler s) v (some e) c).argument 0 = c.eip ∧
      (deliver (registerHandler v handler s) v (some e) c).argument 1 = c.cs.setWidth 32 :=
  ⟨stack_deliver _ (some e) c (by decide) rfl, stack_deliver _ (some e) c (by decide) rfl⟩

/-- The handler returns to what is on top of the frame: EIP, or the error code. -/
theorem returned_eip (error : Option Word) {t : Cpu}
    (returned : Returned (deliver (registerHandler v handler s) v error c) t) :
    t.eip = error.getD c.eip := by
  rw [returned.eip]
  cases error with
  | none => exact stack_deliver _ none c (by decide) rfl
  | some e => exact stack_deliver _ (some e) c (by decide) rfl

/-- **No registered handler is dispatched correctly**: whatever the vector, the handler and the
interrupted code are, ESP is not what it was when the handler has returned. -/
theorem not_dispatches (error : Option Word) :
    ¬ Dispatches (registerHandler v handler s) v handler error c := by
  intro dispatches
  have resumed := dispatches.resumes _ (returned_ret _)
  exact returned_esp_ne _ error c (returned_ret _) resumed.2.2.2

end Registered

/-- The timer, handled by a function at 0x101000. -/
theorem timer_misdispatched :
    ¬ ∀ (s : State) (v : BitVec 8) (handler : Word) (error : Option Word) (c : Cpu),
      Dispatches (registerHandler v handler s) v handler error c := by
  intro dispatches
  let s : State := ⟨fun _ => IDTEntry.cleared, fun _ => 0#32, ⟨true, true⟩⟩
  let c : Cpu := ⟨0x105000#32, 0x08#16, 0x202#32, 0x90000#32, fun _ => 0#32⟩
  have found := (dispatches s 32#8 0x101000#32 none c).interruptNumber
  rw [(argument_deliver s 32#8 0x101000#32 c).1] at found
  exact absurd found (by decide)

end ModernOS.Interrupt
