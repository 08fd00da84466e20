import ModernOS.Interrupt.Model
import ModernOS.Lib.Transition

/-!
Whether `are_enabled` tells the truth.

A `Machine` is the module together with what is on the stack: the guards of the running
code, and the interrupted contexts with the interrupt flag saved in each. The variable
follows the flag through `enable`, `disable` and the guards only. So it agrees with the
flag along a run exactly when no other step changes the flag
(`areEnabled_truthful_iff`).
-/

namespace ModernOS.Interrupt

open Transition

/-- A guard that is alive, and the interrupt flag that its constructor found. -/
structure LiveGuard where
  guard : InterruptGuard
  found : Bool

/-- An interrupted context: the interrupt flag saved with it, and its guards. -/
structure Frame where
  intf : Bool
  guards : List LiveGuard

/-- The module, the guards of the running code and the contexts it has interrupted, latest
first. -/
structure Machine where
  state : State
  guards : List LiveGuard
  frames : List Frame

/-- A step of the running code or of the processor. An exception is delivered whatever the
interrupt flag, a maskable interrupt only when it is set. -/
inductive Op where
  | enable
  | disable
  | construct
  | destruct
  | sti
  | cli
  | registerHandler (interruptNumber : BitVec 8) (handler : Word)
  | deliver (vector : BitVec 8) (maskable : Bool)
  | iret

namespace Machine

def flags (m : Machine) : Flags := m.state.flags

def withFlags (m : Machine) (f : Flags) : Machine := { m with state := { m.state with flags := f } }

@[simp] theorem flags_withFlags (m : Machine) (f : Flags) : (m.withFlags f).flags = f := rfl

@[simp] theorem guards_withFlags (m : Machine) (f : Flags) :
    (m.withFlags f).guards = m.guards := rfl

@[simp] theorem frames_withFlags (m : Machine) (f : Flags) :
    (m.withFlags f).frames = m.frames := rfl

@[simp] theorem idt_withFlags (m : Machine) (f : Flags) :
    (m.withFlags f).state.idt = m.state.idt := rfl

/-- The interrupt is taken: its gate is present, and it is not masked. -/
def Taken (m : Machine) (vector : BitVec 8) (maskable : Bool) : Prop :=
  (m.state.idt vector).present = true ∧ (maskable = true → m.flags.intf = true)

instance (m : Machine) (vector : BitVec 8) (maskable : Bool) :
    Decidable (m.Taken vector maskable) :=
  inferInstanceAs (Decidable (_ ∧ _))

def step (m : Machine) : Op → Machine
  | .enable => m.withFlags (Interrupt.enable m.flags)
  | .disable => m.withFlags (Interrupt.disable m.flags)
  | .construct =>
      let (guard, flags) := InterruptGuard.construct m.flags
      { m.withFlags flags with guards := ⟨guard, m.flags.intf⟩ :: m.guards }
  | .destruct =>
      match m.guards with
      | [] => m
      | g :: rest => { m.withFlags (g.guard.destruct m.flags) with guards := rest }
  | .sti => m.withFlags { m.flags with intf := true }
  | .cli => m.withFlags { m.flags with intf := false }
  | .registerHandler v handler => { m with state := Interrupt.registerHandler v handler m.state }
  | .deliver v maskable =>
      if m.Taken v maskable then
        { m.withFlags { m.flags with intf := intfAfterEntry v m.state } with
          guards := []
          frames := ⟨m.flags.intf, m.guards⟩ :: m.frames }
      else m
  | .iret =>
      -- A handler returns when its guards have gone out of scope.
      match m.guards, m.frames with
      | [], frame :: rest =>
          { m.withFlags { m.flags with intf := frame.intf } with
            guards := frame.guards
            frames := rest }
      | _, _ => m

end Machine

/-- The machine when `init` returns. -/
def start (s : State) : Machine := ⟨init s, [], []⟩

/-- `are_enabled` answers with the interrupt flag, and no guard of the running code will
enable interrupts that its constructor found disabled. -/
def TellsTruth (m : Machine) : Prop :=
  areEnabled m.flags = m.flags.intf ∧ ∀ g ∈ m.guards, g.guard.wasEnabled = g.found

/-- The step does not change the interrupt flag behind the module's back. -/
def KeepsFlag (m : Machine) : Op → Prop
  | .sti => m.flags.intf = true
  | .cli => m.flags.intf = false
  | .deliver v _ => (m.state.idt v).present = true → m.flags.intf = false
  | .iret => ∀ frame ∈ m.frames.head?, m.guards = [] → frame.intf = m.flags.intf
  | _ => True

/-- What holds as long as `are_enabled` tells the truth. -/
structure Tracked (m : Machine) : Prop where
  agree : areEnabled m.flags = m.flags.intf
  guards : ∀ g ∈ m.guards, g.guard.wasEnabled = g.found
  interrupted : ∀ frame ∈ m.frames, ∀ g ∈ frame.guards, g.guard.wasEnabled = g.found
  gates : ∀ v, (m.state.idt v).present = true → (m.state.idt v).interruptGate = true

theorem tracked_start (s : State) : Tracked (start s) where
  agree := rfl
  guards := fun _ none => absurd none List.not_mem_nil
  interrupted := fun _ none => absurd none List.not_mem_nil
  gates := fun v present => absurd present (show ¬ IDTEntry.cleared.present = true by decide)

/-- Only `register_handler` changes the table. -/
theorem Machine.idt_step {m : Machine} {op : Op}
    (other : ∀ n handler, op ≠ .registerHandler n handler) :
    (m.step op).state.idt = m.state.idt := by
  cases op with
  | registerHandler n handler => exact absurd rfl (other n handler)
  | destruct | deliver | iret =>
      rw [Machine.step]
      split <;> rfl
  | _ => rfl

/-- `register_handler` installs interrupt gates. -/
theorem gates_registerHandler {s : State} (interruptNumber : BitVec 8) (handler : Word)
    (gates : ∀ v, (s.idt v).present = true → (s.idt v).interruptGate = true) (v : BitVec 8)
    (present : ((registerHandler interruptNumber handler s).idt v).present = true) :
    ((registerHandler interruptNumber handler s).idt v).interruptGate = true := by
  by_cases same : v = interruptNumber
  · rw [same, registerHandler]
    dsimp only
    rw [Function.update_self]
    show (0x8E#8 &&& 0x0F#8 == 0x0E#8) = true
    decide
  · have kept : (registerHandler interruptNumber handler s).idt v = s.idt v :=
      Function.update_of_ne same ..
    rw [kept] at present ⊢
    exact gates v present

section Step

variable {m : Machine} (tracked : Tracked m) (op : Op)

include tracked

/-- The guards of the running code stay honest, also over an interrupt and its return. -/
theorem guards_step :
    (∀ g ∈ (m.step op).guards, g.guard.wasEnabled = g.found) ∧
    ∀ frame ∈ (m.step op).frames, ∀ g ∈ frame.guards, g.guard.wasEnabled = g.found := by
  obtain ⟨agree, guards, interrupted, -⟩ := tracked
  cases op with
  | construct =>
      refine ⟨fun g mem => ?_, interrupted⟩
      rcases List.mem_cons.mp mem with rfl | old
      · exact agree
      · exact guards g old
  | destruct =>
      rw [Machine.step]
      split
      · exact ⟨guards, interrupted⟩
      · rename_i g rest alive
        rw [alive] at guards
        exact ⟨fun g' mem => guards g' (List.mem_cons_of_mem _ mem), interrupted⟩
  | deliver v maskable =>
      rw [Machine.step]
      split
      · refine ⟨fun g none => absurd none List.not_mem_nil, fun frame mem => ?_⟩
        rcases List.mem_cons.mp mem with rfl | old
        · exact guards
        · exact interrupted frame old
      · exact ⟨guards, interrupted⟩
  | iret =>
      rw [Machine.step]
      split
      · rename_i frame rest done suspended
        rw [suspended] at interrupted
        exact ⟨interrupted frame List.mem_cons_self,
          fun frame' mem => interrupted frame' (List.mem_cons_of_mem _ mem)⟩
      · exact ⟨guards, interrupted⟩
  | _ => exact ⟨guards, interrupted⟩

theorem gates_step (v : BitVec 8) (present : ((m.step op).state.idt v).present = true) :
    ((m.step op).state.idt v).interruptGate = true := by
  cases op with
  | registerHandler n handler => exact gates_registerHandler n handler tracked.gates v present
  | _ =>
      rw [Machine.idt_step (by rintro _ _ ⟨⟩)] at present ⊢
      exact tracked.gates v present

/-- After a step the variable agrees with the interrupt flag exactly when the step has not
changed the flag behind the module's back. -/
theorem agree_step_iff :
    areEnabled (m.step op).flags = (m.step op).flags.intf ↔ KeepsFlag m op := by
  obtain ⟨agree, -, -, gates⟩ := tracked
  cases op with
  | enable => exact iff_of_true rfl trivial
  | disable => exact iff_of_true rfl trivial
  | construct => exact iff_of_true rfl trivial
  | destruct =>
      refine iff_of_true ?_ trivial
      rw [Machine.step]
      split
      · exact agree
      · rename_i g rest alive
        show areEnabled (g.guard.destruct m.flags) = (g.guard.destruct m.flags).intf
        rw [InterruptGuard.destruct]
        split
        · rfl
        · exact agree
  | sti =>
      show areEnabled m.flags = true ↔ m.flags.intf = true
      rw [agree]
  | cli =>
      show areEnabled m.flags = false ↔ m.flags.intf = false
      rw [agree]
  | registerHandler n handler => exact iff_of_true agree trivial
  | deliver v maskable =>
      rw [Machine.step, KeepsFlag]
      split
      · rename_i taken
        show areEnabled m.flags = intfAfterEntry v m.state ↔ _
        rw [intfAfterEntry, if_pos (gates v taken.1), agree]
        exact ⟨fun off _ => off, fun off => off taken.1⟩
      · rename_i masked
        refine iff_of_true agree fun present => ?_
        by_contra on
        exact masked ⟨present, fun _ => Bool.not_eq_false _ |>.mp on⟩
  | iret =>
      rw [Machine.step, KeepsFlag]
      split
      · rename_i frame rest done suspended
        rw [suspended, done]
        show areEnabled m.flags = frame.intf ↔ _
        rw [agree]
        simp [eq_comm]
      · rename_i other
        refine iff_of_true agree fun frame suspended done => ?_
        obtain ⟨rest, frames⟩ := List.head?_eq_some_iff.mp suspended
        exact absurd frames (other frame rest done)

theorem Tracked.step (keeps : KeepsFlag m op) : Tracked (m.step op) where
  agree := (agree_step_iff tracked op).mpr keeps
  guards := (guards_step tracked op).1
  interrupted := (guards_step tracked op).2
  gates := gates_step tracked op

end Step

/-- **`are_enabled` tells the truth** in every state of a run, and no guard re-enables
interrupts that it found disabled, if and only if the interrupt flag is changed by the
module's own functions only: by no `sti` or `cli`, no interrupt and no return. -/
theorem areEnabled_truthful_iff (s : State) (ops : List Op) :
    (∀ pre, pre <+: ops → TellsTruth (run Machine.step (start s) pre)) ↔
      EveryStep Machine.step KeepsFlag (start s) ops := by
  have initial := tracked_start s
  rw [everyState_iff, and_iff_right ⟨initial.agree, initial.guards⟩]
  refine everyStep_congr (fun m op tracked keeps => tracked.step op keeps)
    (fun m op tracked => ?_) initial ops
  exact (and_iff_left (guards_step tracked op).1).trans (agree_step_iff tracked op)

/-- The static variables before `init`. -/
def zeroed : State := ⟨fun _ => IDTEntry.cleared, fun _ => 0#32, ⟨false, false⟩⟩

/-- A keyboard interrupt after boot: its handler is told that interrupts are enabled, and a
guard there enables them. -/
theorem areEnabled_lies_in_handler :
    let handler := [.registerHandler 0x21#8 0x5000#32, .deliver 0x21#8 true]
    ¬ TellsTruth (run Machine.step (start zeroed) handler) ∧
    (run Machine.step (start zeroed) handler).flags = ⟨true, false⟩ ∧
    (run Machine.step (start zeroed) (handler ++ [.construct, .destruct])).flags =
      ⟨true, true⟩ := by
  refine ⟨fun truth => absurd truth.1 (by decide), by decide, by decide⟩

end ModernOS.Interrupt
