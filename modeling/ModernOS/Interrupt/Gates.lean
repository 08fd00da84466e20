import ModernOS.Lib.LastWrite
import ModernOS.Lib.BitField
import ModernOS.Interrupt.Model

/-!
The descriptor table against the table of handlers.

`register_handler` writes both, whatever the handler is: a null handler is entered in the one
and gets a present gate in the other. Each table holds what the last registration of its vector
wrote (`handlers_registered`, `idt_registered`), so they agree in every state that registrations
lead to from `init` exactly when no handler is null (`tables_agree_iff`).
-/

namespace ModernOS.Interrupt

open Transition

/-- A call of `register_handler`: its vector and its handler. -/
abbrev Registration := BitVec 8 × Word

def register (s : State) (r : Registration) : State := registerHandler r.1 r.2 s

/-- The gate that `register_handler` builds. -/
def gate (handler : Word) : IDTEntry where
  baseLow := (handler &&& 0xFFFF#32).setWidth 16
  selector := 0x08#16
  zero := 0#8
  flags := 0x8E#8
  baseHigh := ((handler >>> 16) &&& 0xFFFF#32).setWidth 16

/-- `base_low | base_high << 16`: where the gate leads. -/
def IDTEntry.base (e : IDTEntry) : Word :=
  e.baseLow.setWidth 32 ||| e.baseHigh.setWidth 32 <<< 16

/-- The fields of the handler. -/
theorem gate_slices (handler : Word) :
    (gate handler).baseLow = BitField.get 0 16 handler ∧
      (gate handler).baseHigh = BitField.get 16 16 handler :=
  ⟨BitField.setWidth_mask handler, BitField.setWidth_shift_mask handler 16⟩

theorem gate_base (handler : Word) : (gate handler).base = handler := by
  obtain ⟨low, high⟩ := gate_slices handler
  rw [IDTEntry.base, low, high, BitField.join, BitField.get_all, BitVec.setWidth_eq]

theorem gate_present (handler : Word) : (gate handler).present = true := by
  show (0x8E#8).getLsbD 7 = true
  decide

/-! ### The tables after registrations -/

section Registered

variable (s : State) (rs : List Registration) (v : BitVec 8)

theorem handlers_run : (run register s rs).handlers =
    run (fun f w => Function.update f w.1 w.2) s.handlers rs := by
  induction rs generalizing s with
  | nil => rfl
  | cons r rs ih => exact ih (register s r)

theorem idt_run : (run register s rs).idt =
    run (fun f w => Function.update f w.1 w.2) s.idt (rs.map fun r => (r.1, gate r.2)) := by
  induction rs generalizing s with
  | nil => rfl
  | cons r rs ih => exact ih (register s r)

theorem handlers_registered :
    (run register (init s) rs).handlers v = (lastWrite v rs).getD 0#32 := by
  rw [handlers_run, run_update_apply]
  rfl

theorem idt_registered :
    (run register (init s) rs).idt v = ((lastWrite v rs).map gate).getD IDTEntry.cleared := by
  rw [idt_run, run_update_apply, lastWrite_map]
  rfl

end Registered

theorem register_self (s : State) (v : BitVec 8) (handler : Word) :
    (register s (v, handler)).idt v = gate handler := Function.update_self ..

theorem register_of_ne (s : State) (r : Registration) {v : BitVec 8} (other : v ≠ r.1) :
    (register s r).idt v = s.idt v ∧ (register s r).handlers v = s.handlers v :=
  ⟨Function.update_of_ne other .., Function.update_of_ne other ..⟩

/-! ### Agreement -/

/-- The gate of a vector is present when it has a handler, and then leads to it. -/
structure GateAgrees (s : State) (v : BitVec 8) : Prop where
  present_iff : (s.idt v).present = true ↔ s.handlers v ≠ 0#32
  base : (s.idt v).present = true → (s.idt v).base = s.handlers v
  selector : (s.idt v).present = true → (s.idt v).selector = 0x08#16
  zero : (s.idt v).present = true → (s.idt v).zero = 0#8

theorem gateAgrees_cleared {s : State} {v : BitVec 8} (idt : s.idt v = IDTEntry.cleared)
    (handler : s.handlers v = 0#32) : GateAgrees s v := by
  have absent : ¬ (s.idt v).present = true := by
    rw [idt]
    decide
  exact ⟨iff_of_false absent (not_not.mpr handler), fun present => absurd present absent,
    fun present => absurd present absent, fun present => absurd present absent⟩

theorem gateAgrees_gate {s : State} {v : BitVec 8} {h : Word} (idt : s.idt v = gate h)
    (handler : s.handlers v = h) (proper : h ≠ 0#32) : GateAgrees s v where
  present_iff := iff_of_true (idt ▸ gate_present h) (handler ▸ proper)
  base _ := by rw [idt, handler, gate_base]
  selector _ := idt ▸ rfl
  zero _ := idt ▸ rfl

/-- What is expected of the tables after the registrations `rs`. -/
structure TablesAgree (s₀ : State) (rs : List Registration) : Prop where
  gates : ∀ v, GateAgrees (run register (init s₀) rs) v
  latest : ∀ v, ((run register (init s₀) rs).idt v).present = true →
    lastWrite v rs = some ((run register (init s₀) rs).handlers v)
  others : ∀ (r : Registration) v, v ≠ r.1 →
    (run register (init s₀) (rs ++ [r])).idt v = (run register (init s₀) rs).idt v ∧
      (run register (init s₀) (rs ++ [r])).handlers v = (run register (init s₀) rs).handlers v

/-- A registration of the null pointer makes the tables disagree. -/
theorem tables_null (s₀ : State) (rs : List Registration) (v : BitVec 8) :
    ¬ TablesAgree s₀ (rs ++ [(v, 0#32)]) := by
  intro agree
  have last : lastWrite v (rs ++ [(v, 0#32)]) = some 0#32 := by
    rw [lastWrite_concat, if_pos rfl]
  have present : ((run register (init s₀) (rs ++ [(v, 0#32)])).idt v).present = true := by
    rw [idt_registered, last]
    exact gate_present 0#32
  have null : (run register (init s₀) (rs ++ [(v, 0#32)])).handlers v = 0#32 := by
    rw [handlers_registered, last]
    rfl
  exact (agree.gates v).present_iff.mp present null

/-- Without one they agree. -/
theorem tables_agree (s₀ : State) {rs : List Registration} (proper : ∀ r ∈ rs, r.2 ≠ 0#32) :
    TablesAgree s₀ rs where
  gates v := by
    cases last : lastWrite v rs with
    | none =>
        refine gateAgrees_cleared ?_ ?_
        · rw [idt_registered, last]
          rfl
        · rw [handlers_registered, last]
          rfl
    | some h =>
        refine gateAgrees_gate ?_ ?_ (proper (v, h) (mem_of_lastWrite last))
        · rw [idt_registered, last]
          rfl
        · rw [handlers_registered, last]
          rfl
  latest v present := by
    cases last : lastWrite v rs with
    | none =>
        rw [idt_registered, last] at present
        exact absurd present (by decide)
    | some h =>
        rw [handlers_registered, last]
        rfl
  others r v other := by
    rw [run_append]
    exact register_of_ne _ r other

/-- **The tables agree** in every state of a run of registrations exactly when none of them has
a null handler. -/
theorem tables_agree_iff (s₀ : State) (rs : List Registration) :
    (∀ pre, pre <+: rs → TablesAgree s₀ pre) ↔ ∀ r ∈ rs, r.2 ≠ 0#32 := by
  constructor
  · intro agree r mem null
    obtain ⟨front, back, rfl⟩ := List.append_of_mem mem
    have split : r = (r.1, 0#32) := Prod.ext rfl null
    refine tables_null s₀ front r.1 (split ▸ agree (front ++ [r]) ⟨back, ?_⟩)
    rw [List.append_assoc, List.singleton_append]
  · rintro proper pre ⟨post, rfl⟩
    exact tables_agree s₀ fun r mem => proper r (List.mem_append_left post mem)

/-- The null handler for the keyboard. -/
theorem tables_disagree :
    ¬ ∀ (s₀ : State) (rs : List Registration), TablesAgree s₀ rs := fun agree =>
  tables_null ⟨fun _ => IDTEntry.cleared, fun _ => 0#32, ⟨false, false⟩⟩ [] 0x21#8
    (agree _ [(0x21#8, 0#32)])

end ModernOS.Interrupt
