import Mathlib.Algebra.Group.Nat.Defs
import Mathlib.Logic.Function.Basic

/-!
Interrupts of a 32-bit processor, and C functions that are entered by them.

A gate of the same privilege level leaves EFLAGS, CS and EIP on the current stack, and an error
code on top for some vectors (`Cpu.deliver`). A function with the C calling convention looks
for a return address there and its parameters above, and leaves with a near return, which takes
the return address and nothing else (`Returned`). Memory holds a doubleword at each address; all
accesses here are multiples of four apart.
-/

namespace IA32

/-- What the delivery of an interrupt and a return have to do with. -/
structure Cpu where
  eip : BitVec 32
  cs : BitVec 16
  eflags : BitVec 32
  esp : BitVec 32
  mem : BitVec 32 → BitVec 32

/-- The part of a gate descriptor that a delivery reads. -/
structure Gate where
  offset : BitVec 32
  selector : BitVec 16
  /-- An interrupt gate clears IF, a trap gate does not. -/
  interrupt : Bool
  deriving DecidableEq, Repr

namespace Cpu

/-- Push a doubleword. -/
def push (c : Cpu) (v : BitVec 32) : Cpu :=
  { c with esp := c.esp - 4#32, mem := Function.update c.mem (c.esp - 4#32) v }

/-- Doubleword number `i` of the stack, from the top. -/
def stack (c : Cpu) (i : ℕ) : BitVec 32 := c.mem (c.esp + 4#32 * BitVec.ofNat 32 i)

/-- Parameter number `i` of a C function that has just been entered. -/
def argument (c : Cpu) (i : ℕ) : BitVec 32 := c.stack (i + 1)

/-- EFLAGS behind a gate: TF, NT, RF and VM are clear, and IF behind an interrupt gate. -/
def flagsBehind (g : Gate) (eflags : BitVec 32) : BitVec 32 :=
  let eflags := eflags &&& ~~~0x34100#32
  if g.interrupt then eflags &&& ~~~0x200#32 else eflags

/-- Push doublewords, so that the first one is on top. -/
def pushAll (c : Cpu) (vs : List (BitVec 32)) : Cpu := vs.foldr (fun v c => c.push v) c

/-- What a delivery leaves on the stack, from the top. -/
def frame (c : Cpu) (error : Option (BitVec 32)) : List (BitVec 32) :=
  error.toList ++ [c.eip, c.cs.setWidth 32, c.eflags]

/-- The delivery of an interrupt through a gate, with the error code that the vector has. -/
def deliver (g : Gate) (error : Option (BitVec 32)) (c : Cpu) : Cpu :=
  { c.pushAll (c.frame error) with
    eip := g.offset, cs := g.selector, eflags := flagsBehind g c.eflags }

section Stack

variable (c : Cpu) (v : BitVec 32)

@[simp] theorem push_esp : (c.push v).esp = c.esp - 4#32 := rfl

theorem stack_push_zero : (c.push v).stack 0 = v := by
  have place : c.esp - 4#32 + 4#32 * BitVec.ofNat 32 0 = c.esp - 4#32 := by bv_omega
  rw [stack, push_esp, place]
  exact Function.update_self ..

theorem stack_push_succ {i : ℕ} (small : i < 2 ^ 28) : (c.push v).stack (i + 1) = c.stack i := by
  have place : c.esp - 4#32 + 4#32 * BitVec.ofNat 32 (i + 1) = c.esp + 4#32 * BitVec.ofNat 32 i := by
    bv_omega
  rw [stack, push_esp, place]
  exact Function.update_of_ne (by bv_omega) ..

theorem pushAll_esp (vs : List (BitVec 32)) :
    (c.pushAll vs).esp = c.esp - 4#32 * BitVec.ofNat 32 vs.length := by
  induction vs with
  | nil => simp [pushAll]
  | cons v vs ih =>
      show ((c.pushAll vs).push v).esp = _
      rw [push_esp, ih, List.length_cons]
      bv_omega

theorem stack_pushAll {vs : List (BitVec 32)} {i : ℕ} (small : i < 2 ^ 28)
    (place : vs[i]? = some v) : (c.pushAll vs).stack i = v := by
  induction vs generalizing i with
  | nil => cases place
  | cons v' vs ih =>
      show ((c.pushAll vs).push v').stack i = v
      cases i with
      | zero =>
          cases Option.some.inj place
          exact stack_push_zero _ v
      | succ i => exact (stack_push_succ _ v' (by omega)).trans (ih (by omega) place)

end Stack

end Cpu

/-- A C function that was entered in state `c` has left by a near return, in state `t`. -/
structure Returned (c t : Cpu) : Prop where
  eip : t.eip = c.stack 0
  cs : t.cs = c.cs
  esp : t.esp = c.esp + 4#32

/-- A function that returns at once. -/
def Cpu.ret (c : Cpu) : Cpu := { c with eip := c.stack 0, esp := c.esp + 4#32 }

theorem returned_ret (c : Cpu) : Returned c c.ret := ⟨rfl, rfl, rfl⟩

section Deliver

variable (g : Gate) (error : Option (BitVec 32)) (c : Cpu)

theorem stack_deliver {i : ℕ} (small : i < 2 ^ 28) {v : BitVec 32}
    (place : (c.frame error)[i]? = some v) : (c.deliver g error).stack i = v :=
  Cpu.stack_pushAll c v small place

theorem deliver_esp :
    (c.deliver g error).esp = c.esp - 4#32 * BitVec.ofNat 32 (c.frame error).length :=
  Cpu.pushAll_esp c _

/-- A near return does not take the frame of an interrupt off the stack. -/
theorem returned_esp_ne {t : Cpu} (returned : Returned (c.deliver g error) t) : t.esp ≠ c.esp := by
  rw [returned.esp, deliver_esp]
  cases error with
  | none =>
      show c.esp - 4#32 * 3#32 + 4#32 ≠ c.esp
      bv_omega
  | some e =>
      show c.esp - 4#32 * 4#32 + 4#32 ≠ c.esp
      bv_omega

end Deliver

end IA32
