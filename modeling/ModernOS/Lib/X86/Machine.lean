import ModernOS.Lib.ByteMemory
import Mathlib.Logic.Function.Basic

/-!
A part of the x86-64 instruction set, in 64-bit mode.

`Op` is an instruction that goes on with the next one, and `exec` its effect. Memory
is flat: an access never faults. Of the flags only those that the instructions here
read are kept; `CPUID` answers from a fixed table. `Op.writes` and `Op.stores` list
what an instruction can change, and `exec_reg` and `exec_mem` are the frame lemmas
that go with them; `execs_keeps` carries them through a block of instructions.
-/

namespace X86

/-- The general registers. -/
inductive Reg where
  | rax | rbx | rcx | rdx | rsi | rdi | rbp | rsp
  | r8 | r9 | r10 | r11 | r12 | r13 | r14 | r15
  deriving DecidableEq, Repr

/-- The control registers that `MOV` accesses here. -/
inductive ControlReg where
  | cr0 | cr4
  deriving DecidableEq, Repr

/-- What `CPUID` returns in EAX, EBX, ECX and EDX. -/
structure Features where
  eax : BitVec 32
  ebx : BitVec 32
  ecx : BitVec 32
  edx : BitVec 32
  deriving DecidableEq, Repr

/-- A state of the processor and the memory. -/
structure State where
  reg : Reg → BitVec 64
  mem : ByteMemory
  /-- ZF, DF and IF of RFLAGS. -/
  zero : Bool
  direction : Bool
  interrupts : Bool
  control : ControlReg → BitVec 64
  xcr0 : BitVec 64
  /-- The answer of `CPUID` to a leaf and a subleaf. -/
  cpuid : BitVec 32 → BitVec 32 → Features

namespace State

/-- Write a register. -/
def set (s : State) (r : Reg) (v : BitVec 64) : State :=
  { s with reg := Function.update s.reg r v }

/-- Write the low half of a register; the high half becomes zero. -/
def set32 (s : State) (r : Reg) (v : BitVec 32) : State := s.set r (v.setWidth 64)

/-- The low half of a register. -/
def reg32 (s : State) (r : Reg) : BitVec 32 := (s.reg r).setWidth 32

/-- Write the result of an arithmetic instruction, and ZF with it. -/
def alu (s : State) (r : Reg) (v : BitVec 64) : State :=
  { s.set r v with zero := decide (v = 0#64) }

/-- Push a quadword. -/
def push (s : State) (v : BitVec 64) : State :=
  { s.set .rsp (s.reg .rsp - 8#64) with mem := s.mem.write 8 (s.reg .rsp - 8#64) v }

/-- The quadword on top of the stack. -/
def top (s : State) : BitVec 64 := s.mem.read 8 (s.reg .rsp)

/-- Drop the quadword on top of the stack. -/
def drop (s : State) : State := s.set .rsp (s.reg .rsp + 8#64)

section Lemmas

variable (s : State) (r r' : Reg) (v : BitVec 64)

@[simp] theorem set_reg_self : (s.set r v).reg r = v := Function.update_self ..

theorem set_reg_of_ne (other : r' ≠ r) : (s.set r v).reg r' = s.reg r' :=
  Function.update_of_ne other ..

@[simp] theorem set_mem : (s.set r v).mem = s.mem := rfl

@[simp] theorem push_rsp : (s.push v).reg .rsp = s.reg .rsp - 8#64 :=
  s.set_reg_self .rsp _

theorem push_reg (other : r' ≠ .rsp) : (s.push v).reg r' = s.reg r' :=
  Function.update_of_ne other ..

@[simp] theorem push_mem : (s.push v).mem = s.mem.write 8 (s.reg .rsp - 8#64) v := rfl

@[simp] theorem drop_rsp : s.drop.reg .rsp = s.reg .rsp + 8#64 := s.set_reg_self .rsp _

@[simp] theorem drop_mem : s.drop.mem = s.mem := rfl

@[simp] theorem top_push : (s.push v).top = v := by
  rw [top, push_rsp, push_mem]
  exact ByteMemory.read_write_self (n := 8) s.mem _ v (by decide)

theorem top_set_of_ne (other : r ≠ .rsp) : (s.set r v).top = s.top := by
  rw [top, set_reg_of_ne s r .rsp v (Ne.symm other), set_mem, top]

/-- A push leaves the quadword that was on top below the new one. -/
theorem top_drop_push : (s.push v).drop.top = s.top := by
  have apart : ByteMemory.Apart (s.reg .rsp - 8#64) 8 (s.reg .rsp) 8 := ⟨by bv_omega, by bv_omega⟩
  rw [top, drop_rsp, push_rsp, BitVec.sub_add_cancel, drop_mem, push_mem]
  exact ByteMemory.read_write_of_apart s.mem apart v

end Lemmas

end State

/-- An instruction that goes on with the next one. A `32` in the name marks an operation on
the low half of a register. -/
inductive Op where
  | cli
  | cld
  | push (r : Reg)
  | pushImm (v : BitVec 64)
  | pop (r : Reg)
  | mov (r r' : Reg)
  | movImm (r : Reg) (v : BitVec 64)
  | movImm32 (r : Reg) (v : BitVec 32)
  | addImm (r : Reg) (v : BitVec 64)
  | sub (r r' : Reg)
  | shr (r : Reg) (n : ℕ)
  | xor (r r' : Reg)
  | andImm (r : Reg) (v : BitVec 64)
  | orImm (r : Reg) (v : BitVec 64)
  | orImm32 (r : Reg) (v : BitVec 32)
  | testImm32 (r : Reg) (v : BitVec 32)
  | repStosq
  | movFromControl (r : Reg) (c : ControlReg)
  | movToControl (c : ControlReg) (r : Reg)
  | cpuid
  | xgetbv
  | xsetbv
  deriving DecidableEq, Repr

/-- `REP STOSQ`: store RAX at RDI as often as RCX says, and step RDI by a quadword in the
direction DF gives. -/
def repStosq (s : State) : State :=
  let stride := if s.direction then -8#64 else 8#64
  let count := s.reg .rcx
  let s := { s with
    mem := ByteMemory.fillString (s.reg .rax) stride count.toNat (s.reg .rdi) s.mem }
  (s.set .rdi (s.reg .rdi + count * stride)).set .rcx 0#64

/-- The effect of an instruction. -/
def exec (s : State) : Op → State
  | .cli => { s with interrupts := false }
  | .cld => { s with direction := false }
  | .push r => s.push (s.reg r)
  | .pushImm v => s.push v
  | .pop r => s.drop.set r s.top
  | .mov r r' => s.set r (s.reg r')
  | .movImm r v => s.set r v
  | .movImm32 r v => s.set32 r v
  | .addImm r v => s.alu r (s.reg r + v)
  | .sub r r' => s.alu r (s.reg r - s.reg r')
  -- A shift by zero leaves the flags alone.
  | .shr r n => if n = 0 then s else s.alu r (s.reg r >>> n)
  | .xor r r' => s.alu r (s.reg r ^^^ s.reg r')
  | .andImm r v => s.alu r (s.reg r &&& v)
  | .orImm r v => s.alu r (s.reg r ||| v)
  | .orImm32 r v => s.alu r ((s.reg32 r ||| v).setWidth 64)
  | .testImm32 r v => { s with zero := decide (s.reg32 r &&& v = 0#32) }
  | .repStosq => repStosq s
  | .movFromControl r c => s.set r (s.control c)
  | .movToControl c r => { s with control := Function.update s.control c (s.reg r) }
  | .cpuid =>
      let f := s.cpuid (s.reg32 .rax) (s.reg32 .rcx)
      (((s.set32 .rax f.eax).set32 .rbx f.ebx).set32 .rcx f.ecx).set32 .rdx f.edx
  -- Only XCR0 exists here; `XSETBV` ignores another index.
  | .xgetbv =>
      (s.set32 .rax (s.xcr0.setWidth 32)).set32 .rdx ((s.xcr0 >>> 32).setWidth 32)
  | .xsetbv =>
      if s.reg32 .rcx = 0#32 then { s with xcr0 := s.reg32 .rdx ++ s.reg32 .rax } else s

/-- The registers an instruction can change. -/
def Op.writes : Op → List Reg
  | .cli | .cld | .testImm32 .. | .movToControl .. | .xsetbv => []
  | .push _ | .pushImm _ => [.rsp]
  | .pop r => [.rsp, r]
  | .mov r _ | .movImm r _ | .movImm32 r _ | .addImm r _ | .sub r _ | .shr r _ | .xor r _
  | .andImm r _ | .orImm r _ | .orImm32 r _ | .movFromControl r _ => [r]
  | .repStosq => [.rdi, .rcx]
  | .cpuid => [.rax, .rbx, .rcx, .rdx]
  | .xgetbv => [.rax, .rdx]

/-- Whether an instruction can store to memory. -/
def Op.stores : Op → Bool
  | .push _ | .pushImm _ | .repStosq => true
  | _ => false

theorem exec_addImm_reg (s : State) (r : Reg) (v : BitVec 64) :
    (exec s (.addImm r v)).reg r = s.reg r + v := s.set_reg_self r _

/-- An instruction changes no register but those it writes. -/
theorem exec_reg (s : State) (o : Op) {r : Reg} (kept : r ∉ o.writes) :
    (exec s o).reg r = s.reg r := by
  cases o <;> simp only [Op.writes, List.mem_cons, List.not_mem_nil, or_false, not_or] at kept
  case shr r' n =>
    simp only [exec]
    split
    · rfl
    · exact Function.update_of_ne kept ..
  case xsetbv =>
    simp only [exec]
    split <;> rfl
  all_goals
    simp [exec, repStosq, State.push, State.set, State.set32, State.alu, State.drop, kept]

/-- An instruction that does not store leaves the memory. -/
theorem exec_mem (s : State) (o : Op) (quiet : o.stores = false) : (exec s o).mem = s.mem := by
  cases o with
  | push | pushImm | repStosq => cases quiet
  | shr r n =>
      simp only [exec]
      split <;> rfl
  | xsetbv =>
      simp only [exec]
      split <;> rfl
  | _ => rfl

/-! ### Blocks -/

/-- The effect of a block of instructions. -/
def execs (s : State) (os : List Op) : State := os.foldl exec s

@[simp] theorem execs_nil (s : State) : execs s [] = s := rfl

@[simp] theorem execs_cons (s : State) (o : Op) (os : List Op) :
    execs s (o :: os) = execs (exec s o) os := rfl

theorem execs_append (s : State) (os os' : List Op) :
    execs s (os ++ os') = execs (execs s os) os' := List.foldl_append

theorem execs_reg {os : List Op} {r : Reg} (kept : ∀ o ∈ os, r ∉ o.writes) (s : State) :
    (execs s os).reg r = s.reg r := by
  induction os generalizing s with
  | nil => rfl
  | cons o os ih =>
      rw [execs_cons, ih fun o' mem => kept o' (List.mem_cons_of_mem o mem)]
      exact exec_reg s o (kept o List.mem_cons_self)

theorem execs_mem {os : List Op} (quiet : ∀ o ∈ os, o.stores = false) (s : State) :
    (execs s os).mem = s.mem := by
  induction os generalizing s with
  | nil => rfl
  | cons o os ih =>
      rw [execs_cons, ih fun o' mem => quiet o' (List.mem_cons_of_mem o mem)]
      exact exec_mem s o (quiet o List.mem_cons_self)

/-- `t` has the memory of `s` and agrees with it on the registers `rs`. -/
structure Keeps (rs : List Reg) (s t : State) : Prop where
  mem : t.mem = s.mem
  reg : ∀ r ∈ rs, t.reg r = s.reg r

theorem Keeps.refl (rs : List Reg) (s : State) : Keeps rs s s := ⟨rfl, fun _ _ => rfl⟩

theorem Keeps.trans {rs : List Reg} {s t u : State} (first : Keeps rs s t)
    (second : Keeps rs t u) : Keeps rs s u :=
  ⟨second.mem.trans first.mem, fun r mem => (second.reg r mem).trans (first.reg r mem)⟩

/-- A block that neither stores nor writes one of `rs`. -/
def Quiet (rs : List Reg) (os : List Op) : Prop :=
  ∀ o ∈ os, o.stores = false ∧ ∀ r ∈ rs, r ∉ o.writes

instance (rs : List Reg) (os : List Op) : Decidable (Quiet rs os) :=
  inferInstanceAs (Decidable (∀ _ ∈ _, _ ∧ _))

/-- A quiet block keeps the memory and the registers. -/
theorem execs_keeps {rs : List Reg} {os : List Op} (quiet : Quiet rs os) (s : State) :
    Keeps rs s (execs s os) where
  mem := execs_mem (fun o mem => (quiet o mem).1) s
  reg r member := execs_reg (fun o mem => (quiet o mem).2 r member) s

end X86
