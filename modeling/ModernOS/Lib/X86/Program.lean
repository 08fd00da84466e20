import ModernOS.Lib.X86.Machine
import Mathlib.Data.List.Infix
import Mathlib.Logic.Function.Iterate

/-!
Assembly programs for the machine of `ModernOS.Lib.X86.Machine`.

A program is a listing with labels. A control point is the list of instructions
from it to the end of the listing, so a label is looked up once, when it is jumped
to. Code is not stored in the data memory. Each control point has an address of its
own (`Program.distinct`), which `call` pushes and `ret` looks up again.

`step` runs one instruction. It stops at the entry of an external function, with
the return address pushed; `Calls` says that a program gets there, and by
`Reaches.unique` it gets there in one state only. `reaches_ops` runs a block,
`reaches_jz_over` a conditional jump over one, and `Reaches.ret` leaves a function
of the listing.
-/

namespace X86

/-- An instruction of a listing with labels `L` that calls external functions `X`. -/
inductive Instr (L X : Type) where
  | op (o : Op)
  | jmp (l : L)
  | jz (l : L)
  | call (l : L)
  | callExternal (x : X)
  | ret
  | hlt
  | iretq
  | sysretq
  deriving DecidableEq, Repr

/-- A line of a listing. -/
inductive Line (L X : Type) where
  | label (l : L)
  | instr (i : Instr L X)
  deriving DecidableEq, Repr

variable {L X : Type}

/-- The instructions of a listing. -/
def instrs : List (Line L X) → List (Instr L X)
  | [] => []
  | .label _ :: rest => instrs rest
  | .instr i :: rest => i :: instrs rest

/-- The instructions from a label on. -/
def instrsAt [DecidableEq L] (l : L) : List (Line L X) → List (Instr L X)
  | [] => []
  | .label l' :: rest => if l' = l then instrs rest else instrsAt l rest
  | .instr _ :: rest => instrsAt l rest

/-- The instructions from a label on are the end of the listing. -/
theorem instrsAt_suffix [DecidableEq L] (l : L) (lines : List (Line L X)) :
    instrsAt l lines <:+ instrs lines := by
  induction lines with
  | nil => exact List.suffix_rfl
  | cons line rest ih =>
      cases line with
      | label l' =>
          rw [instrsAt, instrs]
          split
          · exact List.suffix_rfl
          · exact ih
      | instr i => exact ih.trans (List.suffix_cons i _)

/-- A listing and the addresses of its control points. -/
structure Program (L X : Type) where
  lines : List (Line L X)
  /-- The address of the control point that is `n` instructions from the end. -/
  address : ℕ → BitVec 64
  distinct : ∀ m n, m ≤ (instrs lines).length → n ≤ (instrs lines).length →
    address m = address n → m = n

/-- Where a run is: at a control point, or at an event that ends it. -/
inductive Status (L X : Type) where
  | running (rest : List (Instr L X))
  /-- An external function has been called, and will return to `rest`. -/
  | calling (x : X) (rest : List (Instr L X))
  /-- `RET` to an address outside the listing. -/
  | returned (address : BitVec 64)
  | halted
  | iretq
  | sysretq
  /-- The end of the listing, or a jump to a label that it lacks. -/
  | ranOff
  deriving DecidableEq, Repr

/-- A state of a run. -/
structure Config (L X : Type) where
  status : Status L X
  state : State

/-- The control point with address `a`. -/
def Program.resolve (P : Program L X) (a : BitVec 64) : Option (List (Instr L X)) :=
  (instrs P.lines).tails.find? fun rest => P.address rest.length = a

/-- The address of a control point leads back to it. -/
theorem resolve_address {P : Program L X} {rest : List (Instr L X)}
    (suffix : rest <:+ instrs P.lines) : P.resolve (P.address rest.length) = some rest := by
  unfold Program.resolve
  cases found : (instrs P.lines).tails.find? _ with
  | none =>
      have absent := List.find?_eq_none.mp found rest ((List.mem_tails ..).mpr suffix)
      simp at absent
  | some other =>
      have mem := (List.mem_tails ..).mp (List.mem_of_find?_eq_some found)
      have same := List.find?_some found
      rw [decide_eq_true_eq] at same
      have lengths := P.distinct _ _ mem.length_le suffix.length_le same
      exact congrArg some ((List.suffix_of_suffix_length_le mem suffix lengths.le).eq_of_length
        lengths)

variable [DecidableEq L] (P : Program L X)

/-- Run the instruction `i`, with `rest` after it. -/
def stepInstr (s : State) (rest : List (Instr L X)) : Instr L X → Config L X
  | .op o => ⟨.running rest, exec s o⟩
  | .jmp l => ⟨.running (instrsAt l P.lines), s⟩
  | .jz l => ⟨.running (if s.zero then instrsAt l P.lines else rest), s⟩
  | .call l => ⟨.running (instrsAt l P.lines), s.push (P.address rest.length)⟩
  | .callExternal x => ⟨.calling x rest, s.push (P.address rest.length)⟩
  | .ret =>
      match P.resolve s.top with
      | some target => ⟨.running target, s.drop⟩
      | none => ⟨.returned s.top, s.drop⟩
  | .hlt => ⟨.halted, s⟩
  | .iretq => ⟨.iretq, s⟩
  | .sysretq => ⟨.sysretq, s⟩

/-- One step of a run; a run that has ended stays where it is. -/
def step (c : Config L X) : Config L X :=
  match c.status with
  | .running (i :: rest) => stepInstr P c.state rest i
  | .running [] => ⟨.ranOff, c.state⟩
  | _ => c

@[simp] theorem step_running (i : Instr L X) (rest : List (Instr L X)) (s : State) :
    step P ⟨.running (i :: rest), s⟩ = stepInstr P s rest i := rfl

/-- A run from `c` gets to `d`. -/
def Reaches (c d : Config L X) : Prop := ∃ n, (step P)^[n] c = d

/-- A run from `c` calls the external function `x`, in state `s`. -/
def Calls (c : Config L X) (x : X) (s : State) : Prop := ∃ rest, Reaches P c ⟨.calling x rest, s⟩

/-- Integer parameter number `n` of a function that has just been entered, by the System V
AMD64 calling convention: six registers, then the stack above the return address. -/
def argument (s : State) : ℕ → BitVec 64
  | 0 => s.reg .rdi
  | 1 => s.reg .rsi
  | 2 => s.reg .rdx
  | 3 => s.reg .rcx
  | 4 => s.reg .r8
  | 5 => s.reg .r9
  | n + 6 => s.mem.read 8 (s.reg .rsp + 8#64 * BitVec.ofNat 64 (n + 1))

/-- The first `n` parameters. -/
def arguments (s : State) (n : ℕ) : List (BitVec 64) := (List.range n).map (argument s)

variable {P}

theorem Reaches.refl (c : Config L X) : Reaches P c c := ⟨0, rfl⟩

theorem Reaches.trans {c d e : Config L X} (first : Reaches P c d) (second : Reaches P d e) :
    Reaches P c e := by
  obtain ⟨m, rfl⟩ := first
  obtain ⟨n, rfl⟩ := second
  exact ⟨n + m, Function.iterate_add_apply ..⟩

theorem Reaches.of_step {c d : Config L X} (steps : step P c = d) : Reaches P c d := ⟨1, steps⟩

/-- A run stops in one place only. -/
theorem Reaches.unique {c d e : Config L X} (first : Reaches P c d) (second : Reaches P c e)
    (stops : step P d = d) (stops' : step P e = e) : d = e := by
  obtain ⟨m, rfl⟩ := first
  obtain ⟨n, rfl⟩ := second
  calc (step P)^[m] c = (step P)^[n] ((step P)^[m] c) := (Function.iterate_fixed stops n).symm
    _ = (step P)^[m] ((step P)^[n] c) := by
        rw [← Function.iterate_add_apply, Nat.add_comm, Function.iterate_add_apply]
    _ = (step P)^[n] c := Function.iterate_fixed stops' m

/-- A run makes one call: what it calls and the state it does it in are determined. -/
theorem Calls.unique {c : Config L X} {x x' : X} {s s' : State} (first : Calls P c x s)
    (second : Calls P c x' s') : x = x' ∧ s = s' := by
  obtain ⟨rest, first⟩ := first
  obtain ⟨rest', second⟩ := second
  have same := first.unique second rfl rfl
  simp only [Config.mk.injEq, Status.calling.injEq] at same
  exact ⟨same.1.1, same.2⟩

/-- The first stack parameter is what was on top of the stack before the call. -/
theorem argument_six_push (s : State) (v : BitVec 64) : argument (s.push v) 6 = s.top := by
  rw [← State.top_drop_push s v]
  rfl

/-- A block of instructions runs through. -/
theorem reaches_ops (os : List Op) (rest : List (Instr L X)) (s : State) :
    Reaches P ⟨.running (os.map .op ++ rest), s⟩ ⟨.running rest, execs s os⟩ := by
  induction os generalizing s with
  | nil => exact Reaches.refl _
  | cons o os ih => exact (Reaches.of_step rfl).trans (ih (exec s o))

/-- A conditional jump over a quiet block: whether it is taken or not, the run gets to the
label behind the block, with the memory and the registers kept. -/
theorem reaches_jz_over (rs : List Reg) (os : List Op) (quiet : Quiet rs os) (l : L) (s : State) :
    ∃ t, Reaches P ⟨.running (.jz l :: (os.map .op ++ instrsAt l P.lines)), s⟩
        ⟨.running (instrsAt l P.lines), t⟩ ∧ Keeps rs s t := by
  cases zero : s.zero with
  | true =>
      refine ⟨s, Reaches.of_step ?_, Keeps.refl rs s⟩
      rw [step_running, stepInstr, zero, if_pos rfl]
  | false =>
      refine ⟨execs s os, Reaches.trans (Reaches.of_step ?_) (reaches_ops os _ s),
        execs_keeps quiet s⟩
      rw [step_running, stepInstr, zero, if_neg Bool.false_ne_true]

/-- `RET` with the address of a control point on top of the stack. -/
theorem Reaches.ret {rest tail : List (Instr L X)} (suffix : rest <:+ instrs P.lines) {s : State}
    (top : s.top = P.address rest.length) :
    Reaches P ⟨.running (.ret :: tail), s⟩ ⟨.running rest, s.drop⟩ := by
  refine Reaches.of_step ?_
  rw [step_running, stepInstr, top, resolve_address suffix]

end X86
