import ModernOS.Lib.X86.Stack

/-!
Interrupts in 64-bit mode.

The processor switches to a stack and pushes SS, RSP, RFLAGS, CS and RIP, then the
error code of a vector that has one (`interrupt`); `IRETQ` takes five quadwords and
nothing else (`iretq`). Both are said of values alone: reserved bits of RFLAGS and
the checks of selectors are left out. Without an error code the one undoes the other
(`iretq_interrupt`); with one still on the stack `IRETQ` is one quadword off, and
`iretq_interrupt_error_iff` says when that does not show.
-/

namespace X86

/-- What a program that is interrupted has to find again. -/
@[ext] structure Context where
  rip : BitVec 64
  cs : BitVec 16
  rflags : BitVec 64
  ss : BitVec 16
  reg : Reg → BitVec 64

/-- What the processor pushes, the first quadword first. -/
def Context.pushed (c : Context) (error : Option (BitVec 32)) : List (BitVec 64) :=
  [c.ss.setWidth 64, c.reg .rsp, c.rflags, c.cs.setWidth 64, c.rip]
    ++ (error.map (BitVec.setWidth 64)).toList

/-- The state at the entry of an interrupt handler, on the stack at `stack`. Memory and the
other parts of the processor come from `s`. -/
def interrupt (c : Context) (error : Option (BitVec 32)) (stack : BitVec 64) (s : State) : State :=
  { s with reg := Function.update c.reg .rsp stack }.pushes (c.pushed error)

/-- The context that `IRETQ` goes on with. -/
def iretq (s : State) : Context where
  rip := s.quad 0
  cs := (s.quad 1).setWidth 16
  rflags := s.quad 2
  ss := (s.quad 4).setWidth 16
  reg := Function.update s.reg .rsp (s.quad 3)

@[simp] theorem iretq_rsp (s : State) : (iretq s).reg .rsp = s.quad 3 :=
  s.set_reg_self .rsp (s.quad 3)

theorem iretq_reg (s : State) {r : Reg} (other : r ≠ .rsp) : (iretq s).reg r = s.reg r :=
  s.set_reg_of_ne .rsp r _ other

/-- `IRETQ` reads five quadwords and the general registers. -/
theorem iretq_congr {s t : State} (regs : ∀ r ≠ Reg.rsp, s.reg r = t.reg r)
    (stack : ∀ i < 5, s.quad i = t.quad i) : iretq s = iretq t := by
  have general : (iretq s).reg = (iretq t).reg := by
    funext r
    by_cases top : r = .rsp
    · rw [top, iretq_rsp, iretq_rsp, stack 3 (by decide)]
    · rw [iretq_reg s top, iretq_reg t top, regs r top]
  refine Context.ext (stack 0 (by decide)) ?_ (stack 2 (by decide)) ?_ general
  · exact congrArg (BitVec.setWidth 16) (stack 1 (by decide))
  · exact congrArg (BitVec.setWidth 16) (stack 4 (by decide))

section Delivery

variable (c : Context) (stack : BitVec 64) (s : State)

theorem interrupt_reg (error : Option (BitVec 32)) {r : Reg} (other : r ≠ .rsp) :
    (interrupt c error stack s).reg r = c.reg r := by
  rw [interrupt, State.pushes_reg _ r _ other]
  exact Function.update_of_ne other ..

/-- The stack at the entry of a handler, the last quadword on top. -/
theorem quad_interrupt {error : Option (BitVec 32)} {i : ℕ} {v : BitVec 64}
    (place : (c.pushed error).reverse[i]? = some v) : (interrupt c error stack s).quad i = v := by
  refine State.quad_pushes _ _ _ ?_ place
  cases error <;> simp [Context.pushed]

/-- The stack below what the processor pushed. -/
theorem quad_interrupt_add (error : Option (BitVec 32)) {i : ℕ} (small : i < 2 ^ 32) :
    (interrupt c error stack s).quad ((c.pushed error).length + i)
      = s.mem.read 8 (stack + 8#64 * BitVec.ofNat 64 i) := by
  have short : (c.pushed error).length ≤ 6 := by cases error <;> simp [Context.pushed]
  rw [interrupt, State.quad_pushes_add _ _ (by omega)]
  show s.mem.read 8 (Function.update c.reg .rsp stack .rsp + _) = _
  rw [Function.update_self]

/-- `IRETQ` brings back a context whose general registers are loaded. -/
theorem iretq_eq_iff (t : State) (regs : ∀ r ≠ Reg.rsp, t.reg r = c.reg r) :
    iretq t = c ↔ t.quad 0 = c.rip ∧ (t.quad 1).setWidth 16 = c.cs ∧ t.quad 2 = c.rflags ∧
      t.quad 3 = c.reg .rsp ∧ (t.quad 4).setWidth 16 = c.ss := by
  constructor
  · rintro rfl
    exact ⟨rfl, rfl, rfl, (iretq_rsp t).symm, rfl⟩
  · rintro ⟨rip, cs, rflags, rsp, ss⟩
    refine Context.ext rip cs rflags ss ?_
    funext r
    by_cases top : r = .rsp
    · rw [top, iretq_rsp, rsp]
    · rw [iretq_reg t top, regs r top]

/-- `IRETQ` undoes the delivery of an interrupt without an error code. -/
theorem iretq_interrupt : iretq (interrupt c none stack s) = c := by
  rw [iretq_eq_iff c _ fun r other => interrupt_reg c stack s none other,
    quad_interrupt c stack s (i := 0) rfl, quad_interrupt c stack s (i := 1) rfl,
    quad_interrupt c stack s (i := 2) rfl, quad_interrupt c stack s (i := 3) rfl,
    quad_interrupt c stack s (i := 4) rfl]
  simp

/-- Each quadword of the frame has, by chance, the value of the one above it. -/
structure Context.Repeats (c : Context) (error : BitVec 32) : Prop where
  rip : error.setWidth 64 = c.rip
  cs : c.rip.setWidth 16 = c.cs
  rflags : c.cs.setWidth 64 = c.rflags
  rsp : c.rflags = c.reg .rsp
  ss : (c.reg .rsp).setWidth 16 = c.ss

/-- `IRETQ` with the error code still on the stack. -/
theorem iretq_interrupt_error_iff (error : BitVec 32) :
    iretq (interrupt c (some error) stack s) = c ↔ c.Repeats error := by
  rw [iretq_eq_iff c _ fun r other => interrupt_reg c stack s (some error) other,
    quad_interrupt c stack s (i := 0) rfl, quad_interrupt c stack s (i := 1) rfl,
    quad_interrupt c stack s (i := 2) rfl, quad_interrupt c stack s (i := 3) rfl,
    quad_interrupt c stack s (i := 4) rfl]
  exact ⟨fun ⟨rip, cs, rflags, rsp, ss⟩ => ⟨rip, cs, rflags, rsp, ss⟩,
    fun ⟨rip, cs, rflags, rsp, ss⟩ => ⟨rip, cs, rflags, rsp, ss⟩⟩

end Delivery

end X86
