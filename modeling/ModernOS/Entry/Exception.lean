import ModernOS.Lib.X86.Interrupt
import ModernOS.Entry.Model

/-!
The exception stubs: what they build on the stack, and where they go back to.

A stub pushes its vector, saves the fifteen registers and hands the stack pointer to
`handle_exception` (`exception_calls`). When the handler returns, the stub pops what
it pushed and nothing else (`exception_returns`), so `iretq` finds the stack as the
processor left it. For a vector with an error code that is one quadword too many:
the second macro has the text of the first.
-/

namespace ModernOS.Entry

open X86

/-- `has_error_code` of an interrupt frame, which reads its vector. -/
def hasErrorCode (vector : BitVec 8) : Bool :=
  vector == 8#8 || vector == 10#8 || vector == 11#8 || vector == 12#8 || vector == 13#8 ||
    vector == 14#8 || vector == 17#8

/-- The error code that the processor pushes for a vector. -/
def errorOf (v : ℕ) (error : BitVec 32) : Option (BitVec 32) :=
  if hasErrorCode (BitVec.ofNat 8 v) then some error else none

/-- The state in which the processor enters the stub of a vector. -/
def delivered (c : Context) (v : ℕ) (error : BitVec 32) (stack : BitVec 64) (s : State) : State :=
  interrupt c (errorOf v error) stack s

/-! ### The stack of a stub -/

/-- A stub entered in state `s` has saved everything. -/
def saved (v : ℕ) (s : State) : State :=
  execs (s.push (BitVec.ofNat 64 v)) (savedByException.map .push)

theorem saved_length : savedByException.length = 15 := rfl

theorem rsp_notMem_saved : Reg.rsp ∉ savedByException := by decide

theorem mem_saved {r : Reg} (other : r ≠ .rsp) : r ∈ savedByException := by
  cases r with
  | rsp => exact absurd rfl other
  | _ => decide

section Saved

variable (v : ℕ) (s : State)

theorem saved_eq_pushes :
    saved v s = (s.push (BitVec.ofNat 64 v)).pushes
      (savedByException.map (s.push (BitVec.ofNat 64 v)).reg) :=
  execs_pushes rsp_notMem_saved _

/-- The registers are on top, the last one saved first. -/
theorem quad_saved_reg {i : ℕ} {r : Reg} (place : savedByException.reverse[i]? = some r) :
    (saved v s).quad i = s.reg r := by
  have other : r ≠ .rsp := by
    rintro rfl
    exact rsp_notMem_saved (List.mem_reverse.mp (List.mem_of_getElem? place))
  rw [saved, quad_pushed rsp_notMem_saved (by decide) _ place, State.push_reg _ _ _ other]

theorem quad_saved_add {i : ℕ} (small : i < 2 ^ 32) :
    (saved v s).quad (15 + i) = (s.push (BitVec.ofNat 64 v)).quad i := by
  rw [saved_eq_pushes]
  refine State.quad_pushes_add _ (savedByException.map _) ?_
  rw [List.length_map, saved_length]
  omega

/-- Below them is the vector. -/
theorem quad_saved_vector : (saved v s).quad 15 = BitVec.ofNat 64 v := by
  rw [quad_saved_add v s (i := 0) (by decide), State.quad_zero, State.top_push]

/-- Below the vector is the stack on which the stub was entered. -/
theorem quad_saved_below {i : ℕ} (small : i < 2 ^ 31) : (saved v s).quad (16 + i) = s.quad i := by
  rw [show 16 + i = 15 + (i + 1) by omega, quad_saved_add v s (by omega),
    State.quad_push_succ _ _ (by omega)]

end Saved

/-! ### The call -/

/-- The instructions after the call. -/
def afterHandler (image : Image) : List (Instr Label External) :=
  (instrsAt .commonExceptionHandler (entry64 image.symbols)).drop 17

/-- The state in which `handle_exception` is entered. -/
def handlerEntry (image : Image) (v : ℕ) (s : State) : State :=
  (exec (saved v s) (.mov .rdi .rsp)).push (image.address (afterHandler image).length)

/-- The instructions at a stub, among stubs. -/
theorem instrsAt_exceptionHandler {v : ℕ} {vs : List ℕ} (stub : v ∈ vs) (after : Listing) :
    ∃ tail, instrsAt (.exceptionHandler v) (vs.flatMap exceptionHandler ++ after)
      = .op (.pushImm (BitVec.ofNat 64 v)) :: .jmp .commonExceptionHandler :: tail := by
  induction vs with
  | nil => cases stub
  | cons v' vs ih =>
      show ∃ tail, (if Label.exceptionHandler v' = .exceptionHandler v then _ else _) = _
      by_cases same : v' = v
      · rw [same, if_pos rfl]
        exact ⟨_, rfl⟩
      · rw [if_neg fun labels => same (Label.exceptionHandler.inj labels)]
        exact ih ((List.mem_cons.mp stub).resolve_left (Ne.symm same))

/-- Every stub calls the handler, with the stack pointer as the parameter. -/
theorem exception_calls (image : Image) {v : ℕ} (stub : v ∈ exceptionVectors) (s : State) :
    Reaches image.program (image.enter (.exceptionHandler v) s)
      ⟨.calling .handleException (afterHandler image), handlerEntry image v s⟩ := by
  obtain ⟨tail, at_stub⟩ :=
    instrsAt_exceptionHandler stub (commonExceptionHandler ++ (syscallEntry ++ []))
  have enters : Reaches image.program (image.enter (.exceptionHandler v) s)
      ⟨.running (instrsAt .commonExceptionHandler (entry64 image.symbols)),
        s.push (BitVec.ofNat 64 v)⟩ := by
    have first : image.enter (.exceptionHandler v) s
        = ⟨.running (.op (.pushImm (BitVec.ofNat 64 v)) :: .jmp .commonExceptionHandler :: tail),
          s⟩ :=
      congrArg (fun code => (⟨.running code, s⟩ : Config Label External)) at_stub
    rw [first]
    exact (Reaches.of_step rfl).trans (Reaches.of_step rfl)
  have saves := reaches_ops (P := image.program) (savedByException.map .push ++ [Op.mov .rdi .rsp])
    (.callExternal .handleException :: afterHandler image) (s.push (BitVec.ofNat 64 v))
  exact (enters.trans saves).trans (Reaches.of_step rfl)

theorem handlerEntry_rdi (image : Image) (v : ℕ) (s : State) :
    (handlerEntry image v s).reg .rdi = (saved v s).reg .rsp := by
  rw [handlerEntry, State.push_reg _ _ _ (by decide)]
  exact State.set_reg_self ..

theorem handlerEntry_rsp (image : Image) (v : ℕ) (s : State) :
    (handlerEntry image v s).reg .rsp = (saved v s).reg .rsp - 8#64 := by
  rw [handlerEntry, State.push_rsp]
  exact congrArg (· - 8#64) (State.set_reg_of_ne _ .rdi .rsp _ (by decide))

/-- The handler finds what the stub saved, above its return address. -/
theorem quad_handlerEntry (image : Image) (v : ℕ) (s : State) {i : ℕ} (small : i < 2 ^ 32) :
    (handlerEntry image v s).quad (i + 1) = (saved v s).quad i := by
  rw [handlerEntry, State.quad_push_succ _ _ (by omega)]
  exact State.quad_set _ .rdi _ (by decide) i

/-! ### The return -/

/-- The quadwords of a stub's frame: the registers, the vector, and what the processor pushed. -/
def frameSize (c : Context) (v : ℕ) (error : BitVec 32) : ℕ :=
  16 + (c.pushed (errorOf v error)).length

theorem frameSize_ge (c : Context) (v : ℕ) (error : BitVec 32) : 21 ≤ frameSize c v error := by
  unfold frameSize
  cases errorOf v error <;> simp [Context.pushed]

/-- The part of the stub after the call. -/
def restore : List Op := savedByException.reverse.map .pop ++ [.addImm .rsp 8#64]

/-- When the handler returns, the stub gets to `iretq`. What it pushed is gone from the stack,
and the registers are as they were at its entry. -/
theorem exception_returns (image : Image) (v : ℕ) (s : State) {n : ℕ} (frame : 21 ≤ n) {t : State}
    (returned : Returned n (handlerEntry image v s) t) :
    Reaches image.program ⟨.running (afterHandler image), t⟩ ⟨.iretq, execs t restore⟩ ∧
      (∀ r ≠ Reg.rsp, (execs t restore).reg r = s.reg r) ∧
      ∀ i < 5, (execs t restore).quad i = s.quad i := by
  have kept : ∀ i < n, i < 2 ^ 32 → t.quad i = (saved v s).quad i := by
    intro i inside small
    rw [returned.stack i inside, quad_handlerEntry image v s small]
  let popped := execs t (savedByException.reverse.map .pop)
  have end_eq : execs t restore = exec popped (.addImm .rsp 8#64) := List.foldl_append
  refine ⟨?_, fun r other => ?_, fun i small => ?_⟩
  · exact (reaches_ops (P := image.program) restore _ t).trans (Reaches.of_step rfl)
  · rw [end_eq, exec_reg popped _ (by simpa [Op.writes] using other)]
    calc popped.reg r = (s.push (BitVec.ofNat 64 v)).reg r := by
          refine reg_restored (by decide) rsp_notMem_saved (by decide) (fun i small => ?_)
            (mem_saved other)
          rw [saved_length] at small
          exact kept i (by omega) (by omega)
      _ = s.reg r := s.push_reg r _ other
  · rw [end_eq]
    calc (exec popped (.addImm .rsp 8#64)).quad i = popped.quad (i + 1) := quad_addImm_rsp popped i
      _ = t.quad (15 + (i + 1)) := by
          rw [quad_pops (by decide) t, List.length_reverse, saved_length]
      _ = (saved v s).quad (15 + (i + 1)) := kept _ (by omega) (by omega)
      _ = s.quad i := by
          rw [show 15 + (i + 1) = 16 + i by omega, quad_saved_below v s (by omega)]

/-- So `iretq` goes on as if the stub had not run. -/
theorem iretq_restore (image : Image) {v : ℕ} {c : Context} {error : BitVec 32}
    {stack : BitVec 64} {s t : State}
    (returned : Returned (frameSize c v error)
      (handlerEntry image v (delivered c v error stack s)) t) :
    iretq (execs t restore) = iretq (delivered c v error stack s) := by
  obtain ⟨-, regs, quads⟩ := exception_returns image v _ (frameSize_ge c v error) returned
  exact iretq_congr regs quads

/-- `iretq` at the entry of a stub. -/
theorem iretq_delivered_iff (c : Context) (v : ℕ) (error : BitVec 32) (stack : BitVec 64)
    (s : State) :
    iretq (delivered c v error stack s) = c ↔
      hasErrorCode (BitVec.ofNat 8 v) = false ∨ c.Repeats error := by
  unfold delivered errorOf
  cases coded : hasErrorCode (BitVec.ofNat 8 v) with
  | false => simp [iretq_interrupt]
  | true => simp [iretq_interrupt_error_iff]

/-- **An exception stub goes back to the interrupted program**, with its registers, exactly when
the vector has no error code or the frame repeats itself. -/
theorem exception_resumes_iff (image : Image) {v : ℕ} (stub : v ∈ exceptionVectors) (c : Context)
    (error : BitVec 32) (stack : BitVec 64) (s : State) :
    ∃ rest u, Reaches image.program
        (image.enter (.exceptionHandler v) (delivered c v error stack s))
        ⟨.calling .handleException rest, u⟩ ∧
      ∀ t, Returned (frameSize c v error) u t →
        ∃ w, Reaches image.program ⟨.running rest, t⟩ ⟨.iretq, w⟩ ∧
          (iretq w = c ↔ hasErrorCode (BitVec.ofNat 8 v) = false ∨ c.Repeats error) := by
  refine ⟨_, _, exception_calls image stub _, fun t returned => ⟨execs t restore, ?_, ?_⟩⟩
  · exact (exception_returns image v _ (frameSize_ge c v error) returned).1
  · rw [iretq_restore image returned]
    exact iretq_delivered_iff c v error stack s

/-- A program of the user that writes to a page that is not there. -/
def faulting : Context where
  rip := 0x401000#64
  cs := 0x1B#16
  rflags := 0x202#64
  ss := 0x23#16
  reg r := if r = .rsp then 0x7FFF0000#64 else 0#64

/-- The processor before a fault. -/
def kernelState : State := stateOf fun _ => 0#64

/-- The page fault goes back to address 6, the error code. -/
theorem exception_resumes_pageFault :
    ∃ rest u, Reaches lowImage.program
        (lowImage.enter (.exceptionHandler 14) (delivered faulting 14 6#32 0x80000#64 kernelState))
        ⟨.calling .handleException rest, u⟩ ∧
      ∃ w, Reaches lowImage.program ⟨.running rest, u.drop⟩ ⟨.iretq, w⟩ ∧ iretq w ≠ faulting := by
  obtain ⟨rest, u, calls, returns⟩ := exception_resumes_iff lowImage (v := 14) (by decide) faulting
    6#32 0x80000#64 kernelState
  obtain ⟨w, ends, resumes_iff⟩ := returns u.drop (Returned.drop _ u)
  refine ⟨rest, u, calls, w, ends, fun resumes => ?_⟩
  cases resumes_iff.mp resumes with
  | inl uncoded => exact absurd uncoded (by decide)
  | inr repeats => exact absurd repeats.rip (by decide)

theorem exception_misresumes :
    ¬ ∀ (image : Image) (v : ℕ) (c : Context) (error : BitVec 32) (stack : BitVec 64)
      (s t u w : State) (rest : List (Instr Label External)), v ∈ exceptionVectors →
      Reaches image.program (image.enter (.exceptionHandler v) (delivered c v error stack s))
        ⟨.calling .handleException rest, u⟩ →
      Returned (frameSize c v error) u t →
      Reaches image.program ⟨.running rest, t⟩ ⟨.iretq, w⟩ → iretq w = c := by
  intro resumes
  let entry := handlerEntry lowImage 14 (delivered faulting 14 6#32 0x80000#64 kernelState)
  have returned : Returned (frameSize faulting 14 6#32) entry entry.drop := Returned.drop _ entry
  have same := resumes lowImage 14 faulting 6#32 0x80000#64 kernelState _ _ _ _ (by decide)
    (exception_calls lowImage (by decide) _) returned
    (exception_returns lowImage 14 _ (frameSize_ge ..) returned).1
  rw [iretq_restore lowImage returned, iretq_delivered_iff] at same
  cases same with
  | inl uncoded => exact absurd uncoded (by decide)
  | inr repeats => exact absurd repeats.rip (by decide)

end ModernOS.Entry
