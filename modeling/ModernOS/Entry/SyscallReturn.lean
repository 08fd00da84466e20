import ModernOS.Entry.Syscall

/-!
The return from a system call.

`syscall_entry` pops what it pushed, in the other order, with the slot of RAX skipped
so that the result of the handler stays. Whatever a handler that keeps to the calling
convention does, the user gets its registers back (`syscall_preserves`). That RCX and
R11 are among them is what `sysretq` needs: they hold the address and the flags to go
on with.
-/

namespace ModernOS.Entry

open X86

/-- The registers popped before the slot of RAX. -/
def restoredFirst : List Reg :=
  [.r15, .r14, .r13, .r12, .r10, .r9, .r8, .rbp, .rdi, .rsi, .rdx, .rbx]

theorem syscallReturn_eq :
    syscallReturn = restoredFirst.map .pop ++ .addImm .rsp 8#64 :: [Reg.r11, .rcx].map .pop := rfl

/-- The order of the pops is that of the pushes, reversed. -/
theorem savedBySyscall_reverse :
    savedBySyscall.reverse = restoredFirst ++ .rax :: [.r11, .rcx] := rfl

theorem mem_restored {r : Reg} (notRsp : r ≠ .rsp) (notRax : r ≠ .rax) :
    r ∈ restoredFirst ∨ r ∈ [Reg.r11, .rcx] := by
  cases r with
  | rsp => exact absurd rfl notRsp
  | rax => exact absurd rfl notRax
  | _ => decide

section Return

variable (t : State)

/-- The stack pointer skips the slot of RAX. -/
def skipped : State := exec (execs t (restoredFirst.map .pop)) (.addImm .rsp 8#64)

theorem execs_syscallReturn :
    execs t syscallReturn = execs (skipped t) ([Reg.r11, .rcx].map .pop) := by
  rw [syscallReturn_eq, execs_append, execs_cons, skipped]

/-- A register popped before the slot of RAX. -/
theorem reg_restoredFirst {i : ℕ} {r : Reg} (place : restoredFirst[i]? = some r) :
    (execs t syscallReturn).reg r = t.quad i := by
  have mem := List.mem_of_getElem? place
  have notRsp : r ≠ .rsp := by rintro rfl; revert mem; decide
  have apart : ∀ r ∈ restoredFirst, r ∉ [Reg.r11, .rcx] := by decide
  rw [execs_syscallReturn, reg_pops_of_notMem notRsp (apart r mem)]
  rw [skipped, exec_reg _ _ (by simpa [Op.writes] using notRsp)]
  exact reg_pops (by decide) (by decide) t place

/-- A register popped after it. -/
theorem reg_restoredLast {i : ℕ} {r : Reg} (place : [Reg.r11, .rcx][i]? = some r) :
    (execs t syscallReturn).reg r = t.quad (13 + i) := by
  rw [execs_syscallReturn, reg_pops (by decide) (by decide) _ place, skipped, quad_addImm_rsp,
    quad_pops (by decide)]
  exact congrArg t.quad (by simp [restoredFirst]; omega)

/-- The result of the handler stays. -/
theorem rax_syscallReturn : (execs t syscallReturn).reg .rax = t.reg .rax :=
  execs_reg (by decide) t

theorem rsp_syscallReturn : (execs t syscallReturn).reg .rsp = t.reg .rsp + 120#64 := by
  rw [execs_syscallReturn, rsp_pops (by decide), skipped, exec_addImm_reg, rsp_pops (by decide)]
  simp only [restoredFirst, List.length_cons, List.length_nil]
  bv_omega

end Return

/-- What a handler that has returned leaves of the saved registers. -/
theorem quad_returned (image : Image) {s t : State}
    (returned : Returned 15 (syscallHandlerEntry image s) t) {i : ℕ} {r : Reg}
    (place : savedBySyscall.reverse[i]? = some r) : t.quad i = s.reg r := by
  have small : i < 15 := (List.getElem?_eq_some_iff.mp place).1
  rw [returned.stack i small, syscallHandlerEntry, State.quad_push_succ _ _ (by omega)]
  exact quad_pushed rsp_notMem_savedBySyscall (by decide) s place

theorem rsp_returned (image : Image) {s t : State}
    (returned : Returned 15 (syscallHandlerEntry image s) t) :
    t.reg .rsp = s.reg .rsp - 120#64 := by
  rw [returned.rsp, syscallHandlerEntry, State.push_rsp, savedUser,
    rsp_pushed rsp_notMem_savedBySyscall]
  simp only [savedBySyscall, List.length_cons, List.length_nil]
  bv_omega

/-- **A system call preserves the registers of the user.** The stub calls `handle_syscall`, and
when that returns it gets to `sysretq` with the handler's RAX and every other register as it was
at the entry. -/
theorem syscall_preserves (image : Image) (s : State) :
    ∃ rest u, Reaches image.program (image.enter .syscallEntry s)
        ⟨.calling .handleSyscall rest, u⟩ ∧
      ∀ t, Returned 15 u t →
        ∃ w, Reaches image.program ⟨.running rest, t⟩ ⟨.sysretq, w⟩ ∧
          w.reg .rax = t.reg .rax ∧ ∀ r ≠ Reg.rax, w.reg r = s.reg r := by
  refine ⟨_, _, syscall_reaches image s, fun t returned => ⟨execs t syscallReturn, ?_,
    rax_syscallReturn t, fun r notRax => ?_⟩⟩
  · exact (reaches_ops (P := image.program) syscallReturn _ t).trans (Reaches.of_step rfl)
  · by_cases notRsp : r = .rsp
    · subst notRsp
      rw [rsp_syscallReturn, rsp_returned image returned]
      exact BitVec.sub_add_cancel ..
    · cases mem_restored notRsp notRax with
      | inl first =>
          obtain ⟨i, place⟩ := List.mem_iff_getElem?.mp first
          rw [reg_restoredFirst t place]
          refine quad_returned image returned ?_
          have inside := (List.getElem?_eq_some_iff.mp place).1
          rw [savedBySyscall_reverse, List.getElem?_append_left inside]
          exact place
      | inr last =>
          obtain ⟨i, place⟩ := List.mem_iff_getElem?.mp last
          rw [reg_restoredLast t place]
          refine quad_returned image returned ?_
          rw [savedBySyscall_reverse, List.append_cons,
            List.getElem?_append_right (by simp [restoredFirst])]
          simpa [restoredFirst] using place

/-- A handler that does nothing gives `userState` its registers back. -/
theorem syscall_preserves_userState :
    ∃ rest u, Reaches lowImage.program (lowImage.enter .syscallEntry userState)
        ⟨.calling .handleSyscall rest, u⟩ ∧
      ∃ w, Reaches lowImage.program ⟨.running rest, u.drop⟩ ⟨.sysretq, w⟩ ∧
        w.reg .rax = u.drop.reg .rax ∧ ∀ r ≠ Reg.rax, w.reg r = userState.reg r := by
  obtain ⟨rest, u, calls, returns⟩ := syscall_preserves lowImage userState
  exact ⟨rest, u, calls, returns u.drop (Returned.drop 15 u)⟩

end ModernOS.Entry
