import ModernOS.Lib.X86.Stores
import ModernOS.Entry.Syscall

/-!
What `syscall_entry` stores to.

`SYSCALL` leaves RSP as the user had it, and the stub does not load another value before it
pushes. Its own stores are the 128 bytes below that RSP, wherever it points
(`syscallStores_eq`); they lie in the kernel's stack only when the user's RSP does.
`_start`, on the other hand, loads `__stack_top` first.
-/

namespace ModernOS.Entry

open X86

/-- `stack_bottom`: the kernel's stack has 1MB. -/
def Image.stackBottom (image : Image) : BitVec 64 := image.symbols.stackTop - 0x100000#64

/-- What the stub stores to: up to the call, and after `handle_syscall` has come back in any
state. -/
def syscallStores (image : Image) (s : State) : Set (BitVec 64) :=
  storedBy image.program (image.enter .syscallEntry s) ∪
    {b | ∃ rest u t, Reaches image.program (image.enter .syscallEntry s)
      ⟨.calling .handleSyscall rest, u⟩ ∧ b ∈ storedBy image.program ⟨.running rest, t⟩}

/-- The pushes and the return address. -/
theorem storedBy_syscallEntry (image : Image) (s : State) :
    storedBy image.program (image.enter .syscallEntry s) = bytesBelow (s.reg .rsp) 128 := by
  have enter : image.enter .syscallEntry s = ⟨.running ((savedBySyscall.map .push).map .op ++
      .callExternal .handleSyscall :: afterSyscall image), s⟩ := rfl
  have rsp : (savedUser s).reg .rsp = s.reg .rsp - 120#64 :=
    rsp_pushed rsp_notMem_savedBySyscall s
  have call : storedBy image.program
      ⟨.running (.callExternal .handleSyscall :: afterSyscall image), savedUser s⟩ =
        bytesBelow (s.reg .rsp - 120#64) 8 := by
    rw [storedBy_step, storedBy_stopped rfl rfl, bytesBelow_add (n := 0) _ (by decide),
      bytesBelow_zero, ← rsp]
    rfl
  rw [enter, storedBy_ops, opsStores_pushes _ (by decide), ← savedUser, call]
  ext b
  simp only [Set.mem_union, mem_bytesBelow, savedBySyscall, List.length_cons, List.length_nil]
  bv_omega

/-- After the call there are only pops. -/
theorem storedBy_afterSyscall (image : Image) (t : State) :
    storedBy image.program ⟨.running (afterSyscall image), t⟩ = ∅ := by
  have code : afterSyscall image = syscallReturn.map .op ++ [Instr.sysretq] := rfl
  rw [code, storedBy_ops, opsStores_quiet (by decide), storedBy_step,
    storedBy_stopped rfl rfl]
  exact (Set.empty_union _).trans (Set.empty_union _)

/-- All its stores go through the RSP of the user. -/
theorem syscallStores_eq (image : Image) (s : State) :
    syscallStores image s = bytesBelow (s.reg .rsp) 128 := by
  rw [syscallStores, storedBy_syscallEntry]
  refine Set.union_eq_left.mpr ?_
  rintro b ⟨rest, u, t, calls, stores⟩
  have same := (syscall_reaches image s).unique calls rfl rfl
  simp only [Config.mk.injEq, Status.calling.injEq] at same
  rw [← same.1.2, storedBy_afterSyscall] at stores
  exact absurd stores (Set.notMem_empty b)

/-- The rest of the memory is as it was when `handle_syscall` is entered. -/
theorem syscallHandlerEntry_mem (image : Image) (s : State) {b : BitVec 64}
    (apart : b ∉ bytesBelow (s.reg .rsp) 128) :
    (syscallHandlerEntry image s).mem b = s.mem b := by
  obtain ⟨n, reached⟩ := syscall_reaches image s
  have kept := iterate_mem (storedBy_syscallEntry image s ▸ apart) n
  rwa [reached] at kept

/-- **The stub stores only to the kernel's stack** exactly when the user's RSP points there, with
128 bytes left below it. -/
theorem syscallStores_within_iff (image : Image) (s : State) :
    (∀ b ∈ syscallStores image s, image.stackBottom ≤ b ∧ b < image.symbols.stackTop) ↔
      image.stackBottom.toNat + 128 ≤ (s.reg .rsp).toNat ∧
        (s.reg .rsp).toNat ≤ image.symbols.stackTop.toNat := by
  rw [syscallStores_eq]
  exact bytesBelow_within_iff (by decide) (by decide)

/-- An image with its stack at the end of the BSS, from 0xFFFFFFFF80300000 on. -/
def highImage : Image :=
  Image.spaced ⟨0xFFFFFFFF80200000#64, 0xFFFFFFFF80400000#64, 0xFFFFFFFF80400000#64⟩
    (by decide +kernel)

/-- There a user whose RSP is 0x1000 makes the kernel store to 0xFF8. -/
theorem syscallStores_escape :
    ¬ ∀ (image : Image) (s : State), ∀ b ∈ syscallStores image s,
      image.stackBottom ≤ b ∧ b < image.symbols.stackTop := by
  intro within
  let user := stateOf fun r => if r = .rsp then 0x1000#64 else 0#64
  have stored : 0xFF8#64 ∈ syscallStores highImage user := by
    rw [syscallStores_eq, mem_bytesBelow]
    decide
  exact absurd (within highImage user _ stored).1 (by decide)

end ModernOS.Entry
