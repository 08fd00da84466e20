import ModernOS.Lib.X86.Stack
import ModernOS.Entry.Model

/-!
The call that `syscall_entry` makes.

The stub saves the registers of the user and calls `handle_syscall` at once. It does
not move the system call number and the arguments to where the handler looks for
them: the handler's parameters are the user's RDI, RSI, RDX, RCX, R8 and R9, and the
seventh is the R15 that was saved last (`syscallEntry_calls`).
-/

namespace ModernOS.Entry

open X86

/-! ### The call -/

/-- The stub has saved the registers of the user. -/
def savedUser (s : State) : State := execs s (savedBySyscall.map .push)

/-- The instructions after the call. -/
def afterSyscall (image : Image) : List (Instr Label External) :=
  (instrsAt .syscallEntry (entry64 image.symbols)).drop 16

/-- The state in which `handle_syscall` is entered. -/
def syscallHandlerEntry (image : Image) (s : State) : State :=
  (savedUser s).push (image.address (afterSyscall image).length)

theorem rsp_notMem_savedBySyscall : Reg.rsp ∉ savedBySyscall := by decide

theorem savedUser_reaches (image : Image) (s : State) :
    Reaches image.program (image.enter .syscallEntry s)
      ⟨.running (.callExternal .handleSyscall :: afterSyscall image), savedUser s⟩ :=
  reaches_ops (savedBySyscall.map .push) _ s

theorem syscall_reaches (image : Image) (s : State) :
    Reaches image.program (image.enter .syscallEntry s)
      ⟨.calling .handleSyscall (afterSyscall image), syscallHandlerEntry image s⟩ :=
  (savedUser_reaches image s).trans (Reaches.of_step rfl)

/-- The pushes leave all registers but RSP. -/
theorem syscallHandlerEntry_reg (image : Image) (s : State) {r : Reg} (other : r ≠ .rsp) :
    (syscallHandlerEntry image s).reg r = s.reg r := by
  rw [syscallHandlerEntry, State.push_reg _ _ _ other, savedUser,
    execs_pushes rsp_notMem_savedBySyscall]
  exact s.pushes_reg r _ other

/-- The system call number and the six arguments, where the comment of the stub has them. -/
def syscallArguments (s : State) : List (BitVec 64) :=
  [.rax, .rdi, .rsi, .rdx, .r10, .r8, .r9].map s.reg

/-- `syscall_entry` calls `handle_syscall` with these parameters. -/
theorem syscallEntry_calls (image : Image) (s : State) :
    ∃ t, Calls image.program (image.enter .syscallEntry s) .handleSyscall t ∧
      arguments t 7 = [Reg.rdi, .rsi, .rdx, .rcx, .r8, .r9, .r15].map s.reg := by
  refine ⟨_, ⟨_, syscall_reaches image s⟩, ?_⟩
  have last : argument (syscallHandlerEntry image s) 6 = s.reg .r15 := by
    rw [syscallHandlerEntry, argument_six_push, ← State.quad_zero]
    exact quad_pushed rsp_notMem_savedBySyscall (by decide) s (i := 0) rfl
  have kept := fun r (other : r ≠ Reg.rsp) => syscallHandlerEntry_reg image s other
  show [_, _, _, _, _, _, argument _ 6] = _
  rw [last]
  simp [argument, kept]

/-- The register of each parameter holds, by chance, the argument that belongs there. -/
structure ArgumentsInPlace (s : State) : Prop where
  number : s.reg .rdi = s.reg .rax
  first : s.reg .rsi = s.reg .rdi
  second : s.reg .rdx = s.reg .rsi
  third : s.reg .rcx = s.reg .rdx
  fourth : s.reg .r8 = s.reg .r10
  fifth : s.reg .r9 = s.reg .r8
  sixth : s.reg .r15 = s.reg .r9

theorem argumentsInPlace_iff (s : State) :
    [Reg.rdi, .rsi, .rdx, .rcx, .r8, .r9, .r15].map s.reg = syscallArguments s ↔
      ArgumentsInPlace s := by
  simp only [syscallArguments, List.map_cons, List.map_nil, List.cons.injEq, and_true]
  exact ⟨fun ⟨n, a, b, c, d, e, f⟩ => ⟨n, a, b, c, d, e, f⟩,
    fun ⟨n, a, b, c, d, e, f⟩ => ⟨n, a, b, c, d, e, f⟩⟩

/-- **`handle_syscall` receives the arguments of the system call** exactly when the user had
RAX, RDI, RSI, RDX and RCX all equal, and R10, R8, R9 and R15 too. -/
theorem syscall_delivers_iff (image : Image) (s : State) :
    (∃ t, Calls image.program (image.enter .syscallEntry s) .handleSyscall t) ∧
    ∀ t, Calls image.program (image.enter .syscallEntry s) .handleSyscall t →
      (arguments t 7 = syscallArguments s ↔ ArgumentsInPlace s) := by
  obtain ⟨u, calls, parameters⟩ := syscallEntry_calls image s
  refine ⟨⟨u, calls⟩, fun t calls' => ?_⟩
  rw [(calls'.unique calls).2, parameters]
  exact argumentsInPlace_iff s

/-- System call 1 with the argument 0x1234 in RDI. -/
def userState : State :=
  stateOf fun r => if r = .rax then 1#64 else if r = .rdi then 0x1234#64 else 0#64

/-- There the handler takes the first argument for the number. -/
theorem syscall_delivers_userState :
    ∃ t, Calls lowImage.program (lowImage.enter .syscallEntry userState) .handleSyscall t ∧
      arguments t 7 ≠ syscallArguments userState := by
  obtain ⟨⟨t, calls⟩, delivers_iff⟩ := syscall_delivers_iff lowImage userState
  refine ⟨t, calls, fun delivered => ?_⟩
  exact absurd ((delivers_iff t calls).mp delivered).number (by decide)

theorem syscall_misdelivers :
    ¬ ∀ (image : Image) (s t : State),
      Calls image.program (image.enter .syscallEntry s) .handleSyscall t →
        arguments t 7 = syscallArguments s := by
  intro delivers
  obtain ⟨t, calls, parameters⟩ := syscallEntry_calls lowImage userState
  have delivered := parameters.symm.trans (delivers lowImage userState t calls)
  exact absurd ((argumentsInPlace_iff userState).mp delivered).number (by decide)

end ModernOS.Entry
