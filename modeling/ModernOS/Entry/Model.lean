import ModernOS.Lib.X86.Program

/-!
The code of `kernel/entry64.asm`, up to its utility functions.

The values of the linker's symbols are a parameter, and so is the address of each
instruction: nothing here depends on where the code lies. The two exception macros
of the file have the same text, so `exceptionHandler` stands for both.
-/

namespace ModernOS.Entry

open X86

/-- The labels of the file. -/
inductive Label where
  | start
  | halt
  | setupCpuFeatures
  | noSse
  | noAvx
  | exceptionHandler (vector : ℕ)
  | commonExceptionHandler
  | syscallEntry
  deriving DecidableEq, Repr

/-- The functions of the C++ part that the file calls. -/
inductive External where
  | kernelMain64
  | handleException
  | handleSyscall
  deriving DecidableEq, Repr

/-- The values of `__bss_start`, `__bss_end` and `__stack_top`. -/
structure Symbols where
  bssStart : BitVec 64
  bssEnd : BitVec 64
  stackTop : BitVec 64
  deriving DecidableEq, Repr

abbrev Listing := List (Line Label External)

/-- Lines without labels. -/
def ops (os : List Op) : Listing := os.map fun o => .instr (.op o)

/-- A label and the block that follows it. -/
def block (l : Label) (os : List Op) : Listing := .label l :: ops os

/-- The part of `_start` before its first call. -/
def startOps (σ : Symbols) : List Op :=
  [ .cli,
    .push .rdi,
    .movImm .rsp σ.stackTop,
    .mov .rbp .rsp,
    .cld,
    -- Clear BSS section
    .movImm .rdi σ.bssStart,
    .movImm .rcx σ.bssEnd,
    .sub .rcx .rdi,
    .shr .rcx 3,
    .xor .rax .rax,
    .repStosq,
    .pop .rdi ]

/-- `_start`. -/
def start (σ : Symbols) : Listing := List.flatten
  [ block .start (startOps σ),
    [.instr (.call .setupCpuFeatures)],
    [.instr (.callExternal .kernelMain64)],
    ops [.cli],
    [.label .halt],
    [.instr .hlt],
    [.instr (.jmp .halt)] ]

/-- `mov eax, 1` and `cpuid`, with the test of a feature bit. -/
def featureTest (r : Reg) (bit : ℕ) : List Op :=
  [.movImm32 .rax 1#32, .cpuid, .testImm32 r (1#32 <<< bit)]

/-- The block of `setup_cpu_features` that enables SSE. -/
def enableSse : List Op :=
  [ .movFromControl .rax .cr0,
    .andImm .rax (~~~(1#64 <<< 2)),
    .orImm .rax (1#64 <<< 1),
    .movToControl .cr0 .rax,
    .movFromControl .rax .cr4,
    .orImm .rax (3#64 <<< 9),
    .movToControl .cr4 .rax ]

/-- The block of `setup_cpu_features` that enables AVX. -/
def enableAvx : List Op :=
  [ .movFromControl .rax .cr4,
    .orImm .rax (1#64 <<< 18),
    .movToControl .cr4 .rax,
    .xor .rcx .rcx,
    .xgetbv,
    .orImm32 .rax 7#32,
    .xsetbv ]

/-- `setup_cpu_features`. -/
def setupCpuFeatures : Listing := List.flatten
  [ block .setupCpuFeatures [.push .rbp, .mov .rbp .rsp],
    ops (featureTest .rdx 25),
    [.instr (.jz .noSse)],
    ops enableSse,
    block .noSse (featureTest .rcx 28),
    [.instr (.jz .noAvx)],
    ops enableAvx,
    block .noAvx [.pop .rbp],
    [.instr .ret] ]

/-- The macros `EXCEPTION_HANDLER` and `EXCEPTION_HANDLER_WITH_ERROR`. -/
def exceptionHandler (vector : ℕ) : Listing := List.flatten
  [ block (.exceptionHandler vector) [.pushImm (BitVec.ofNat 64 vector)],
    [.instr (.jmp .commonExceptionHandler)] ]

/-- The vectors that have a stub. -/
def exceptionVectors : List ℕ :=
  [0, 1, 2, 3, 4, 5, 6, 7, 8, 9, 10, 11, 12, 13, 14, 16, 17, 18, 19]

/-- The registers `common_exception_handler` saves, in the order of the pushes. -/
def savedByException : List Reg :=
  [.rax, .rbx, .rcx, .rdx, .rsi, .rdi, .rbp, .r8, .r9, .r10, .r11, .r12, .r13, .r14, .r15]

/-- `common_exception_handler`. -/
def commonExceptionHandler : Listing := List.flatten
  [ block .commonExceptionHandler (savedByException.map .push),
    ops [.mov .rdi .rsp],
    [.instr (.callExternal .handleException)],
    ops (savedByException.reverse.map .pop),
    ops [.addImm .rsp 8#64],
    [.instr .iretq] ]

/-- The registers `syscall_entry` saves, in the order of the pushes. -/
def savedBySyscall : List Reg :=
  [.rcx, .r11, .rax, .rbx, .rdx, .rsi, .rdi, .rbp, .r8, .r9, .r10, .r12, .r13, .r14, .r15]

/-- The part of `syscall_entry` after the call; the saved RAX is skipped. -/
def syscallReturn : List Op :=
  [ .pop .r15,
    .pop .r14,
    .pop .r13,
    .pop .r12,
    .pop .r10,
    .pop .r9,
    .pop .r8,
    .pop .rbp,
    .pop .rdi,
    .pop .rsi,
    .pop .rdx,
    .pop .rbx,
    .addImm .rsp 8#64,
    .pop .r11,
    .pop .rcx ]

/-- `syscall_entry`. -/
def syscallEntry : Listing := List.flatten
  [ block .syscallEntry (savedBySyscall.map .push),
    [.instr (.callExternal .handleSyscall)],
    ops syscallReturn,
    [.instr .sysretq] ]

/-- The file. -/
def entry64 (σ : Symbols) : Listing := List.flatten
  [ start σ,
    setupCpuFeatures,
    exceptionVectors.flatMap exceptionHandler,
    commonExceptionHandler,
    syscallEntry ]

/-- The file as it is linked: the values of its symbols, and distinct addresses for its
control points. -/
structure Image where
  symbols : Symbols
  address : ℕ → BitVec 64
  distinct : ∀ m n, m ≤ (instrs (entry64 symbols)).length → n ≤ (instrs (entry64 symbols)).length →
    address m = address n → m = n

def Image.program (image : Image) : Program Label External where
  lines := entry64 image.symbols
  address := image.address
  distinct := image.distinct

/-- A run that enters the file at a label. -/
def Image.enter (image : Image) (l : Label) (s : State) : Config Label External :=
  ⟨.running (instrsAt l (entry64 image.symbols)), s⟩

/-- The image with the given symbols and an instruction every 16 bytes. -/
def Image.spaced (σ : Symbols) (short : (instrs (entry64 σ)).length ≤ 0x1000) : Image where
  symbols := σ
  address n := 0xFFFFFFFF80100000#64 - 16#64 * BitVec.ofNat 64 n
  distinct m n small small' same := by
    have small := small.trans short
    have small' := small'.trans short
    bv_omega

/-- An image with the BSS at 0x10000 and the kernel stack below 0x80000. -/
def lowImage : Image :=
  Image.spaced ⟨0x10000#64, 0x20000#64, 0x80000#64⟩ (by decide +kernel)

/-- A processor with the given registers, over memory that is zero. -/
def stateOf (reg : Reg → BitVec 64) : State where
  reg := reg
  mem _ := 0#8
  zero := false
  direction := false
  interrupts := true
  control _ := 0#64
  xcr0 := 0#64
  cpuid _ _ := ⟨0#32, 0#32, 0#32, 0#32⟩

end ModernOS.Entry
