import ModernOS.Lib.Transcript
import ModernOS.Console.Scrollback
import ModernOS.KernelMemory.Model

/-!
`kernel_main64` of `kernel/kernel_main64.cpp`, and the other ways in which that kernel stops.

The code is a program over what it calls. The subsystems are declared in the headers of `include/`
but not defined, so that they answer as they like; an answer of `init` is whether the result has a
value. `sti`, `cli` and `hlt` are calls too. A `goto kernel_panic` is a return of `failed`. A
division by zero and a read outside of the memory map end the program with `faulted`.

The loops without end are apart: `kernelMain64` returns which of them it enters, and `idleRound`
and `haltRound` are their bodies.
-/

namespace ModernOS.Kernel

open Console (Byte Size ascii)
open KernelMemory (MemoryMapEntry)

/-- `ProcessPriority`. -/
inductive ProcessPriority where
  | idle
  | low
  | normal
  | high
  | realTime
  deriving DecidableEq, Repr

inductive Call where
  | clearScreen
  /-- A call that prints, or `set_color`. -/
  | console (c : Console.Call)
  | memoryInit (entries : List MemoryMapEntry)
  | interruptInit
  | fileSystemInit
  | processInit
  /-- `g_initialized = true`. -/
  | setInitialized
  | allocatePage
  | freePage (address : BitVec 64)
  /-- `create_process`; the members that are left at their defaults are not shown. -/
  | createProcess (name : List Byte) (priority : ProcessPriority)
  | yield
  | sti
  | cli
  | hlt
  deriving DecidableEq, Repr

/-- What a call returns; of a result without a value, whether there is one. -/
def Result : Call → Type
  | .memoryInit _ | .interruptInit | .fileSystemInit | .processInit | .freePage _
  | .createProcess .. => Bool
  | .allocatePage => Option (BitVec 64)
  | .clearScreen | .console _ | .setInitialized | .yield | .sti | .cli | .hlt => Unit

/-- What the kernel calls. -/
@[reducible] def services : Interface := ⟨Call, Result⟩

/-- Code of the kernel. -/
abbrev Code := Program services

/-- Make a call. -/
def ask (c : Call) : Code (Result c) := Program.perform (I := services) c

/-- A call to the console. -/
def console (c : Console.Call) : Code Unit := ask (.console c)

/-- `Console::print`. -/
def print (str : List Byte) : Code Unit := console (.op (.print str))

/-- `Console::print` of a literal. -/
def say (str : String) : Code Unit := print (str.toList.map ascii)

/-- `Console::print_hex`. -/
def printHex (value : BitVec 64) : Code Unit := console (.op (.printHex value))

/-- `Console::print_dec`. -/
def printDec (value : BitVec 64) : Code Unit := console (.op (.printDec value))

/-- `Console::set_color`. -/
def setColor (color : Byte) : Code Unit := console (.setColor color)

def sti : Code Unit := ask .sti

def cli : Code Unit := ask .cli

def hlt : Code Unit := ask .hlt

/-- A line with a number in hexadecimal. -/
def showHex (label : String) (value : BitVec 64) : Code Unit := do
  say label
  printHex value
  say "\n"

/-- A line with a number in decimal. -/
def showDec (label : String) (value : BitVec 64) (rest : String) : Code Unit := do
  say label
  printDec value
  say rest

/-! ### Boot configuration -/

/-- The part of `BootConfig` that `kernel_main64` uses. -/
structure BootConfig extends KernelMemory.BootConfig where
  kernelVirtualBase : BitVec 64
  kernelPhysicalBase : BitVec 64
  kernelSize : BitVec 64
  framebufferBase : BitVec 64

/-- The welcome message. -/
def welcome : Code Unit := do
  say "========================================\n"
  say "       ModernOS 64-bit Kernel\n"
  say "========================================\n"
  say "Version: 1.0.0-alpha\n"
  say "Architecture: x86_64\n"
  say "Boot: UEFI\n"
  say "========================================\n\n"

/-- The boot configuration is displayed, up to the memory map. -/
def displayKernel (config : BootConfig) : Code Unit := do
  say "Boot Configuration:\n"
  showHex "  Kernel Physical: " config.kernelPhysicalBase
  showHex "  Kernel Virtual:  " config.kernelVirtualBase
  showDec "  Kernel Size:     " config.kernelSize " bytes\n"

/-- The rest of it. -/
def displayFramebuffer (config : BootConfig) : Code Unit := do
  if config.framebufferBase ≠ 0#64 then
    showHex "  Framebuffer:     " config.framebufferBase
  say "\n"

/-! ### Subsystems -/

/-- How a part of the boot ends. -/
inductive Status where
  | succeeded
  | failed
  | faulted
  deriving DecidableEq, Repr

/-- One of the four steps: what it says, and the initialisation itself. -/
def initializeStep (banner : String) (init : Code Status) (fatal done : String) : Code Status := do
  say banner
  match ← init with
  | .succeeded =>
      say done
      return .succeeded
  | .failed =>
      setColor 0x0C#8
      say fatal
      return .failed
  | .faulted => return .faulted

/-- Whether a result has a value. -/
def Status.ofBool (hasValue : Bool) : Status := if hasValue then .succeeded else .failed

/-- `initialize_from_uefi`. -/
def initializeFromUefi (config : BootConfig) : Code Status := do
  say "  Parsing UEFI memory map...\n"
  if config.descriptorSize = 0#64 then
    return .faulted
  let entryCount := config.memoryMapSize / config.descriptorSize
  showDec "  Found " entryCount " memory descriptors\n"
  match KernelMemory.memoryEntries config.memoryMap config.descriptorSize entryCount with
  | none => return .faulted
  | some entries => .ofBool <$> ask (.memoryInit entries)

def initializeMemory (config : BootConfig) : Code Status :=
  initializeStep "[1/4] Memory management...\n" (initializeFromUefi config)
    "FATAL: Memory initialization failed\n" "  Memory management initialized\n"

def initializeInterrupts : Code Status :=
  initializeStep "[2/4] Interrupt handling...\n" (.ofBool <$> ask .interruptInit)
    "FATAL: Interrupt initialization failed\n" "  Interrupt handling initialized\n"

def initializeFileSystem : Code Status :=
  initializeStep "[3/4] File system...\n" (.ofBool <$> ask .fileSystemInit)
    "FATAL: File system initialization failed\n" "  File system initialized\n"

def initializeProcesses : Code Status :=
  initializeStep "[4/4] Process management...\n" (.ofBool <$> ask .processInit)
    "FATAL: Process management initialization failed\n" "  Process management initialized\n"

/-- The second part comes only after the first has succeeded. -/
def andThen (first second : Code Status) : Code Status := do
  let status ← first
  if status = .succeeded then second else return status

/-- The four steps. -/
def initializeSubsystems (config : BootConfig) : Code Status :=
  andThen (initializeMemory config)
    (andThen initializeInterrupts (andThen initializeFileSystem initializeProcesses))

/-! ### `TestProcesses` -/

/-- `test_memory_allocation`. -/
def testMemoryAllocation : Code Unit := do
  say "Testing memory allocation...\n"
  match ← ask .allocatePage with
  | some page =>
      showHex "  Page allocated at: " page
      let freed : Bool ← ask (.freePage page)
      if freed then
        say "  Page freed successfully\n"
      else
        say "  Failed to free page\n"
  | none => say "  Failed to allocate page\n"

/-- `test_process_creation`. The new process says hello when it runs. -/
def testProcessCreation : Code Unit := do
  say "Testing process creation...\n"
  let created : Bool ← ask (.createProcess ("test_process".toList.map ascii) .normal)
  if created then
    say "  Process created successfully\n"
  else
    say "  Failed to create process\n"

/-- `run_all_tests`. -/
def runAllTests : Code Unit := do
  say "\n=== Running Kernel Tests ===\n"
  testMemoryAllocation
  testProcessCreation
  say "=== Tests Complete ===\n\n"

/-! ### `kernel_main64` -/

/-- From the flag to the loop. -/
def start : Code Unit := do
  ask .setInitialized
  setColor 0x0F#8
  say "\nKernel initialization complete!\n"
  runAllTests
  say "Enabling interrupts...\n"
  sti
  say "Entering main kernel loop...\n"
  say "Kernel is now running. Press Ctrl+Alt+Del to restart.\n\n"

/-- What is at the label `kernel_panic`, up to the loop. -/
def kernelPanic : Code Unit := do
  setColor 0x0C#8
  say "\n*** KERNEL PANIC ***\n"
  say "System initialization failed.\n"
  say "System halted.\n"
  cli

/-- What comes before the loop that is entered. -/
def approachLoop : Status → Code Unit
  | .succeeded => start
  | .failed => kernelPanic
  | .faulted => return

/-- The part of `kernel_main64` from the initialisation of the subsystems on. -/
def bringUp (config : BootConfig) : Code Status := do
  setColor 0x0A#8
  say "Initializing kernel subsystems...\n"
  let status ← initializeSubsystems config
  approachLoop status
  return status

/-- `kernel_main64` up to its loops: the idle loop when it has succeeded, the loop of
`kernel_panic` when it has failed. -/
def kernelMain64 (config : BootConfig) : Code Status := do
  ask .clearScreen
  setColor 0x0F#8
  welcome
  displayKernel config
  say "  Memory Map:      "
  if config.descriptorSize = 0#64 then
    return .faulted
  printDec (config.memoryMapSize / config.descriptorSize)
  say " entries\n"
  displayFramebuffer config
  bringUp config

/-- The body of the idle loop. -/
def idleRound (loopCount : BitVec 64) : Code (BitVec 64) := do
  if loopCount % 1000000#64 = 0#64 then
    say "."
  ask .yield
  hlt
  return loopCount + 1#64

/-- The first rounds of the idle loop. -/
def idle : ℕ → BitVec 64 → Code Unit
  | 0, _ => return
  | n + 1, loopCount => do
      let loopCount ← idleRound loopCount
      idle n loopCount

/-- The first rounds of `while (true) hlt`. -/
def halt : ℕ → Code Unit
  | 0 => return
  | n + 1 => do
      hlt
      halt n

/-- The first rounds of the loop that is entered. -/
def loop (n : ℕ) : Status → Code Unit
  | .succeeded => idle n 0#64
  | .failed => halt n
  | .faulted => return

/-- `kernel_main64` with the first rounds of its loop. -/
def kernel (config : BootConfig) (n : ℕ) : Code Status := do
  let status ← kernelMain64 config
  loop n status
  return status

/-! ### The other ways to stop -/

/-- `handle_exception`, up to its loop. -/
def handleException (interruptFrame : BitVec 64) : Code Unit := do
  setColor 0x0C#8
  say "\n*** KERNEL PANIC ***\n"
  showHex "Exception occurred at: " interruptFrame
  say "System halted.\n"
  cli
  hlt

/-- `Kernel::panic`, up to its loop. -/
def panic (message : List Byte) : Code Unit := do
  setColor 0x0C#8
  say "\n*** KERNEL PANIC ***\n"
  print message
  say "\nSystem halted.\n"
  cli

/-! ### An environment -/

/-- Subsystems whose calls all succeed, or all fail. -/
def answers (succeed : Bool) : (c : Call) → Result c
  | .memoryInit _ | .interruptInit | .fileSystemInit | .processInit | .freePage _
  | .createProcess .. => succeed
  | .allocatePage => if succeed then some 0x1000#64 else none
  | .clearScreen | .console _ | .setInitialized | .yield | .sti | .cli | .hlt => ()

/-! ### Transcripts -/

/-- A transcript of calls to the kernel's services. -/
abbrev Trace := Transcript services

/-- The text that the calls to the console print. -/
def text (t : Trace) : List Byte :=
  t.flatMap fun e => match e.call with
    | .console c => c.text
    | _ => []

/-- What is not a call to the console. -/
def IsControl : Call → Bool
  | .clearScreen | .console _ => false
  | _ => true

/-- The calls to the subsystems and to the processor, with their answers. -/
def controls (t : Trace) : Trace := t.filter fun e => IsControl e.call

/-- What a call does to the console when nothing else prints. -/
def onConsole (s : Console.State) : Call → Console.State
  | .clearScreen => Console.clearScreen s
  | .console c => Console.call s c
  | _ => s

/-- The console after a transcript. -/
def screen (s : Console.State) (t : Trace) : Console.State :=
  t.foldl (fun s e => onConsole s e.call) s

end ModernOS.Kernel
