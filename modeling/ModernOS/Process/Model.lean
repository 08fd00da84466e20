import ModernOS.Lib.SlotTable
import ModernOS.Memory.Model

/-!
The process table of `kernel/process.cpp`, in the 32-bit build of the Makefile.

A record holds the fields that the file reads or writes. `current_process` is a
pointer into the table, so it is a slot or null. The two functions of the memory
module that the file calls are a parameter (`PageAllocator`) over an arbitrary
memory state: a result about every allocator covers every sequence of answers it
can give. `kernelPages` is the allocator of `kernel/memory.cpp`.

`schedule` takes the registers that `switch_context` saves and restores and
returns the registers with which the processor goes on.
-/

namespace ModernOS.ProcessTable

open SlotTable

/-- `ProcessState` of `include/process.h`. -/
inductive ProcessState where
  | created
  | ready
  | running
  | blocked
  | suspended
  | zombie
  | terminated
  deriving DecidableEq, Repr

/-- The number an enumerator stands for. -/
def ProcessState.code : ProcessState → ℕ
  | .created => 0
  | .ready => 1
  | .running => 2
  | .blocked => 3
  | .suspended => 4
  | .zombie => 5
  | .terminated => 6

/-- A process control block. -/
structure Process where
  pid : Word
  state : ProcessState
  eip : Word
  esp : Word
  ebp : Word
  memorySize : Word
  stackTop : Word
  deriving DecidableEq, Repr

/-- The record `memset` leaves: every field is zero, and `created` is the state whose
code is zero. -/
def Process.zeroed : Process := ⟨0#32, .created, 0#32, 0#32, 0#32, 0#32, 0#32⟩

theorem ProcessState.code_eq_zero_iff {s : ProcessState} :
    s.code = 0 ↔ s = Process.zeroed.state := by
  cases s <;> decide

abbrev MAX_PROCESSES : ℕ := 256

/-- A position in the process table. -/
abbrev Slot := Fin MAX_PROCESSES

/-- What the process table needs from the memory module. -/
structure PageAllocator (μ : Type) where
  /-- The address of a page, or 0 when none is free. -/
  allocatePage : μ → Word × μ
  mapPage : Word → Word → μ → μ

/-- The allocator of `kernel/memory.cpp`. -/
def kernelPages : PageAllocator Memory.State := ⟨Memory.allocatePage, Memory.mapPage⟩

/-- The static variables of the file, and the state of the memory module. -/
structure Table (μ : Type) where
  processes : Slot → Process
  processCount : Word
  nextPid : Word
  currentProcess : Option Slot
  memory : μ

variable {μ : Type}

/-- Rewrite the record in slot `i`. -/
def Table.modify (k : Table μ) (i : Slot) (f : Process → Process) : Table μ :=
  { k with processes := Function.update k.processes i (f (k.processes i)) }

/-- The registers that a context switch saves and loads; `eip` is the address at which
execution goes on. -/
structure Cpu where
  esp : Word
  ebp : Word
  eip : Word
  deriving DecidableEq, Repr

/-! ### The functions of the file -/

/-- `init`. -/
def init (k : Table μ) : Table μ where
  processes := fun _ => Process.zeroed
  processCount := 0#32
  nextPid := 1#32
  currentProcess := none
  memory := k.memory

/-- `get_process`. -/
def getProcess (pid : Word) (k : Table μ) : Option Slot :=
  firstSlot (fun p => p.pid = pid) k.processes

/-- `allocate_process_memory`. -/
def allocateProcessMemory (M : PageAllocator μ) (pid size : Word) (k : Table μ) :
    Bool × Table μ :=
  match getProcess pid k with
  | none => (false, k)
  | some proc =>
      let (newMemory, memory) := M.allocatePage k.memory
      let k := { k with memory := memory }
      if newMemory = 0#32 then (false, k)
      else
        let k := { k with memory := M.mapPage newMemory (k.processes proc).memorySize k.memory }
        (true, k.modify proc fun p => { p with memorySize := p.memorySize + size })

/-- The part of `create_process` that initialises the record of a free slot. -/
def initProcess (entryPoint : Word) (proc : Slot) (k : Table μ) : Table μ :=
  { k with nextPid := k.nextPid + 1#32 }.modify proc fun p =>
    { p with
      pid := k.nextPid
      state := .ready
      eip := entryPoint
      memorySize := 4#32 * 1024#32 * 1024#32 }

/-- The part of `create_process` that sets up the initial stack and counts the process. -/
def setUpStack (proc : Slot) (k : Table μ) : Table μ :=
  let stackTop := (k.processes proc).memorySize - 16#32
  let k := k.modify proc fun p =>
    { p with stackTop := stackTop, esp := stackTop, ebp := stackTop }
  { k with processCount := k.processCount + 1#32 }

/-- `create_process`. -/
def createProcess (M : PageAllocator μ) (entryPoint : Word) (k : Table μ) : Word × Table μ :=
  if MAX_PROCESSES ≤ k.processCount.toNat then (0#32, k)
  else
    match firstSlot (fun p => p.state = .terminated) k.processes with
    | none => (0#32, k)
    | some proc =>
        let k := initProcess entryPoint proc k
        match allocateProcessMemory M (k.processes proc).pid (k.processes proc).memorySize k with
        | (false, k) => (0#32, k)
        | (true, k) =>
            let k := setUpStack proc k
            ((k.processes proc).pid, k)

/-- `terminate_process`. -/
def terminateProcess (pid : Word) (k : Table μ) : Bool × Table μ :=
  match getProcess pid k with
  | none => (false, k)
  | some proc =>
      let k := k.modify proc fun p => { p with state := .terminated }
      (true, { k with processCount := k.processCount - 1#32 })

/-- `switch_context`: save the stack registers through `current_process`, load those of
`next`, and jump to its `eip`. -/
def switchContext (next : Option Slot) (cpu : Cpu) (k : Table μ) : Table μ × Cpu :=
  match next with
  | none => (k, cpu)
  | some next =>
      let k := match k.currentProcess with
        | some current => k.modify current fun p => { p with esp := cpu.esp, ebp := cpu.ebp }
        | none => k
      (k, ⟨(k.processes next).esp, (k.processes next).ebp, (k.processes next).eip⟩)

/-- The part of `schedule` that makes the current process ready and `next` the current
one. -/
def handOver (next : Slot) (k : Table μ) : Table μ :=
  let k := match k.currentProcess with
    | some current => k.modify current fun p => { p with state := .ready }
    | none => k
  let k := k.modify next fun p => { p with state := .running }
  { k with currentProcess := some next }

/-- `schedule`. -/
def schedule (cpu : Cpu) (k : Table μ) : Table μ × Cpu :=
  if k.processCount = 0#32 then (k, cpu)
  else
    match firstSlot (fun p => p.state = .ready) k.processes with
    | none => (k, cpu)
    | some next => switchContext (some next) cpu (handOver next k)

/-- `sys_exit`. -/
def sysExit (_status : Word) (k : Table μ) : Table μ :=
  match k.currentProcess with
  | none => k
  | some current => (terminateProcess (k.processes current).pid k).2

/-- `sys_fork`. -/
def sysFork (M : PageAllocator μ) (k : Table μ) : Word × Table μ :=
  match k.currentProcess with
  | none => (-1#32, k)
  | some _ =>
      let (pid, k) := createProcess M 0#32 k
      match getProcess pid k with
      | none => (-1#32, k)
      | some child => ((k.processes child).pid, k)

/-! ### The kernel as a system of calls -/

/-- A call that reaches the process table. -/
inductive Op where
  | createProcess (entryPoint : Word)
  | terminateProcess (pid : Word)
  | schedule (cpu : Cpu)
  | sysExit (status : Word)
  | sysFork
  deriving DecidableEq, Repr

/-- The table after a call. -/
def step (M : PageAllocator μ) (k : Table μ) : Op → Table μ
  | .createProcess entryPoint => (createProcess M entryPoint k).2
  | .terminateProcess pid => (terminateProcess pid k).2
  | .schedule cpu => (schedule cpu k).1
  | .sysExit status => sysExit status k
  | .sysFork => (sysFork M k).2

/-- The empty table: all slots are free, whatever their other fields hold. -/
def emptyTable (k : Table μ) : Table μ where
  processes := fun i => { k.processes i with pid := 0#32, state := .terminated }
  processCount := 0#32
  nextPid := 1#32
  currentProcess := none
  memory := k.memory

/-- An allocator that always answers with the page at 0x1000. -/
def onePage : PageAllocator Unit := ⟨fun m => (0x1000#32, m), fun _ _ m => m⟩

/-- A table with no data in it. -/
def blank : Table Unit := ⟨fun _ => Process.zeroed, 0#32, 0#32, none, ()⟩

end ModernOS.ProcessTable
