import ModernOS.Console.LegacyBounds
import ModernOS.FileSystem.Model
import ModernOS.Interrupt.Model
import ModernOS.Process.Model

/-!
The 32-bit kernel that the Makefile builds, with `kernel_main` of `kernel/kernel.cpp`.

The files are linked into one image: their static variables stand side by side, and they share the
page allocator. The storage of these variables and the video memory are taken to lie outside the
pages that the allocator hands out. How `map_page` reaches the page tables depends on whether
paging is on, so the memory module that the process table calls is a parameter, as it is there.
-/

namespace ModernOS.SimpleOS

open Console (Byte ascii)
open ProcessTable (PageAllocator Table Cpu)

/-- The static variables of the files, and the memory. -/
structure State where
  memory : Memory.State
  interrupts : Interrupt.State
  inodes : ℕ → FileSystem.Inode
  blocks : Word
  mountPoints : FileSystem.Slot → FileSystem.MountPoint
  totalInodes : Word
  processes : ProcessTable.Slot → ProcessTable.Process
  processCount : Word
  nextPid : Word
  currentProcess : Option ProcessTable.Slot
  console : Console.Legacy.State

/-- Nothing has been printed, and the video memory holds `cells`. -/
def State.atBoot (s : State) (cells : ℤ → BitVec 16) : State :=
  { s with console := Console.Legacy.initial ⟨cells, []⟩ }

/-- The static variables as the image is loaded, beside this memory. -/
def static (memory : Memory.State) : State where
  memory := memory
  interrupts := ⟨fun _ => Interrupt.IDTEntry.cleared, fun _ => 0#32, ⟨false, false⟩⟩
  inodes := (FileSystem.static memory).inodes
  blocks := (FileSystem.static memory).blocks
  mountPoints := (FileSystem.static memory).mountPoints
  totalInodes := (FileSystem.static memory).totalInodes
  processes := fun _ => ProcessTable.Process.zeroed
  processCount := 0#32
  nextPid := 1#32
  currentProcess := none
  console := Console.Legacy.initial ⟨fun _ => 0#16, []⟩

/-! ### What a file sees of the state -/

/-- What `filesystem.cpp` sees. -/
def State.files (s : State) : FileSystem.State :=
  ⟨s.inodes, s.blocks, s.mountPoints, s.totalInodes, s.memory⟩

def State.withFiles (s : State) (f : FileSystem.State) : State :=
  { s with
    inodes := f.inodes
    blocks := f.blocks
    mountPoints := f.mountPoints
    totalInodes := f.totalInodes
    memory := f.memory }

/-- What `process.cpp` sees. -/
def State.table (s : State) : Table Memory.State :=
  ⟨s.processes, s.processCount, s.nextPid, s.currentProcess, s.memory⟩

def State.withTable (s : State) (k : Table Memory.State) : State :=
  { s with
    processes := k.processes
    processCount := k.processCount
    nextPid := k.nextPid
    currentProcess := k.currentProcess
    memory := k.memory }

section Views

variable (s : State) (f : FileSystem.State) (k : Table Memory.State)

@[simp] theorem State.files_withFiles : (s.withFiles f).files = f := rfl

@[simp] theorem State.table_withTable : (s.withTable k).table = k := rfl

@[simp] theorem State.memory_files : s.files.memory = s.memory := rfl

@[simp] theorem State.memory_table : s.table.memory = s.memory := rfl

@[simp] theorem State.memory_withFiles : (s.withFiles f).memory = f.memory := rfl

@[simp] theorem State.memory_withTable : (s.withTable k).memory = k.memory := rfl

end Views

/-! ### Calls -/

/-- A call to a function of the kernel's files. `free_page` is left out: nothing calls it. -/
inductive Call where
  | memoryInit
  | allocatePage
  | mapPage (physicalAddr virtualAddr : Word)
  | interruptInit
  | registerHandler (interruptNumber : BitVec 8) (handler : Word)
  | enable
  | disable
  | fileSystemInit
  | createFile (path : CString) (type : FileSystem.FileType) (permissions : Word)
  | createDirectory (path : CString) (beyond : BitVec 8)
  | mount (device mountPoint : CString)
  | unmount (mountPoint : CString)
  | processInit
  | allocateProcessMemory (pid size : Word)
  | process (op : ProcessTable.Op)
  | print (str : List Byte)
  | printNumber (num : Word)

variable (M : PageAllocator Memory.State)

/-- The state after a call. An `unmount` that reads behind a path has no defined effect; here it
has none. -/
def step (s : State) : Call → State
  | .memoryInit => { s with memory := Memory.init s.memory }
  | .allocatePage => { s with memory := (M.allocatePage s.memory).2 }
  | .mapPage physicalAddr virtualAddr =>
      { s with memory := M.mapPage physicalAddr virtualAddr s.memory }
  | .interruptInit => { s with interrupts := Interrupt.init s.interrupts }
  | .registerHandler interruptNumber handler =>
      { s with interrupts := Interrupt.registerHandler interruptNumber handler s.interrupts }
  | .enable =>
      { s with interrupts := { s.interrupts with flags := Interrupt.enable s.interrupts.flags } }
  | .disable =>
      { s with interrupts := { s.interrupts with flags := Interrupt.disable s.interrupts.flags } }
  | .fileSystemInit => s.withFiles (FileSystem.init s.files)
  | .createFile path type permissions =>
      s.withFiles (FileSystem.createFile path type permissions s.files).2
  | .createDirectory path beyond => s.withFiles (FileSystem.createDirectory path beyond s.files).2
  | .mount device mountPoint => s.withFiles (FileSystem.mount device mountPoint s.files).2
  | .unmount mountPoint =>
      match FileSystem.unmount mountPoint s.files with
      | some r => s.withFiles r.2
      | none => s
  | .processInit => s.withTable (ProcessTable.init s.table)
  | .allocateProcessMemory pid size =>
      s.withTable (ProcessTable.allocateProcessMemory M pid size s.table).2
  | .process op => s.withTable (ProcessTable.step M s.table op)
  | .print str => { s with console := Console.Legacy.print str s.console }
  | .printNumber num => { s with console := Console.Legacy.printNumber num s.console }

/-! ### `kernel_main` -/

/-- The loop that clears the screen. -/
def clearVideo (video : LoggedArray ℤ (BitVec 16)) : LoggedArray ℤ (BitVec 16) :=
  CountedLoop.forRange 0 (80 * 25) (fun i video =>
    video.store i ((ascii ' ').setWidth 16 ||| Console.Legacy.whiteOnBlack)) video

/-- `print` of a literal. -/
def say (str : String) (s : State) : State := step M s (.print (str.toList.map ascii))

/-- An initialisation between its two messages. -/
def announced (before : String) (init : Call) (after : String) (s : State) : State :=
  say M after (step M (say M before s) init)

/-- The first part of `kernel_main`, with the four initialisations. -/
def setUp (s : State) : State :=
  let s := { s with console := { s.console with video := clearVideo s.console.video } }
  let s := say M "Initializing SimpleOS...\n" s
  let s := announced M "Initializing memory management...\n" .memoryInit
    "Memory management initialized.\n" s
  let s := announced M "Initializing interrupt handling...\n" .interruptInit
    "Interrupt handling initialized.\n" s
  let s := announced M "Initializing file system...\n" .fileSystemInit
    "File system initialized.\n" s
  announced M "Initializing process management...\n" .processInit
    "Process management initialized.\n" s

/-- The part of `kernel_main` that creates a process from `example_process`, at this address. -/
def createExample (exampleProcess : Word) (s : State) : State :=
  let s := say M "Creating example process...\n" s
  let (pid, k) := ProcessTable.createProcess M exampleProcess s.table
  let s := s.withTable k
  let s := say M "Example process created with PID: " s
  let s := step M s (.printNumber pid)
  say M "\n" s

/-- `kernel_main` up to its loop. -/
def kernelMain (exampleProcess : Word) (s : State) : State :=
  let s := createExample M exampleProcess (setUp M s)
  let s := say M "Kernel initialization complete.\n" s
  say M "Starting process scheduler...\n" s

/-- A round of the loop of `kernel_main`. -/
def schedulerRound (cpu : Cpu) (s : State) : State × Cpu :=
  let (k, cpu) := ProcessTable.schedule cpu s.table
  (s.withTable k, cpu)

/-- The first `n` rounds. A switch leaves the loop; as long as there is none, the next round
follows. -/
def scheduler : ℕ → Cpu → State → State × Cpu
  | 0, cpu, s => (s, cpu)
  | n + 1, cpu, s =>
      let (s, cpu) := schedulerRound cpu s
      scheduler n cpu s

end ModernOS.SimpleOS
