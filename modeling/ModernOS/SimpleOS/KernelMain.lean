import ModernOS.Process.Lifecycle
import ModernOS.SimpleOS.Model

/-!
What `kernel_main` comes to.

`Process::init` leaves no slot that a creation could take, so the example process is not created:
the kernel reports the pid 0, and the loop that follows never finds a process to run. What is left
is a log on the screen, which it fits.
-/

namespace ModernOS.SimpleOS

open Console (Byte ascii)
open Console.Legacy (OnScreen PrintsSafely PutSafely initial print putchar)
open Layout
open ProcessTable (PageAllocator Table Cpu)

/-! ### The log -/

/-- What is printed, the pid included. -/
def messages : List String := [
  "Initializing SimpleOS...\n",
  "Initializing memory management...\n",
  "Memory management initialized.\n",
  "Initializing interrupt handling...\n",
  "Interrupt handling initialized.\n",
  "Initializing file system...\n",
  "File system initialized.\n",
  "Initializing process management...\n",
  "Process management initialized.\n",
  "Creating example process...\n",
  "Example process created with PID: ",
  "0",
  "\n",
  "Kernel initialization complete.\n",
  "Starting process scheduler...\n"]

def log : List Byte := messages.flatMap fun str => str.toList.map ascii

/-- Messages one after the other. -/
theorem print_flatMap (strs : List String) (s : Console.Legacy.State) :
    print (strs.flatMap fun str => str.toList.map ascii) s =
      strs.foldl (fun s str => print (str.toList.map ascii) s) s :=
  List.foldl_flatMap

theorem foldl_advance_message {p q r : Cursor} {cs : List Char} {strs : List String}
    (here : (cs.map ascii).foldl (advance (ascii '\n') 80) p = q)
    (later : (strs.flatMap fun str => str.toList.map ascii).foldl (advance (ascii '\n') 80) q = r) :
    ((String.ofList cs :: strs).flatMap fun str => str.toList.map ascii).foldl
      (advance (ascii '\n') 80) p = r := by
  rw [List.flatMap_cons, List.foldl_append, String.toList_ofList, here, later]

/-- The log takes 13 rows. -/
theorem rows_log : rows (ascii '\n') 80 log = 13 := by
  have last : log.foldl (advance (ascii '\n') 80) ⟨0, 0⟩ = ⟨0, 13⟩ := by
    rw [log, messages]
    iterate 15 refine foldl_advance_message rfl ?_
    decide +kernel
  rw [← foldl_advance_row (by decide), last]

theorem message_ascii {cs : List Char} (plain : cs.all (·.toNat < 0x80)) :
    ∀ c ∈ (String.ofList cs).toList.map ascii, c < 0x80#8 := by
  intro c mem
  rw [String.toList_ofList] at mem
  obtain ⟨c, here, rfl⟩ := List.mem_map.mp mem
  have small : c.toNat < 0x80 := by simpa using List.all_eq_true.mp plain c here
  rw [BitVec.lt_def, ascii, BitVec.toNat_ofNat]
  exact (Nat.mod_le _ _).trans_lt small

theorem log_ascii : ∀ c ∈ log, c < 0x80#8 := by
  have each : ∀ str ∈ messages, ∀ c ∈ str.toList.map ascii, c < 0x80#8 := by
    rw [messages]
    iterate 15 refine List.forall_mem_cons.mpr ⟨message_ascii rfl, ?_⟩
    exact List.forall_mem_nil _
  intro c mem
  obtain ⟨str, among, here⟩ := List.mem_flatMap.mp mem
  exact each str among c here

/-- An ASCII text that does not fill the rows of the screen is printed safely. -/
theorem printsSafely_of_rows_lt (video : LoggedArray ℤ (BitVec 16)) {text : List Byte}
    (plain : ∀ c ∈ text, c < 0x80#8) (short : rows (ascii '\n') 80 text < 25) :
    PrintsSafely video text := by
  intro pre c sub
  have width : 0 < 80 := by decide
  have before : rows (ascii '\n') 80 pre < 25 :=
    (rows_mono width ((List.prefix_append pre [c]).trans sub)).trans_lt short
  obtain ⟨cursor, here, row⟩ := Console.Legacy.exists_at video pre
  rw [← row] at before
  by_cases ends : c = ascii '\n'
  · rw [ends, Console.Legacy.putSafely_lineEnd_iff here]
    omega
  · rw [Console.Legacy.putSafely_printable_iff here ends]
    exact ⟨plain c (sub.subset (by simp)), before⟩

/-! ### The video memory -/

theorem putchar_stores_append (c : Byte) (s : Console.Legacy.State) :
    (putchar c s).video.stores =
      (putchar c { s with video := s.video.forget }).video.stores ++ s.video.stores := by
  unfold putchar
  by_cases ends : c = ascii '\n'
  · rw [if_pos ends, if_pos ends]
    rfl
  · rw [if_neg ends, if_neg ends]
    dsimp only
    split <;> rfl

/-- What is printed safely stays on the screen. -/
theorem print_within {video : LoggedArray ℤ (BitVec 16)} (within : video.Within OnScreen)
    {text : List Byte} (safe : PrintsSafely video text) :
    (print text (initial video)).video.Within OnScreen := by
  induction text using List.reverseRecOn with
  | nil => exact within
  | append_singleton front c ih =>
      have before := ih fun pre d sub => safe pre d (sub.trans (List.prefix_append front [c]))
      have last := (safe front c (List.prefix_refl _)).stores
      have whole : print (front ++ [c]) (initial video) = putchar c (print front (initial video)) :=
        List.foldl_append
      rw [whole]
      intro i mem
      rw [putchar_stores_append] at mem
      rcases List.mem_append.mp mem with here | earlier
      · exact last i here
      · exact before i earlier

theorem clearVideo_within {video : LoggedArray ℤ (BitVec 16)} (within : video.Within OnScreen) :
    (clearVideo video).Within OnScreen := by
  refine CountedLoop.forRange_invariant
    (I := fun video : LoggedArray ℤ (BitVec 16) => video.Within OnScreen)
    (fun i video _ below before => before.store ⟨?_, ?_⟩ _) within
  · exact Int.natCast_nonneg i
  · exact_mod_cast below

/-! ### No process -/

variable (M : PageAllocator Memory.State)

section Fresh

variable {k : Table Memory.State} (fresh : k = ProcessTable.init k)

include fresh

/-- After `Process::init` a creation finds no slot. -/
theorem createProcess_of_fresh (entryPoint : Word) :
    ProcessTable.createProcess M entryPoint k = (0#32, k) := by
  refine ProcessTable.createProcess_of_none M entryPoint (ProcessTable.takenSlot_eq_none ?_)
  rw [fresh]
  intro i
  show ProcessTable.Process.zeroed.state ≠ _
  decide

/-- And the scheduler finds no process. -/
theorem schedule_of_fresh (cpu : Cpu) : ProcessTable.schedule cpu k = (k, cpu) := by
  rw [ProcessTable.schedule, if_pos]
  rw [fresh]
  rfl

end Fresh

theorem scheduler_of_fresh {s : State} (fresh : s.table = ProcessTable.init s.table) (n : ℕ)
    (cpu : Cpu) : scheduler n cpu s = (s, cpu) := by
  have round : schedulerRound cpu s = (s, cpu) := by
    rw [schedulerRound, schedule_of_fresh fresh]
    rfl
  induction n with
  | zero => rfl
  | succ n ih =>
      rw [scheduler, round]
      exact ih

/-! ### What a call leaves alone -/

section Parts

variable (str : String) (s : State)

theorem console_say : (say M str s).console = print (str.toList.map ascii) s.console := by
  rw [say, step]

theorem table_say : (say M str s).table = s.table := by
  rw [say, step]
  rfl

theorem files_say : (say M str s).files = s.files := by
  rw [say, step]
  rfl

theorem interrupts_say : (say M str s).interrupts = s.interrupts := by
  rw [say, step]

/-- What an initialisation does to the parts of the state. -/
theorem step_memoryInit :
    (step M s .memoryInit).console = s.console ∧
    (step M s .memoryInit).files = { s.files with memory := Memory.init s.files.memory } ∧
    (step M s .memoryInit).interrupts = s.interrupts := by
  rw [step]
  exact ⟨rfl, rfl, rfl⟩

theorem step_interruptInit :
    (step M s .interruptInit).console = s.console ∧
    (step M s .interruptInit).files = s.files ∧
    (step M s .interruptInit).interrupts = Interrupt.init s.interrupts := by
  rw [step]
  exact ⟨rfl, rfl, rfl⟩

theorem step_fileSystemInit :
    (step M s .fileSystemInit).console = s.console ∧
    (step M s .fileSystemInit).files = FileSystem.init s.files ∧
    (step M s .fileSystemInit).interrupts = s.interrupts := by
  rw [step]
  exact ⟨rfl, rfl, rfl⟩

theorem step_processInit :
    (step M s .processInit).console = s.console ∧
    (step M s .processInit).files = s.files ∧
    (step M s .processInit).interrupts = s.interrupts ∧
    (step M s .processInit).table = ProcessTable.init s.table := by
  rw [step]
  exact ⟨rfl, rfl, rfl, rfl⟩

/-- With a table as `Process::init` leaves it, the pid 0 is reported, and nothing else happens. -/
theorem createExample_of_fresh {s : State} (fresh : s.table = ProcessTable.init s.table)
    (exampleProcess : Word) :
    createExample M exampleProcess s =
      say M "\n" (say M "0" (say M "Example process created with PID: "
        (say M "Creating example process...\n" s))) := by
  have own (s : State) : s.withTable s.table = s := rfl
  have zero (s : State) : step M s (.printNumber 0#32) = say M "0" s := rfl
  rw [createExample, createProcess_of_fresh M (by rw [table_say]; exact fresh)]
  dsimp only
  rw [own, zero]

end Parts

/-! ### `kernel_main` -/

/-- What `kernel_main` leaves behind when it reaches its loop. -/
structure Started (s s' : State) : Prop where
  console : s'.console = print log (initial (clearVideo s.console.video))
  files : s'.files = FileSystem.init { s.files with memory := Memory.init s.memory }
  interrupts : s'.interrupts = Interrupt.init s.interrupts
  table : s'.table = ProcessTable.init s'.table

theorem table_setUp (s : State) : (setUp M s).table = ProcessTable.init (setUp M s).table := by
  have again (k : Table Memory.State) :
      ProcessTable.init (ProcessTable.init k) = ProcessTable.init k := rfl
  simp only [setUp, announced, table_say, step_processInit, again]

theorem started_kernelMain (exampleProcess : Word) {s : State}
    (cursor : s.console = initial s.console.video) :
    Started s (kernelMain M exampleProcess s) := by
  have fresh := table_setUp M s
  rw [kernelMain, createExample_of_fresh M fresh]
  constructor
  · rw [log, print_flatMap, messages]
    simp only [setUp, announced, console_say, step_memoryInit, step_interruptInit,
      step_fileSystemInit, step_processInit, List.foldl_cons, List.foldl_nil]
    rw [cursor]
    rfl
  · simp only [setUp, announced, files_say, step_memoryInit, step_interruptInit,
      step_fileSystemInit, step_processInit]
    rfl
  · simp only [setUp, announced, interrupts_say, step_memoryInit, step_interruptInit,
      step_fileSystemInit, step_processInit]
  · simp only [table_say]
    exact fresh

end ModernOS.SimpleOS
