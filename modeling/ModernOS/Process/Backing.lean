import ModernOS.Memory.Backing
import ModernOS.Process.AddressSpace
import ModernOS.Process.Pids

/-!
Whether the memory of a process is backed by pages.

`allocate_process_memory` is given a size in bytes and asks for one page, whatever the size; it
adds the size to `memory_size` without a look at its range. `create_process` asks for 4 MB for a
process that it has said to have 4 MB already, and puts the stack at the end of the 8 MB.
-/

namespace ModernOS.ProcessTable

open SlotTable Memory

/-! ### `allocate_process_memory` -/

/-- `memory_size` has grown by the size, and every page of the range is translated to a page of
its own that the allocator gave out during the call. -/
structure Backed (k k' : Table Memory.State) (i : Slot) (size : Word) : Prop where
  grown : (k'.processes i).memorySize.toNat = (k.processes i).memorySize.toNat + size.toNat
  pages : PagesBacked k.memory k'.memory (k.processes i).memorySize (size.toNat / PAGE_SIZE)

/-- If the allocation for the process in slot `i` succeeds, its range is backed. -/
def AllocationBacked (k : Table Memory.State) (pid size : Word) (i : Slot) : Prop :=
  (allocateProcessMemory kernelPages pid size k).1 = true →
    Backed k (allocateProcessMemory kernelPages pid size k).2 i size

/-- The range does not wrap, and it is empty, or one page, or two pages whose second one is
translated to the page that becomes the table of the first. -/
structure OnePageSuffices (s : Memory.State) (memorySize size : Word) : Prop where
  fits : memorySize.toNat + size.toNat < 2 ^ 32
  pages : size = 0#32 ∨ size = 4096#32 ∨ size = 8192#32 ∧ ∃ t, newTable s memorySize = some t ∧
    leftTranslation s memorySize (memorySize + 4096#32) = some (frameOf (pageAddr t))

variable {μ : Type}

section Allocation

variable {k : Table Memory.State} {pid size : Word} {i : Slot}

theorem allocateProcessMemory_of_null (found : getProcess pid k = some i)
    (null : (allocatePage k.memory).1 = 0#32) :
    (allocateProcessMemory kernelPages pid size k).1 = false := by
  rw [allocateProcessMemory, found]
  exact congrArg Prod.fst (if_pos null)

theorem allocateProcessMemory_of_page (found : getProcess pid k = some i)
    (page : (allocatePage k.memory).1 ≠ 0#32) :
    allocateProcessMemory kernelPages pid size k =
      (true, { k with memory := allocateAt (k.processes i).memorySize k.memory }.modify i
        fun p => { p with memorySize := p.memorySize + size }) := by
  rw [allocateProcessMemory, found]
  exact if_neg page

/-- A successful allocation in terms of the memory it leaves. -/
theorem backed_iff (found : getProcess pid k = some i) (page : (allocatePage k.memory).1 ≠ 0#32) :
    Backed k (allocateProcessMemory kernelPages pid size k).2 i size ↔
      (k.processes i).memorySize.toNat + size.toNat < 2 ^ 32 ∧
      PagesBacked k.memory (allocateAt (k.processes i).memorySize k.memory)
        (k.processes i).memorySize (size.toNat / PAGE_SIZE) := by
  have grown : (k.processes i).memorySize.toNat + size.toNat < 2 ^ 32 ↔
      ((k.processes i).memorySize + size).toNat =
        (k.processes i).memorySize.toNat + size.toNat := by
    rw [BitVec.toNat_add]
    omega
  rw [allocateProcessMemory_of_page found page, grown]
  constructor
  · rintro ⟨size, pages⟩
    rw [Table.modify_processes_self] at size
    exact ⟨size, pages⟩
  · rintro ⟨size, pages⟩
    refine ⟨?_, pages⟩
    rw [Table.modify_processes_self]
    exact size

theorem allocationBacked_iff_suffices (wf : DirectoryWellFormed k.memory)
    (bounded : k.memory.totalPages ≤ 2 ^ 20) (found : getProcess pid k = some i)
    (whole : PAGE_SIZE ∣ size.toNat)
    (room : size.toNat / PAGE_SIZE + 1 ≤ (freePages k.memory).card) :
    AllocationBacked k pid size i ↔
      ((allocatePage k.memory).1 ≠ 0#32 →
        OnePageSuffices k.memory (k.processes i).memorySize size) := by
  by_cases page : (allocatePage k.memory).1 = 0#32
  · refine iff_of_true (fun granted => ?_) fun some => absurd page some
    rw [allocateProcessMemory_of_null found page] at granted
    cases granted
  have granted : (allocateProcessMemory kernelPages pid size k).1 = true := by
    rw [allocateProcessMemory_of_page found page]
  have count (n : ℕ) (small : n * PAGE_SIZE < 2 ^ 32) :
      size.toNat / PAGE_SIZE = n ↔ size = BitVec.ofNat 32 (n * PAGE_SIZE) := by
    rw [← BitVec.toNat_inj, BitVec.toNat_ofNat, Nat.mod_eq_of_lt small,
      Nat.div_eq_iff_eq_mul_left (by decide) whole]
  have pages : PagesBacked k.memory (allocateAt (k.processes i).memorySize k.memory)
      (k.processes i).memorySize (size.toNat / PAGE_SIZE) ↔
      size = 0#32 ∨ size = 4096#32 ∨ size = 8192#32 ∧
        ∃ t, newTable k.memory (k.processes i).memorySize = some t ∧
          leftTranslation k.memory (k.processes i).memorySize
            ((k.processes i).memorySize + 4096#32) = some (frameOf (pageAddr t)) := by
    by_cases empty : size.toNat / PAGE_SIZE = 0
    · rw [empty]
      exact iff_of_true (pagesBacked_zero ..) (Or.inl ((count 0 (by decide)).mp empty))
    · obtain ⟨p, next⟩ := exists_firstFree_of_card ((Nat.succ_pos _).trans_le room)
      have two : 2 ≤ (freePages k.memory).card :=
        (Nat.succ_le_succ (Nat.pos_of_ne_zero empty)).trans room
      rw [(givenTo_allocateAt wf next bounded two _).pagesBacked_iff bounded,
        count 0 (by decide), count 1 (by decide), count 2 (by decide)]
      rfl
  rw [AllocationBacked, backed_iff found page, pages]
  constructor
  · rintro backed -
    obtain ⟨fits, small⟩ := backed granted
    exact ⟨fits, small⟩
  · intro enough _
    obtain ⟨fits, small⟩ := enough page
    exact ⟨fits, small⟩

end Allocation

/-! ### The initial stack -/

/-- If the creation that takes slot `i` returns a pid, the stack pointer of the process is
translated to a page that the allocator gave out during the call. -/
def StackBacked (k : Table Memory.State) (entryPoint : Word) (i : Slot) : Prop :=
  (createProcess kernelPages entryPoint k).1 ≠ 0#32 →
    ∃ j, j ∈ freePages k.memory ∧
      j ∉ freePages (createProcess kernelPages entryPoint k).2.memory ∧
      translate (createProcess kernelPages entryPoint k).2.memory
        ((createProcess kernelPages entryPoint k).2.processes i).esp =
          some (frameOf (pageAddr j))

/-- The stack pointer of a process created in slot `i`: 16 below the 8 MB of its record, or below
4 MB if an earlier record has the pid and is given the memory in its place. -/
def stackAt (k : Table μ) (i : Slot) : Word :=
  if ∃ j < i, (k.processes j).pid = k.nextPid then 0x3FFFF0#32 else 0x7FFFF0#32

/-- The stack pointer lies in the page that the creation maps, or is translated already, or by the
word that the page of a new table holds, to a page that the creation gets. -/
def StackFound (k : Table Memory.State) (i : Slot) : Prop :=
  pageIdx (stackAt k i) = pageIdx (mappedAt k) ∨
    ∃ j, (firstFree k.memory = some j ∨ newTable k.memory (mappedAt k) = some j) ∧
      leftTranslation k.memory (mappedAt k) (stackAt k i) = some (frameOf (pageAddr j))

section Creation

variable {k : Table Memory.State} {entryPoint : Word} {i : Slot}

theorem createProcess_esp (taken : takenSlot k = some i)
    (success : (createProcess kernelPages entryPoint k).1 ≠ 0#32) :
    ((createProcess kernelPages entryPoint k).2.processes i).esp = stackAt k i := by
  obtain ⟨page, -⟩ := createProcess_memory success
  obtain ⟨j, found, -⟩ := getProcess_initProcess entryPoint taken
  have pid : ((initProcess entryPoint i k).processes i).pid = k.nextPid := by
    rw [initProcess_self]
  have earlier (l : Slot) (below : l < i) :
      ((initProcess entryPoint i k).processes l).pid = (k.processes l).pid := by
    rw [initProcess_of_ne below.ne]
  obtain ⟨named, lowest⟩ := getProcess_eq_some.mp found
  rw [createProcess_eq kernelPages entryPoint taken, askMemory,
    allocateProcessMemory_of_page found page, if_pos rfl, stackAt]
  by_cases own : j = i
  · have none : ¬ ∃ l < i, (k.processes l).pid = k.nextPid := by
      rintro ⟨l, below, same⟩
      exact lowest l (own ▸ below) ((earlier l below).trans same)
    rw [if_neg none, own]
    simp [setUpStack]
  · have below : j < i := lt_of_le_of_ne (not_lt.mp fun above => lowest i above pid) own
    rw [if_pos ⟨j, below, (earlier j below).symm.trans named⟩]
    simp [setUpStack, Table.modify_processes_of_ne _ _ _ (Ne.symm own)]

theorem stackBacked_iff_found (wf : DirectoryWellFormed k.memory)
    (bounded : k.memory.totalPages ≤ 2 ^ 20) (room : 2 ≤ (freePages k.memory).card)
    (taken : takenSlot k = some i) :
    StackBacked k entryPoint i ↔
      ((allocatePage k.memory).1 ≠ 0#32 → k.nextPid ≠ 0#32 → StackFound k i) := by
  have returns : (createProcess kernelPages entryPoint k).1 ≠ 0#32 ↔
      (allocatePage k.memory).1 ≠ 0#32 ∧ k.nextPid ≠ 0#32 :=
    (createProcess_of_some kernelPages entryPoint taken).returns_ne_zero_iff
  rw [← and_imp, ← returns, StackBacked]
  refine imp_congr_right fun success => ?_
  obtain ⟨p, next⟩ := exists_firstFree_of_card (Nat.zero_lt_two.trans_le room)
  have given := givenTo_allocateAt wf next bounded room (mappedAt k)
  have memory : (createProcess kernelPages entryPoint k).2.memory =
      allocateAt (mappedAt k) k.memory := (createProcess_memory success).2
  rw [memory, createProcess_esp taken success, given.translates, StackFound, next]
  simp only [← and_assoc, given.taken, Option.some.injEq, eq_comm (a := p)]
  split
  · rename_i same
    exact iff_of_true ⟨p, Or.inl rfl, rfl⟩ (Or.inl same)
  · rename_i apart
    exact (or_iff_right apart).symm

end Creation

/-- Clear memory: an empty directory in page 1, and six free pages from page 2 on. -/
def sixPages : Memory.State := ⟨fun _ => 0#32, fun _ => 3#32, 8, 4096#32⟩

theorem sixPages_wellFormed : DirectoryWellFormed sixPages := by
  have absent (v : Word) : (dirEntry sixPages v).present ≠ 1#1 := by
    show Entry.present 0#32 ≠ 1#1
    decide
  exact {
    aligned := show PageAligned 4096#32 by decide
    directoryUsed := show pageUsed (fun _ => 3#32) (pageOf 4096#32) = true by decide
    tablesUsed := fun v present => absurd present (absent v)
    tablesApart := fun v present => absurd present (absent v)
    distinct := fun u _ present => absurd present (absent u) }

/-- One process, with 4 MB of memory, in a table over those pages. -/
def onSixPages : Table Memory.State where
  processes := fun i =>
    if i.val = 0 then ⟨1#32, .ready, 0x100#32, 0#32, 0#32, 0x400000#32, 0#32⟩
    else { Process.zeroed with state := .terminated }
  processCount := 1#32
  nextPid := 2#32
  currentProcess := none
  memory := sixPages

end ModernOS.ProcessTable
