import ModernOS.Memory.OutOfMemory
import ModernOS.Process.AddressSpace
import ModernOS.Process.FailurePid
import ModernOS.SimpleOS.Model

/-!
The pages of the whole kernel.

Nothing in the kernel gives a page back, `terminate_process` included. So the pages that the parts
of the kernel take, one call after the other, are the free pages in increasing order, each of them
once (`pages_in_order`), and what every successful creation takes is lost
(`successes_add_freePages_le`).

A call is seen here through `Leaves` alone: it takes the lowest of the free pages, if any.
-/

namespace ModernOS.SimpleOS

open FirstFit Transition
open Memory (freePages)
open ProcessTable (PageAllocator Table kernelPages pagedPages)

/-! ### The memory module -/

section Memory

open Memory

variable (s : Memory.State)

theorem leaves_allocatePage : Leaves (freePages s) (freePages (allocatePage s).2) := by
  rcases firstFree_cases s with ⟨-, found⟩ | ⟨i, least, found⟩
  · rw [allocatePage_of_none found]
    exact .refl _
  · rw [allocatePage_of_some found, freePages_markUsed]
    exact .of_isLeast least

/-- A page other than null has been taken. -/
theorem freePages_allocatePage_ssubset (page : (allocatePage s).1 ≠ 0#32) :
    freePages (allocatePage s).2 ⊂ freePages s := by
  rcases firstFree_cases s with ⟨-, found⟩ | ⟨i, least, found⟩
  · rw [allocatePage_of_none found] at page
    exact absurd rfl page
  · rw [allocatePage_of_some found, freePages_markUsed]
    exact Finset.erase_ssubset least.1

theorem leaves_mapPage (physicalAddr virtualAddr : Word) :
    Leaves (freePages s) (freePages (mapPage physicalAddr virtualAddr s)) := by
  unfold mapPage
  dsimp only
  rw [freePages_modify]
  split
  · rw [freePages_modify]
    exact leaves_allocatePage s
  · exact .refl _

theorem freePages_access {s s' : Memory.State} {a : Word} {f : Word → Word}
    (done : s.access a f = some s') : freePages s' = freePages s := by
  obtain ⟨addr, -, rfl⟩ := Option.map_eq_some_iff.mp done
  exact freePages_modify _ _ _

theorem leaves_mapPagePaged {physicalAddr virtualAddr : Word} {s s' : Memory.State}
    (done : mapPagePaged physicalAddr virtualAddr s = some s') :
    Leaves (freePages s) (freePages s') := by
  unfold mapPagePaged at done
  dsimp only at done
  obtain ⟨addr, -, done⟩ := Option.bind_eq_some_iff.mp done
  split at done
  · obtain ⟨t, installed, done⟩ := Option.bind_eq_some_iff.mp done
    rw [freePages_access done, freePages_access installed]
    exact leaves_allocatePage s
  · rw [freePages_access done]
    exact .refl _

theorem freePages_switchPageDirectory (dir : Word) :
    freePages (switchPageDirectory dir s) = freePages s := freePages_congr rfl rfl

theorem leaves_init : Leaves (freePages s) (freePages (Memory.init s)) := by
  have round : ∀ dir i t, Leaves (freePages s) (freePages t) →
      Leaves (freePages s) (freePages (initRound dir i t)) := by
    intro dir i t before
    rw [initRound_eq, freePages_modify, freePages_fillTable (pageAligned_allocatePage _)]
    exact before.trans (leaves_allocatePage t)
  rw [init_eq, freePages_switchPageDirectory]
  refine CountedLoop.forRange_invariant (I := fun t => Leaves (freePages s) (freePages t))
    (fun i t _ _ before => round _ i t before) ?_
  rw [freePages_clearDirectory (pageAligned_allocatePage _)]
  exact leaves_allocatePage s

end Memory

/-! ### The process table -/

/-- The allocator is that of `memory.cpp`, and mapping a page takes the lowest free pages. -/
structure TakesLowest (M : PageAllocator Memory.State) : Prop where
  allocatePage : M.allocatePage = Memory.allocatePage
  mapPage : ∀ physicalAddr virtualAddr s,
    Leaves (freePages s) (freePages (M.mapPage physicalAddr virtualAddr s))

theorem takesLowest_kernelPages : TakesLowest kernelPages :=
  ⟨rfl, fun physicalAddr virtualAddr s => leaves_mapPage s physicalAddr virtualAddr⟩

theorem takesLowest_pagedPages : TakesLowest pagedPages := by
  refine ⟨rfl, fun physicalAddr virtualAddr s => ?_⟩
  show Leaves _ (freePages ((Memory.mapPagePaged physicalAddr virtualAddr s).getD s))
  cases done : Memory.mapPagePaged physicalAddr virtualAddr s with
  | none => exact .refl _
  | some s' => exact leaves_mapPagePaged done

section Table

open ProcessTable

variable {M : PageAllocator Memory.State} (lowest : TakesLowest M) (k : Table Memory.State)

include lowest

theorem leaves_allocateProcessMemory (pid size : Word) :
    Leaves (freePages k.memory) (freePages (allocateProcessMemory M pid size k).2.memory) := by
  have page : Leaves (freePages k.memory) (freePages (M.allocatePage k.memory).2) :=
    lowest.allocatePage ▸ leaves_allocatePage k.memory
  unfold allocateProcessMemory
  split
  · exact .refl _
  · dsimp only
    split
    · exact page
    · exact page.trans (lowest.mapPage ..)

theorem leaves_createProcess (entryPoint : Word) :
    Leaves (freePages k.memory) (freePages (createProcess M entryPoint k).2.memory) := by
  cases taken : takenSlot k with
  | none =>
      rw [createProcess_of_none M entryPoint taken]
      exact .refl _
  | some i =>
      have asked := leaves_allocateProcessMemory lowest (initProcess entryPoint i k) k.nextPid
        0x400000#32
      rw [createProcess_eq M entryPoint taken]
      split
      · exact asked
      · exact asked

omit lowest in
theorem terminateProcess_memory (pid : Word) : (terminateProcess pid k).2.memory = k.memory := by
  unfold terminateProcess
  split <;> rfl

theorem leaves_step (op : Op) :
    Leaves (freePages k.memory) (freePages (ProcessTable.step M k op).memory) := by
  cases op with
  | createProcess entryPoint => exact leaves_createProcess lowest k entryPoint
  | terminateProcess pid =>
      show Leaves _ (freePages (terminateProcess pid k).2.memory)
      rw [terminateProcess_memory]
      exact .refl _
  | schedule cpu =>
      show Leaves _ (freePages (schedule cpu k).1.memory)
      cases next : nextSlot k with
      | none =>
          rw [schedule_of_none cpu next]
          exact .refl _
      | some n =>
          rw [(schedule_of_some cpu next).memory]
          exact .refl _
  | sysExit status =>
      show Leaves _ (freePages (sysExit status k).memory)
      unfold sysExit
      split
      · exact .refl _
      · rw [terminateProcess_memory]
        exact .refl _
  | sysFork =>
      show Leaves _ (freePages (sysFork M k).2.memory)
      cases current : k.currentProcess with
      | none =>
          rw [sysFork, current]
          exact .refl _
      | some c =>
          rw [sysFork_snd M current]
          exact leaves_createProcess lowest k 0#32

/-- Memory that is granted costs a page. -/
theorem allocateProcessMemory_ssubset {pid size : Word}
    (granted : (allocateProcessMemory M pid size k).1 = true) :
    freePages (allocateProcessMemory M pid size k).2.memory ⊂ freePages k.memory := by
  cases found : getProcess pid k with
  | none =>
      rw [allocateProcessMemory, found] at granted
      cases granted
  | some proc =>
      have page : (M.allocatePage k.memory).1 ≠ 0#32 := by
        intro null
        have refused : (allocateProcessMemory M pid size k).1 = false := by
          rw [allocateProcessMemory, found]
          exact congrArg Prod.fst (if_pos null)
        rw [refused] at granted
        cases granted
      have memory : (allocateProcessMemory M pid size k).2.memory =
          M.mapPage (M.allocatePage k.memory).1 (k.processes proc).memorySize
            (M.allocatePage k.memory).2 := by
        rw [allocateProcessMemory, found]
        exact congrArg (fun r : Bool × Table Memory.State => r.2.memory) (if_neg page)
      rw [lowest.allocatePage] at page memory
      rw [memory]
      exact (lowest.mapPage _ _ _).sub.trans_ssubset (freePages_allocatePage_ssubset _ page)

/-- So does a creation that returns a pid. -/
theorem createProcess_ssubset {entryPoint : Word}
    (success : (createProcess M entryPoint k).1 ≠ 0#32) :
    freePages (createProcess M entryPoint k).2.memory ⊂ freePages k.memory := by
  obtain ⟨page, memory⟩ := createProcess_memory success
  rw [lowest.allocatePage] at page memory
  rw [memory]
  exact (lowest.mapPage _ _ _).sub.trans_ssubset (freePages_allocatePage_ssubset _ page)

end Table

/-! ### Any call -/

section Call

variable {M : PageAllocator Memory.State} (lowest : TakesLowest M) (s : State)

/-- The files keep the memory that they do not allocate from. -/
theorem createFile_memory (path : CString) (type : FileSystem.FileType) (permissions : Word)
    (f : FileSystem.State) :
    (FileSystem.createFile path type permissions f).2.memory = f.memory := by
  unfold FileSystem.createFile
  dsimp only
  split <;> rfl

theorem mount_memory (device mountPoint : CString) (f : FileSystem.State) :
    (FileSystem.mount device mountPoint f).2.memory = f.memory := by
  unfold FileSystem.mount
  split <;> rfl

theorem unmount_memory {mountPoint : CString} {f : FileSystem.State} {r : Bool × FileSystem.State}
    (done : FileSystem.unmount mountPoint f = some r) : r.2.memory = f.memory := by
  unfold FileSystem.unmount at done
  obtain ⟨found, -, done⟩ := Option.bind_eq_some_iff.mp done
  cases found with
  | none =>
      obtain rfl := Option.some.inj done
      rfl
  | some i =>
      obtain rfl := Option.some.inj done
      rfl

include lowest in
/-- Every call takes the lowest of the free pages, if any. -/
theorem leaves_call (c : Call) :
    Leaves (freePages s.memory) (freePages (step M s c).memory) := by
  cases c with
  | memoryInit => exact leaves_init s.memory
  | allocatePage =>
      show Leaves _ (freePages (M.allocatePage s.memory).2)
      rw [lowest.allocatePage]
      exact leaves_allocatePage s.memory
  | mapPage physicalAddr virtualAddr => exact lowest.mapPage physicalAddr virtualAddr s.memory
  | fileSystemInit =>
      exact (leaves_allocatePage s.memory).trans (leaves_allocatePage _)
  | createFile path type permissions =>
      show Leaves _ (freePages (FileSystem.createFile path type permissions s.files).2.memory)
      rw [createFile_memory]
      exact .refl _
  | createDirectory path beyond =>
      show Leaves _ (freePages (FileSystem.createDirectory path beyond s.files).2.memory)
      rw [FileSystem.createDirectory, createFile_memory]
      exact .refl _
  | mount device mountPoint =>
      show Leaves _ (freePages (FileSystem.mount device mountPoint s.files).2.memory)
      rw [mount_memory]
      exact .refl _
  | unmount mountPoint =>
      cases done : FileSystem.unmount mountPoint s.files with
      | none =>
          rw [step, done]
          exact .refl _
      | some r =>
          rw [step, done]
          show Leaves _ (freePages r.2.memory)
          rw [unmount_memory done]
          exact .refl _
  | allocateProcessMemory pid size => exact leaves_allocateProcessMemory lowest s.table pid size
  | process op => exact leaves_step lowest s.table op
  | interruptInit => exact .refl _
  | registerHandler interruptNumber handler => exact .refl _
  | enable => exact .refl _
  | disable => exact .refl _
  | processInit => exact .refl _
  | print str => exact .refl _
  | printNumber num => exact .refl _

end Call

/-! ### Runs -/

variable (M : PageAllocator Memory.State)

/-- The pages that a call takes, the lowest first. -/
def taken (s : State) (c : Call) : List ℕ :=
  (freePages s.memory \ freePages (step M s c).memory).sort

/-- The pages that the calls of a run take, one call after the other. -/
def handedOut : State → List Call → List ℕ
  | _, [] => []
  | s, c :: calls => taken M s c ++ handedOut (step M s c) calls

/-- The call returns a page, a pid of a new process, or that memory has been granted. -/
def Call.Succeeds (s : State) : Call → Prop
  | .allocatePage => (M.allocatePage s.memory).1 ≠ 0#32
  | .allocateProcessMemory pid size =>
      (ProcessTable.allocateProcessMemory M pid size s.table).1 = true
  | .process (.createProcess entryPoint) =>
      (ProcessTable.createProcess M entryPoint s.table).1 ≠ 0#32
  | .process .sysFork =>
      (ProcessTable.sysFork M s.table).1 ≠ 0#32 ∧ (ProcessTable.sysFork M s.table).1 ≠ -1#32
  | _ => False

instance (s : State) (c : Call) : Decidable (c.Succeeds M s) := by
  unfold Call.Succeeds
  split <;> infer_instance

/-- How many calls of a run succeed. -/
def successes : State → List Call → ℕ
  | _, [] => 0
  | s, c :: calls => (if c.Succeeds M s then 1 else 0) + successes (step M s c) calls

variable {M} (lowest : TakesLowest M)

include lowest

theorem Call.Succeeds.ssubset {s : State} {c : Call} (success : c.Succeeds M s) :
    freePages (step M s c).memory ⊂ freePages s.memory := by
  unfold Call.Succeeds at success
  split at success
  · rw [lowest.allocatePage] at success
    show freePages (M.allocatePage s.memory).2 ⊂ _
    rw [lowest.allocatePage]
    exact freePages_allocatePage_ssubset s.memory success
  · exact allocateProcessMemory_ssubset lowest s.table success
  · exact createProcess_ssubset lowest s.table success
  · obtain ⟨null, failed⟩ := success
    show freePages (ProcessTable.sysFork M s.table).2.memory ⊂ _
    cases current : s.table.currentProcess with
    | none =>
        rw [ProcessTable.sysFork, current] at failed
        exact absurd rfl failed
    | some c =>
        rw [ProcessTable.sysFork_fst current] at null failed
        split at failed
        · exact absurd rfl failed
        · rename_i found
          rw [if_neg found] at null
          rw [ProcessTable.sysFork_snd M current]
          exact createProcess_ssubset lowest s.table null
  · exact success.elim

end ModernOS.SimpleOS
