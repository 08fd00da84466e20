import Mathlib.Data.Finset.Card
import ModernOS.FileSystem.Model
import ModernOS.Lib.Transition
import ModernOS.Memory.Allocator

/-!
The inodes that `create_file` and `create_directory` take.

An inode is free when its `type` is zero, and the type of a new file is written into the same
field. So a file of type `Unknown`, whose code is zero, leaves its inode free, and the next call
takes it again: no inode is shared exactly when no such call finds a free inode
(`inodesUnshared_iff`). The number of inodes is the static variable `total_inodes`, which no
code sets, so that no file is ever created after `init` (`holdsFiles_iff`).
-/

namespace ModernOS.FileSystem

open Transition CString

/-- A call that creates a file or a directory. -/
inductive Creation where
  | file (path : CString) (type : FileType) (permissions : Word)
  | directory (path : CString) (beyond : BitVec 8)
  deriving DecidableEq

/-- The type that is written into the inode. -/
def Creation.type : Creation → FileType
  | .file _ type _ => type
  | .directory _ _ => .directory

/-- What a call returns, and the state it leaves. -/
def create (s : State) : Creation → Bool × State
  | .file path type permissions => createFile path type permissions s
  | .directory path beyond => createDirectory path beyond s

/-- The state after a call. -/
def afterCreate (s : State) (c : Creation) : State := (create s c).2

/-- The free inodes. -/
def freeInodes (s : State) : Finset ℕ :=
  (Finset.range s.totalInodes.toNat).filter fun i => (s.inodes i).type = 0#32

/-! ### One call -/

variable {s : State}

theorem mem_freeInodes {i : ℕ} :
    i ∈ freeInodes s ↔ i < s.totalInodes.toNat ∧ (s.inodes i).type = 0#32 := by
  rw [freeInodes, Finset.mem_filter, Finset.mem_range]

theorem firstFreeInode_eq_none : firstFreeInode s = none ↔ freeInodes s = ∅ := by
  rw [firstFreeInode, List.find?_eq_none, Finset.eq_empty_iff_forall_notMem]
  simp only [List.mem_range, decide_eq_true_eq, mem_freeInodes, not_and]

theorem mem_freeInodes_of_firstFree {i : ℕ} (found : firstFreeInode s = some i) :
    i ∈ freeInodes s := by
  have inside := List.mem_of_find?_eq_some found
  have free := List.find?_some found
  exact mem_freeInodes.mpr ⟨List.mem_range.mp inside, of_decide_eq_true free⟩

theorem findFreeInode_of_some {i : ℕ} (found : firstFreeInode s = some i) :
    findFreeInode s ≠ 0xFFFFFFFF#32 ∧ (findFreeInode s).toNat = i := by
  rw [findFreeInode, found]
  exact ofNat_index (mem_freeInodes.mp (mem_freeInodes_of_firstFree found)).1

theorem findFreeInode_of_none (none : firstFreeInode s = none) :
    findFreeInode s = 0xFFFFFFFF#32 := by
  rw [findFreeInode, none]

/-- `create_file` rewrites the free inode that it finds. -/
theorem createFile_of_some {i : ℕ} (found : firstFreeInode s = some i) (path : CString)
    (type : FileType) (permissions : Word) :
    createFile path type permissions s = (true, { s with
      inodes := Function.update s.inodes i
        ⟨0#32, fun _ => 0#32, permissions, type.code.setWidth 32⟩ }) := by
  obtain ⟨index, at_i⟩ := findFreeInode_of_some found
  rw [createFile, if_neg index, at_i]

theorem createFile_of_none (none : firstFreeInode s = none) (path : CString) (type : FileType)
    (permissions : Word) : createFile path type permissions s = (false, s) :=
  if_pos (findFreeInode_of_none none)

/-- A call that finds a free inode rewrites it. -/
theorem create_of_some {i : ℕ} (found : firstFreeInode s = some i) (c : Creation) :
    ∃ inode : Inode, inode.type = c.type.code.setWidth 32 ∧
      create s c = (true, { s with inodes := Function.update s.inodes i inode }) := by
  cases c with
  | file path type permissions => exact ⟨_, rfl, createFile_of_some found path type permissions⟩
  | directory path beyond => exact ⟨_, rfl, createFile_of_some found path .directory _⟩

theorem create_of_none (none : firstFreeInode s = none) (c : Creation) :
    create s c = (false, s) := by
  cases c with
  | file path type permissions => exact createFile_of_none none path type permissions
  | directory path beyond => exact createFile_of_none none path .directory _

theorem setWidth_eq_zero_iff {code : BitVec 8} : code.setWidth 32 = 0#32 ↔ code = 0#8 := by
  bv_omega

/-! ### Inodes are not shared -/

/-- A call that succeeds takes an inode that was free, leaves it not free and changes no other
one; a call that fails changes nothing. -/
structure TakesInode (s : State) (c : Creation) : Prop where
  succeeds : (create s c).1 = true → ∃ i < s.totalInodes.toNat,
    i = (findFreeInode s).toNat ∧ (s.inodes i).type = 0#32 ∧
      ((afterCreate s c).inodes i).type ≠ 0#32 ∧
      ∀ j, j ≠ i → (afterCreate s c).inodes j = s.inodes j
  fails : (create s c).1 = false → afterCreate s c = s

/-- The inodes that the calls take, one for each call that succeeds. -/
def takenInodes (s : State) : List Creation → List ℕ
  | [] => []
  | c :: cs =>
      if (create s c).1 then (findFreeInode s).toNat :: takenInodes (afterCreate s c) cs
      else takenInodes (afterCreate s c) cs

/-- Along the calls, no two files share an inode. -/
structure InodesUnshared (s : State) (calls : List Creation) : Prop where
  each : EveryStep afterCreate TakesInode s calls
  distinct : (takenInodes s calls).Nodup
  bounded : (takenInodes s calls).length ≤ (freeInodes s).card

/-- The call does not give the type zero to an inode. -/
def Creation.Marks (s : State) (c : Creation) : Prop := c.type.code = 0#8 → freeInodes s = ∅

theorem takesInode_iff_marks (s : State) (c : Creation) : TakesInode s c ↔ c.Marks s := by
  rw [Creation.Marks, ← firstFreeInode_eq_none]
  cases found : firstFreeInode s with
  | none =>
      have failed := create_of_none found c
      refine iff_of_true ⟨fun succeeded => ?_, fun _ => congrArg Prod.snd failed⟩ fun _ => rfl
      rw [failed] at succeeded
      cases succeeded
  | some i =>
      obtain ⟨inode, type, created⟩ := create_of_some found c
      obtain ⟨-, index⟩ := findFreeInode_of_some found
      have after : (afterCreate s c).inodes = Function.update s.inodes i inode :=
        congrArg (fun r => r.2.inodes) created
      constructor
      · intro takes zero
        obtain ⟨_, -, rfl, -, used, -⟩ := takes.succeeds (congrArg Prod.fst created)
        rw [after, index] at used
        refine absurd ?_ used
        rw [Function.update_self, type, zero]
        rfl
      · intro marks
        obtain ⟨inside, free⟩ := mem_freeInodes.mp (mem_freeInodes_of_firstFree found)
        refine ⟨fun _ => ⟨i, inside, index.symm, free, ?_, fun j apart => ?_⟩, fun failed => ?_⟩
        · rw [after, Function.update_self, type, ne_eq, setWidth_eq_zero_iff]
          exact fun zero => nomatch marks zero
        · rw [after]
          exact Function.update_of_ne apart ..
        · rw [created] at failed
          cases failed

/-- A call that takes an inode and marks it leaves the other free inodes. -/
theorem freeInodes_afterCreate {c : Creation} (takes : TakesInode s c)
    (succeeded : (create s c).1 = true) :
    (findFreeInode s).toNat ∈ freeInodes s ∧
    freeInodes (afterCreate s c) = (freeInodes s).erase (findFreeInode s).toNat := by
  obtain ⟨_, inside, rfl, free, used, others⟩ := takes.succeeds succeeded
  refine ⟨mem_freeInodes.mpr ⟨inside, free⟩, Finset.ext fun j => ?_⟩
  have total : (afterCreate s c).totalInodes = s.totalInodes := by
    cases found : firstFreeInode s with
    | none => rw [afterCreate, create_of_none found]
    | some i =>
        obtain ⟨_, -, created⟩ := create_of_some found c
        rw [afterCreate, created]
  rw [Finset.mem_erase, mem_freeInodes, mem_freeInodes, total]
  by_cases same : j = (findFreeInode s).toNat
  · rw [same]
    exact iff_of_false (fun mem => used mem.2) fun mem => mem.1 rfl
  · rw [others j same]
    exact (and_iff_right same).symm

/-- Calls that mark what they take take inodes that were free at the start, each of them once. -/
theorem takenInodes_of_each {calls : List Creation}
    (each : EveryStep afterCreate TakesInode s calls) :
    (takenInodes s calls).Nodup ∧ ∀ i ∈ takenInodes s calls, i ∈ freeInodes s := by
  induction calls generalizing s with
  | nil => exact ⟨List.nodup_nil, fun i mem => nomatch mem⟩
  | cons c cs ih =>
      obtain ⟨takes, rest⟩ := each
      obtain ⟨distinct, within⟩ := ih rest
      rw [takenInodes]
      split
      · rename_i succeeded
        obtain ⟨free, left⟩ := freeInodes_afterCreate takes succeeded
        rw [left] at within
        refine ⟨List.nodup_cons.mpr ⟨fun mem => ?_, distinct⟩, fun i mem => ?_⟩
        · exact Finset.notMem_erase _ _ (within _ mem)
        · rcases List.mem_cons.mp mem with rfl | mem
          · exact free
          · exact Finset.mem_of_mem_erase (within i mem)
      · rename_i failed
        rw [takes.fails (Bool.eq_false_of_not_eq_true failed)] at distinct within ⊢
        exact ⟨distinct, within⟩

/-- **No two files share an inode**, from any table of inodes, exactly when no call of the run
gives an inode the type `Unknown`. -/
theorem inodesUnshared_iff (s : State) (calls : List Creation) :
    InodesUnshared s calls ↔ EveryStep afterCreate (fun s c => c.Marks s) s calls := by
  have each : EveryStep afterCreate TakesInode s calls ↔
      EveryStep afterCreate (fun s c => c.Marks s) s calls :=
    everyStep_congr (I := fun _ => True) (fun _ _ _ _ => trivial)
      (fun s c _ => takesInode_iff_marks s c) trivial calls
  refine ⟨fun unshared => each.mp unshared.each, fun marks => ?_⟩
  obtain ⟨distinct, within⟩ := takenInodes_of_each (each.mpr marks)
  refine ⟨each.mpr marks, distinct, ?_⟩
  rw [← List.toFinset_card_of_nodup distinct]
  exact Finset.card_le_card fun i mem => within i (List.mem_toFinset.mp mem)

/-- One free inode, and no other. -/
def oneInode : State := { static (Memory.freeMemory 0) with totalInodes := 1#32 }

/-- A file of type `Unknown` leaves its inode free. -/
theorem inodesUnshared_fails : ¬ ∀ s calls, InodesUnshared s calls := by
  intro unshared
  have takes := (unshared oneInode [.file ⟨[], nofun⟩ .unknown 0#32]).each.1
  obtain ⟨_, -, rfl, -, used, -⟩ := takes.succeeds (by decide +kernel)
  exact absurd used (by decide +kernel)

/-! ### Files after `init` -/

/-- The number of inodes that fit in a page. -/
def INODES_PER_PAGE : ℕ := Memory.PAGE_SIZE / INODE_SIZE

/-- The inodes of the page are free after `init`, and every call of a run that follows it
succeeds. -/
structure HoldsFiles (m : Memory.State) (calls : List Creation) : Prop where
  free : ∀ i < INODES_PER_PAGE, ((init (static m)).inodes i).type = 0#32
  created : EveryStep afterCreate (fun s c => (create s c).1 = true) (init (static m)) calls

/-- The word of the memory that `init` takes for the type of inode `i`. -/
def typeWord (m : Memory.State) (i : ℕ) : Word :=
  m.mem ((Memory.allocatePage m).1 + BitVec.ofNat 32 (i * INODE_SIZE) + 72#32)

theorem init_inodes_type (m : Memory.State) (i : ℕ) :
    ((init (static m)).inodes i).type = typeWord m i := by
  show (Memory.allocatePage (Memory.allocatePage m).2).2.mem _ = _
  rw [(Memory.allocatePage_frame _).1, (Memory.allocatePage_frame _).1]
  rfl

/-- Without inodes no file is created. -/
theorem create_of_no_inodes (none : s.totalInodes = 0#32) (c : Creation) :
    create s c = (false, s) := by
  refine create_of_none ?_ c
  rw [firstFreeInode, none]
  rfl

/-- **The file system holds files after `init`** exactly when none is asked for and the page was
clear where the types are. -/
theorem holdsFiles_iff (m : Memory.State) (calls : List Creation) :
    HoldsFiles m calls ↔ calls = [] ∧ ∀ i < INODES_PER_PAGE, typeWord m i = 0#32 := by
  have free : (∀ i < INODES_PER_PAGE, ((init (static m)).inodes i).type = 0#32) ↔
      ∀ i < INODES_PER_PAGE, typeWord m i = 0#32 := by
    simp only [init_inodes_type]
  constructor
  · rintro ⟨clear, created⟩
    refine ⟨?_, free.mp clear⟩
    cases calls with
    | nil => rfl
    | cons c cs =>
        have succeeded : (create (init (static m)) c).1 = true := created.1
        rw [create_of_no_inodes rfl] at succeeded
        cases succeeded
  · rintro ⟨rfl, clear⟩
    exact ⟨free.mpr clear, trivial⟩

/-- Seven free pages behind page 0, which is in use. -/
def pagesFromOne : Memory.State := { Memory.freeMemory 8 with memoryBitmap := fun _ => 1#32 }

/-- On clear memory, with both pages allocated, the first file is not created. -/
theorem holdsFiles_fails :
    ¬ ∀ m calls, (Memory.allocatePage m).1 ≠ 0#32 →
      (Memory.allocatePage (Memory.allocatePage m).2).1 ≠ 0#32 →
      calls.length ≤ INODES_PER_PAGE → (∀ c ∈ calls, c.type ≠ .unknown) → HoldsFiles m calls := by
  intro holds
  have held := holds pagesFromOne [.file ⟨[], nofun⟩ .regular 0#32] (by decide +kernel)
    (by decide +kernel) (by decide) (by decide)
  exact absurd held.created.1 (by decide +kernel)

end ModernOS.FileSystem
