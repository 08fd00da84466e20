import ModernOS.Lib.CString
import ModernOS.Lib.SlotTable
import ModernOS.Memory.Model

/-!
The file system of `kernel/filesystem.cpp`, in the 32-bit build of the Makefile.

The array that `inodes` points to is kept as a value: `init` points it to a page of the
allocator, whose words are read as inodes (`inodesAt`), and from then on only this file touches
the page. Before `init` the pointer is null, `total_inodes` is zero, and nothing is read through
it. A function that is given a `const char*` takes the string; its argument `path` is not used by
`create_file` and `create_directory`.
-/

namespace ModernOS.FileSystem

open SlotTable CString

/-- `FileType` of `include/filesystem.h`: an enumeration over `uint8_t`, so that each of its
codes is a value. -/
structure FileType where
  code : BitVec 8
  deriving DecidableEq, Repr

def FileType.unknown : FileType := ⟨0#8⟩

def FileType.regular : FileType := ⟨1#8⟩

def FileType.directory : FileType := ⟨2#8⟩

/-- `Inode`. -/
@[ext] structure Inode where
  size : Word
  blocks : Fin 16 → Word
  permissions : Word
  type : Word
  deriving DecidableEq

/-- `sizeof(Inode)`. -/
def INODE_SIZE : ℕ := 76

/-- The number of slots of the mount table. -/
abbrev MOUNT_POINTS : ℕ := 16

/-- A position in the mount table. -/
abbrev Slot := Fin MOUNT_POINTS

/-- `MountPoint`. -/
structure MountPoint where
  device : Fin 32 → BitVec 8
  path : Fin 32 → BitVec 8
  mounted : Bool
  deriving DecidableEq

/-- The static variables of the file, and the state of the memory module. -/
structure State where
  /-- The array that `inodes` points to. -/
  inodes : ℕ → Inode
  /-- The pointer `blocks`. -/
  blocks : Word
  mountPoints : Slot → MountPoint
  totalInodes : Word
  memory : Memory.State

/-- The static variables before any call, all of them zero. -/
def static (memory : Memory.State) : State where
  inodes := fun _ => ⟨0#32, fun _ => 0#32, 0#32, 0#32⟩
  blocks := 0#32
  mountPoints := fun _ => ⟨fun _ => 0#8, fun _ => 0#8, false⟩
  totalInodes := 0#32
  memory := memory

/-- The words of a page as an array of inodes. -/
def inodesAt (m : Memory.State) (page : Word) (i : ℕ) : Inode :=
  let inode := page + BitVec.ofNat 32 (i * INODE_SIZE)
  { size := m.mem inode
    blocks := fun j => m.mem (inode + 4#32 + BitVec.ofNat 32 (j * 4))
    permissions := m.mem (inode + 68#32)
    type := m.mem (inode + 72#32) }

/-- `init`. -/
def init (s : State) : State :=
  let (inodes, memory) := Memory.allocatePage s.memory
  let (blocks, memory) := Memory.allocatePage memory
  { s with
    inodes := inodesAt memory inodes
    blocks := blocks
    mountPoints := fun i => { s.mountPoints i with mounted := false }
    memory := memory }

/-! ### Files -/

/-- The free inode at which the loop of `find_free_inode` stops. -/
def firstFreeInode (s : State) : Option ℕ :=
  (List.range s.totalInodes.toNat).find? fun i => (s.inodes i).type = 0#32

/-- `find_free_inode`. -/
def findFreeInode (s : State) : Word :=
  match firstFreeInode s with
  | some i => BitVec.ofNat 32 i
  | none => 0xFFFFFFFF#32

/-- An index below a word is a word, and it is not the code for none. -/
theorem ofNat_index {i : ℕ} {total : Word} (inside : i < total.toNat) :
    BitVec.ofNat 32 i ≠ 0xFFFFFFFF#32 ∧ (BitVec.ofNat 32 i).toNat = i := by
  have bound := total.isLt
  have index : (BitVec.ofNat 32 i).toNat = i := by
    rw [BitVec.toNat_ofNat, Nat.mod_eq_of_lt (inside.trans bound)]
  refine ⟨fun none => ?_, index⟩
  rw [none, BitVec.toNat_ofNat] at index
  omega

/-- `create_file`. The four bytes at the address of the parameter `permissions` are given as a
word. -/
def createFile (_path : CString) (type : FileType) (permissions : Word) (s : State) :
    Bool × State :=
  let inode := findFreeInode s
  if inode = 0xFFFFFFFF#32 then (false, s)
  else
    (true, { s with
      inodes := Function.update s.inodes inode.toNat {
        size := 0#32
        type := type.code.setWidth 32
        permissions := permissions
        blocks := fun _ => 0#32 } })

/-- `create_directory`. The three flags of `dir_perms` are three bytes; `beyond` is the byte
behind them. -/
def createDirectory (path : CString) (beyond : BitVec 8) (s : State) : Bool × State :=
  createFile path .directory (beyond ++ 0x010101#24) s

/-! ### Mount points -/

/-- `mount`. -/
def mount (device mountPoint : CString) (s : State) : Bool × State :=
  match firstSlot (fun m : MountPoint => m.mounted = false) s.mountPoints with
  | none => (false, s)
  | some i =>
      (true, { s with
        mountPoints := Function.update s.mountPoints i {
          device := strncpy (s.mountPoints i).device device 31
          path := strncpy (s.mountPoints i).path mountPoint 31
          mounted := true } })

/-- The condition of `unmount` for slot `i`; undefined when `strcmp` reads behind the path. -/
def pathMatches (mountPoint : CString) (s : State) (i : Slot) : Option Bool :=
  if (s.mountPoints i).mounted then
    (strcmp (List.ofFn (s.mountPoints i).path) mountPoint.array).map fun z => decide (z = 0)
  else some false

/-- `unmount`. -/
def unmount (mountPoint : CString) (s : State) : Option (Bool × State) := do
  match ← (List.finRange MOUNT_POINTS).findM? (pathMatches mountPoint s) with
  | none => return (false, s)
  | some i =>
      return (true, { s with
        mountPoints := Function.update s.mountPoints i
          { s.mountPoints i with mounted := false } })

end ModernOS.FileSystem
