import Mathlib.Logic.Function.Basic
import ModernOS.Lib.BitField
import ModernOS.Lib.LoggedArray

/-!
The physical page allocator and the paging code of `kernel/memory.cpp`, in the
32-bit build of the Makefile: `size_t` and pointers have 32 bits.

Physical memory is a map from addresses to 32-bit words. Everything the module
reads or writes through a pointer is a word of a page-aligned array (a page
directory or a page table), so only addresses divisible by four are used. The
bitmap has its own field of the state: its storage is taken to lie outside the
pages that the allocator hands out.

A `PageDirectoryEntry` and a `PageTableEntry` have the same seven bit-fields;
`Entry` names them once, laid out from bit 0 upwards.
-/

namespace ModernOS

/-- A machine word of the 32-bit kernel: `uint32_t`, `size_t` and every pointer. -/
abbrev Word := BitVec 32

namespace Memory

def PAGE_SIZE : ℕ := 4096

/-- The word of a page directory or page table entry. -/
abbrev Entry := Word

namespace Entry

def present (e : Entry) : BitVec 1 := BitField.get 0 1 e
def rw (e : Entry) : BitVec 1 := BitField.get 1 1 e
def user (e : Entry) : BitVec 1 := BitField.get 2 1 e
def frame (e : Entry) : BitVec 20 := BitField.get 12 20 e

/-- The assignment `present = 0`. -/
def clear (e : Entry) : Entry := BitField.set 0 0#1 e

/-- The four assignments with which `map_page` fills an entry: `present = 1`,
`rw = 1`, `user = 0`, `frame = f`. The other bits keep what memory held. -/
def fill (f : BitVec 20) (e : Entry) : Entry :=
  BitField.set 12 f (BitField.set 2 0#1 (BitField.set 1 1#1 (BitField.set 0 1#1 e)))

@[simp] theorem present_fill (f : BitVec 20) (e : Entry) : (fill f e).present = 1#1 := by
  rw [present, fill, BitField.get_set_of_disjoint _ _ _ _ (by decide) (by decide),
    BitField.get_set_of_disjoint _ _ _ _ (by decide) (by decide),
    BitField.get_set_of_disjoint _ _ _ _ (by decide) (by decide),
    BitField.get_set_self _ _ _ (by decide)]

@[simp] theorem rw_fill (f : BitVec 20) (e : Entry) : (fill f e).rw = 1#1 := by
  rw [rw, fill, BitField.get_set_of_disjoint _ _ _ _ (by decide) (by decide),
    BitField.get_set_of_disjoint _ _ _ _ (by decide) (by decide),
    BitField.get_set_self _ _ _ (by decide)]

@[simp] theorem user_fill (f : BitVec 20) (e : Entry) : (fill f e).user = 0#1 := by
  rw [user, fill, BitField.get_set_of_disjoint _ _ _ _ (by decide) (by decide),
    BitField.get_set_self _ _ _ (by decide)]

@[simp] theorem frame_fill (f : BitVec 20) (e : Entry) : (fill f e).frame = f := by
  rw [frame, fill, BitField.get_set_self _ _ _ (by decide)]

end Entry

/-- The state of the module: physical memory, the bitmap's words, and the static
variables. -/
structure State where
  mem : Word → Word
  memoryBitmap : ℕ → Word
  totalPages : ℕ
  currentDirectory : Word

/-! ### The bitmap -/

/-- The test `memory_bitmap[i / 32] & (1 << (i % 32))`. -/
def pageUsed (bitmap : ℕ → Word) (i : ℕ) : Bool :=
  bitmap (i / 32) &&& (1#32 <<< (i % 32)) != 0#32

/-- The update `memory_bitmap[i / 32] |= (1 << (i % 32))`. -/
def markUsed (bitmap : ℕ → Word) (i : ℕ) : ℕ → Word :=
  Function.update bitmap (i / 32) (bitmap (i / 32) ||| (1#32 <<< (i % 32)))

/-- The page at which the loop of `allocate_page` stops. -/
def firstFree (s : State) : Option ℕ :=
  (List.range s.totalPages).find? fun i => !pageUsed s.memoryBitmap i

/-- The address `(void*)(i * PAGE_SIZE)`. -/
def pageAddr (i : ℕ) : Word := BitVec.ofNat 32 (i * PAGE_SIZE)

/-- `allocate_page`; the null pointer is address 0. -/
def allocatePage (s : State) : Word × State :=
  match firstFree s with
  | some i => (pageAddr i, { s with memoryBitmap := markUsed s.memoryBitmap i })
  | none => (0#32, s)

/-- The update `memory_bitmap[i / 32] &= ~(1 << (i % 32))`. -/
def clearUsed (bitmap : ℕ → Word) (i : ℕ) : ℕ → Word :=
  Function.update bitmap (i / 32) (bitmap (i / 32) &&& ~~~(1#32 <<< (i % 32)))

/-- `free_page`. -/
def freePage (ptr : Word) (s : State) : State :=
  let page := ptr / 4096#32
  { s with memoryBitmap := clearUsed s.memoryBitmap page.toNat }

/-- `get_total_memory`. -/
def getTotalMemory (s : State) : Word := BitVec.ofNat 32 s.totalPages * 4096#32

/-- `get_free_memory`. -/
def getFreeMemory (s : State) : Word :=
  let freePages := CountedLoop.forRange 0 s.totalPages (fun i freePages =>
    if !pageUsed s.memoryBitmap i then freePages + 1#32 else freePages) 0#32
  freePages * 4096#32

/-! ### Paging -/

/-- The address of `entries[i]` in the table or directory at `table`. -/
def entryAddr (table i : Word) : Word := table + 4#32 * i

/-- `virtual_addr / PAGE_SIZE`. -/
def pageIdx (virtualAddr : Word) : Word := virtualAddr / 4096#32

/-- The index of the directory entry of a virtual address. -/
def tableIdx (virtualAddr : Word) : Word := pageIdx virtualAddr / 1024#32

/-- The index of the page in its page table. -/
def pageOffset (virtualAddr : Word) : Word := pageIdx virtualAddr % 1024#32

/-- `entry.frame << 12`, the table a directory entry points to. -/
def tableOf (e : Entry) : Word := e.frame.setWidth 32 <<< 12

/-- The bit-field value stored by `entry.frame = addr >> 12`. -/
def frameOf (addr : Word) : BitVec 20 := (addr >>> 12).setWidth 20

/-- Read-modify-write of the memory word at `addr`. -/
def State.modify (s : State) (addr : Word) (f : Word → Word) : State :=
  { s with mem := Function.update s.mem addr (f (s.mem addr)) }

@[simp] theorem State.modify_currentDirectory (s : State) (addr : Word) (f : Word → Word) :
    (s.modify addr f).currentDirectory = s.currentDirectory := rfl

@[simp] theorem State.modify_memoryBitmap (s : State) (addr : Word) (f : Word → Word) :
    (s.modify addr f).memoryBitmap = s.memoryBitmap := rfl

@[simp] theorem State.modify_totalPages (s : State) (addr : Word) (f : Word → Word) :
    (s.modify addr f).totalPages = s.totalPages := rfl

@[simp] theorem State.modify_mem_self (s : State) (addr : Word) (f : Word → Word) :
    (s.modify addr f).mem addr = f (s.mem addr) := Function.update_self ..

theorem State.modify_mem_of_ne (s : State) {addr a : Word} (f : Word → Word) (apart : a ≠ addr) :
    (s.modify addr f).mem a = s.mem a := Function.update_of_ne apart ..

/-- `map_page`. -/
def mapPage (physicalAddr virtualAddr : Word) (s : State) : State :=
  let dirEntry := entryAddr s.currentDirectory (tableIdx virtualAddr)
  let (table, s) :=
    if Entry.present (s.mem dirEntry) = 0#1 then
      let (table, s) := allocatePage s
      (table, s.modify dirEntry (Entry.fill (frameOf table)))
    else
      (tableOf (s.mem dirEntry), s)
  s.modify (entryAddr table (pageOffset virtualAddr)) (Entry.fill (frameOf physicalAddr))

/-! ### Building the first directory -/

/-- The address of `entries[i]` for a loop counter `i`. -/
def entryAt (table : Word) (i : ℕ) : Word := entryAddr table (BitVec.ofNat 32 i)

/-- The loop of `init` that clears the directory at `dir`. -/
def clearDirectory (dir : Word) (s : State) : State :=
  CountedLoop.forRange 0 1024 (fun i s =>
    s.modify (entryAt dir i) Entry.clear) s

/-- The inner loop of `init`: the table of directory entry `i` maps each of its pages
to the frame of the same number. -/
def fillTable (table : Word) (i : ℕ) (s : State) : State :=
  CountedLoop.forRange 0 1024 (fun j s =>
    s.modify (entryAt table j) (Entry.fill (BitVec.ofNat 20 (i * 1024 + j)))) s

/-- One round of the outer loop of `init`. -/
def initRound (dir : Word) (i : ℕ) (s : State) : State :=
  let (table, s) := allocatePage s
  let s := fillTable table i s
  s.modify (entryAt dir i) (Entry.fill (frameOf table))

/-- `switch_page_directory`; the control registers it loads are not part of the state. -/
def switchPageDirectory (dir : Word) (s : State) : State := { s with currentDirectory := dir }

/-- `init`. The variable `kernel_directory` is written and read here only, so it is a
local. -/
def init (s : State) : State :=
  let (kernelDirectory, s) := allocatePage s
  let s := clearDirectory kernelDirectory s
  let s := CountedLoop.forRange 0 1024 (initRound kernelDirectory) s
  switchPageDirectory kernelDirectory s

end Memory

end ModernOS
