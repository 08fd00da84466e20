import ModernOS.Console.Model
import ModernOS.Lib.ByteBuffer

/-!
`KernelMemory` of `kernel/kernel_main64.cpp`, and the entries of `include/memory.h` that it makes.

The memory map of the firmware is a buffer of its own, whose bytes the console does not change.
The vector of the entries is a list; whether there is room for it is not asked. `Memory::init` of a
span is declared in the header but not defined, so that it is a parameter here.
-/

namespace ModernOS.KernelMemory

open CountedLoop ByteBuffer Console

/-! ### `include/memory.h` -/

inductive MemoryType where
  | efiReservedMemoryType
  | efiLoaderCode
  | efiLoaderData
  | efiBootServicesCode
  | efiBootServicesData
  | efiRuntimeServicesCode
  | efiRuntimeServicesData
  | efiConventionalMemory
  | efiUnusableMemory
  | efiACPIReclaimMemory
  | efiACPIMemoryNVS
  | efiMemoryMappedIO
  | efiMemoryMappedIOPortSpace
  | efiPalCode
  | efiPersistentMemory
  | efiMaxMemoryType
  deriving DecidableEq, Repr

/-- The enumeration has `std::uint64_t` below it, and a cast to it keeps every value. -/
structure MemoryAttributes where
  bits : BitVec 64
  deriving DecidableEq, Repr

structure MemoryMapEntry where
  baseAddr : BitVec 64
  length : BitVec 64
  type : MemoryType
  extendedAttributes : MemoryAttributes
  deriving DecidableEq, Repr

namespace MemoryMapEntry

variable (entry : MemoryMapEntry)

/-- `end_addr`. -/
def endAddr : BitVec 64 := entry.baseAddr + entry.length

/-- `is_available`. -/
def isAvailable : Bool := entry.type = .efiConventionalMemory

/-- `contains`. -/
def contains (addr : BitVec 64) : Bool := entry.baseAddr ≤ addr ∧ addr < entry.endAddr

end MemoryMapEntry

/-! ### The conversion -/

/-- The part of `BootConfig` that is used, with the bytes that `memory_map` points to. -/
structure BootConfig where
  memoryMap : List Byte
  memoryMapSize : Size
  descriptorSize : Size

/-- `UEFIMemoryDescriptor`, without the `virtual_start` that is not read. -/
structure UEFIMemoryDescriptor where
  type : BitVec 32
  physicalStart : BitVec 64
  numberOfPages : BitVec 64
  attributes : BitVec 64
  deriving DecidableEq, Repr

/-- The `switch` over the type of a descriptor. -/
def memoryType (type : BitVec 32) : MemoryType :=
  if type = 7#32 then .efiConventionalMemory
  else if type = 3#32 then .efiBootServicesCode
  else if type = 4#32 then .efiBootServicesData
  else .efiReservedMemoryType

/-- The entry that is made of a descriptor. -/
def entryOf (desc : UEFIMemoryDescriptor) : MemoryMapEntry where
  baseAddr := desc.physicalStart
  length := desc.numberOfPages * 4096#64
  type := memoryType desc.type
  extendedAttributes := ⟨desc.attributes⟩

/-- What is read through `desc`, in the order of the reads. The offsets are those of the x86-64
ABI: `type` is padded to eight bytes. -/
def readDescriptor (uefiMap : List Byte) (desc : Size) : Option UEFIMemoryDescriptor := do
  let physicalStart ← load uefiMap 8 (desc + 8#64).toNat
  let numberOfPages ← load uefiMap 8 (desc + 24#64).toNat
  let type ← load uefiMap 4 desc.toNat
  let attributes ← load uefiMap 8 (desc + 32#64).toNat
  return { type, physicalStart, numberOfPages, attributes }

/-- The body of the loop. -/
def pushEntry (uefiMap : List Byte) (descriptorSize : Size) (i : ℕ)
    (memoryEntries : List MemoryMapEntry) : Option (List MemoryMapEntry) := do
  let desc ← readDescriptor uefiMap (BitVec.ofNat 64 i * descriptorSize)
  return memoryEntries ++ [entryOf desc]

/-- The loop over the descriptors. -/
def memoryEntries (uefiMap : List Byte) (descriptorSize : Size) (entryCount : Size) :
    Option (List MemoryMapEntry) :=
  forRange 0 entryCount.toNat (fun i entries => entries.bind (pushEntry uefiMap descriptorSize i))
    (some [])

/-- What `initialize_from_uefi` prints. -/
def announce (entryCount : Size) (s : State) : State :=
  let s := print ("  Found ".toList.map ascii) s
  let s := printDec entryCount s
  print (" memory descriptors\n".toList.map ascii) s

/-- `initialize_from_uefi`. Without a result it divides by zero or reads outside of the map. -/
def initializeFromUefi {ρ : Type} (init : List MemoryMapEntry → State → ρ) (config : BootConfig)
    (s : State) : Option ρ := do
  let s := print ("  Parsing UEFI memory map...\n".toList.map ascii) s
  guard (config.descriptorSize ≠ 0#64)
  let entryCount := config.memoryMapSize / config.descriptorSize
  let s := announce entryCount s
  let entries ← memoryEntries config.memoryMap config.descriptorSize entryCount
  return init entries s

end ModernOS.KernelMemory
