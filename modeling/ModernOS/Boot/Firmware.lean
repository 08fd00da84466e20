import ModernOS.Lib.Interaction

/-!
What `boot/uefi_bootloader.c` asks of the UEFI firmware.

The firmware is the environment of the bootloader: everything that the code asks of it, reads
from its structures or hands over to the kernel is a `Call`, and the firmware answers with the
status and the output parameters. What C leaves undefined is a call too (`nullGraphicsInfo`,
`divideError`), which a correct run does not make. Pointers to structures of the firmware are
numbers, except for the mode information that `graphics_info` points to.
-/

namespace ModernOS.Boot

/-- `EFI_STATUS`. -/
abbrev Status := BitVec 64

/-- `UINTN` and `UINT64`. -/
abbrev Size := BitVec 64

/-- `VOID*`, `EFI_HANDLE` and the pointers to protocols. -/
abbrev Pointer := BitVec 64

abbrev EFI_SUCCESS : Status := 0#64

abbrev EFI_INVALID_PARAMETER : Status := 0x8000000000000002#64

abbrev EFI_UNSUPPORTED : Status := 0x8000000000000003#64

abbrev EFI_BUFFER_TOO_SMALL : Status := 0x8000000000000005#64

/-- `EFI_ERROR`. -/
def efiError (status : Status) : Bool := status.msb

abbrev EFI_PAGE_SIZE : Size := 4096#64

/-- `sizeof(EFI_FILE_INFO)`. -/
abbrev FILE_INFO_SIZE : Size := 88#64

/-! ### Memory layout constants -/

abbrev KERNEL_VIRTUAL_BASE : Size := 0xFFFFFFFF80000000#64

abbrev KERNEL_PHYSICAL_BASE : Size := 0x100000#64

abbrev STACK_SIZE : Size := 0x100000#64

abbrev HEAP_SIZE : Size := 0x1000000#64

abbrev BOOTLOADER_NAME : String := "ModernOS UEFI Bootloader"

abbrev KERNEL_FILENAME : String := "\\EFI\\ModernOS\\kernel.bin"

/-- `EFI_GRAPHICS_OUTPUT_MODE_INFORMATION`. -/
structure ModeInformation where
  horizontalResolution : BitVec 32
  verticalResolution : BitVec 32
  pixelFormat : BitVec 32
  deriving DecidableEq, Repr

abbrev PixelRedGreenBlueReserved8BitPerColor : BitVec 32 := 0#32

abbrev PixelBlueGreenRedReserved8BitPerColor : BitVec 32 := 1#32

/-- `BOOT_CONFIG`. -/
structure BootConfig where
  kernelVirtualBase : Size
  kernelPhysicalBase : Size
  kernelSize : Size
  stackTop : Size
  heapStart : Size
  heapSize : Size
  memoryMap : Pointer
  memoryMapSize : Size
  memoryMapKey : Size
  descriptorSize : Size
  descriptorVersion : BitVec 32
  graphicsInfo : Option ModeInformation
  framebufferBase : Pointer
  framebufferSize : Size
  deriving DecidableEq, Repr

/-! ### The firmware -/

/-- The protocols that are looked up. -/
inductive Protocol where
  | graphicsOutput
  | loadedImage
  | simpleFileSystem
  deriving DecidableEq, Repr

/-- An argument of `Print`. -/
inductive Argument where
  | text (s : String)
  | number (n : BitVec 64)
  deriving DecidableEq, Repr

inductive Call where
  | initializeLib (imageHandle : Pointer)
  | clearScreen
  | print (format : String) (arguments : List Argument)
  | locateHandleBuffer (protocol : Protocol)
  | handleProtocol (handle : Pointer) (protocol : Protocol)
  /-- A read of `*loaded_image`. -/
  | loadedImage (protocol : Pointer)
  /-- A read of `*(*gop)->Mode`. -/
  | graphicsMode (gop : Pointer)
  | queryMode (gop : Pointer) (mode : BitVec 32)
  | setMode (gop : Pointer) (mode : BitVec 32)
  | openVolume (filesystem : Pointer)
  | openFile (root : Pointer) (name : String)
  | getInfo (file : Pointer) (size : Size) (buffer : Pointer)
  | read (file : Pointer) (size : Size) (buffer : Pointer)
  | close (file : Pointer)
  | allocatePool (size : Size)
  | freePool (buffer : Pointer)
  /-- `AllocatePages` with `AllocateAddress`. -/
  | allocatePages (pages : Size) (address : Pointer)
  | freePages (address : Pointer) (pages : Size)
  /-- `GetMemoryMap`; without a buffer it is asked for the size. -/
  | getMemoryMap (size : Size) (buffer : Option Pointer)
  | createTimerEvent
  | setTimer (event : Pointer) (time : Size)
  /-- `WaitForEvent` for a key and the given event. -/
  | waitForKeyOr (event : Pointer)
  | readKeyStroke
  | closeEvent (event : Pointer)
  | exitBootServices (mapKey : Size)
  /-- The jump to the kernel. -/
  | kernelEntry (address : Pointer) (config : BootConfig)
  /-- A read through `graphics_info` when it is null. -/
  | nullGraphicsInfo
  /-- A division by zero. -/
  | divideError
  deriving DecidableEq, Repr

/-- A status alone. -/
structure Completed where
  status : Status
  deriving DecidableEq, Repr

/-- A status and a pointer: an interface, a file, a buffer or an event. -/
structure Acquired where
  status : Status
  pointer : Pointer
  deriving DecidableEq, Repr

structure HandleBuffer where
  status : Status
  buffer : Pointer
  handles : List Pointer
  deriving DecidableEq, Repr

/-- The member of `EFI_LOADED_IMAGE_PROTOCOL` that is read. -/
structure LoadedImage where
  deviceHandle : Pointer
  deriving DecidableEq, Repr

/-- The members of `EFI_GRAPHICS_OUTPUT_PROTOCOL_MODE` that are read. -/
structure GraphicsMode where
  maxMode : BitVec 32
  info : ModeInformation
  frameBufferBase : Pointer
  frameBufferSize : Size
  deriving DecidableEq, Repr

structure QueriedMode where
  status : Status
  buffer : Pointer
  info : ModeInformation
  deriving DecidableEq, Repr

/-- A status and a size: of a file, of what has been read, or an index. -/
structure Counted where
  status : Status
  size : Size
  deriving DecidableEq, Repr

structure MemoryMap where
  status : Status
  size : Size
  key : Size
  descriptorSize : Size
  descriptorVersion : BitVec 32
  deriving DecidableEq, Repr

/-- What the firmware answers. -/
def Result : Call → Type
  | .initializeLib _ | .print .. | .kernelEntry .. | .divideError => Unit
  | .clearScreen | .setMode .. | .close _ | .freePool _ | .freePages .. | .setTimer ..
  | .readKeyStroke | .closeEvent _ | .exitBootServices _ => Completed
  | .locateHandleBuffer _ => HandleBuffer
  | .handleProtocol .. | .openVolume _ | .openFile .. | .allocatePool _ | .allocatePages ..
  | .createTimerEvent => Acquired
  | .loadedImage _ => LoadedImage
  | .graphicsMode _ => GraphicsMode
  | .queryMode .. => QueriedMode
  | .getInfo .. | .read .. | .waitForKeyOr _ => Counted
  | .getMemoryMap .. => MemoryMap
  | .nullGraphicsInfo => ModeInformation

/-- The interface of the firmware. -/
@[reducible] def uefi : Interface := ⟨Call, Result⟩

/-- A program that runs on the firmware. -/
abbrev Loader := Program uefi

/-- Make a call. -/
def ask (c : Call) : Loader (Result c) := Program.perform (I := uefi) c

/-- `Print`. -/
def print (format : String) (arguments : List Argument) : Loader Unit :=
  ask (.print format arguments)

variable {α : Type}

@[simp] theorem ask_bind (c : Call) (f : Result c → Loader α) :
    (ask c >>= f) = Program.call (I := uefi) c f := rfl

@[simp] theorem print_bind (format : String) (arguments : List Argument) (f : Unit → Loader α) :
    (print format arguments >>= f) =
      Program.call (I := uefi) (.print format arguments) (fun _ => f ()) := rfl

/-! ### A firmware -/

/-- Answers of a firmware on which every call succeeds, for a kernel file of the given size, when
the memory map has the given key. -/
def succeed (fileSize key : Size) : (c : Call) → Result c
  | .initializeLib _ | .print .. | .kernelEntry .. | .divideError => ()
  | .clearScreen | .setMode .. | .close _ | .freePool _ | .freePages .. | .setTimer ..
  | .readKeyStroke | .closeEvent _ => ⟨EFI_SUCCESS⟩
  | .exitBootServices mapKey => ⟨if mapKey = key then EFI_SUCCESS else EFI_INVALID_PARAMETER⟩
  | .locateHandleBuffer _ => ⟨EFI_SUCCESS, 0x8000#64, [1#64]⟩
  | .handleProtocol .. | .openVolume _ | .openFile .. | .createTimerEvent => ⟨EFI_SUCCESS, 2#64⟩
  | .allocatePool _ => ⟨EFI_SUCCESS, 0x9000#64⟩
  | .allocatePages _ address => ⟨EFI_SUCCESS, address⟩
  | .loadedImage _ => ⟨3#64⟩
  | .graphicsMode _ => ⟨1#32, ⟨1024#32, 768#32, 1#32⟩, 0x80000000#64, 0x300000#64⟩
  | .queryMode .. => ⟨EFI_SUCCESS, 0xA000#64, ⟨1024#32, 768#32, 1#32⟩⟩
  | .getInfo .. => ⟨EFI_SUCCESS, fileSize⟩
  | .read _ size _ => ⟨EFI_SUCCESS, size⟩
  | .waitForKeyOr _ => ⟨EFI_SUCCESS, 1#64⟩
  | .getMemoryMap _ none => ⟨EFI_BUFFER_TOO_SMALL, 0x1000#64, key, 48#64, 1#32⟩
  | .getMemoryMap _ (some _) => ⟨EFI_SUCCESS, 0x1000#64, key, 48#64, 1#32⟩
  | .nullGraphicsInfo => ⟨0#32, 0#32, 0#32⟩

/-- Such a firmware. Its state is the key of the memory map, which changes with the calls that
touch the map. -/
def obliging (fileSize : Size) (touches : Call → Bool) : Environment uefi where
  State := Size
  answer key c := (succeed fileSize key c, if touches c then key + 1#64 else key)

end ModernOS.Boot
