import ModernOS.Boot.Firmware

/-!
The bootloader of `boot/uefi_bootloader.c`.

A function that updates `*config` returns the configuration with its status. `efi_main` is cut
at its numbered steps: `prepare` goes up to the memory map, `announce` up to the call of
`TransferControlToKernel`. A `goto error_exit` is a return from `boot`, since the code at that
label follows in `efiMain`.
-/

namespace ModernOS.Boot

/-! ### Graphics -/

/-- The preference for a mode: its resolution and its colour depth. -/
def modeScore (info : ModeInformation) : BitVec 32 :=
  (if 1024#32 ≤ info.horizontalResolution ∧ 768#32 ≤ info.verticalResolution then 100#32
    else 0#32) +
  (if info.pixelFormat = PixelRedGreenBlueReserved8BitPerColor ∨
      info.pixelFormat = PixelBlueGreenRedReserved8BitPerColor then 50#32 else 0#32)

/-- The best mode so far and its score. -/
structure BestMode where
  mode : BitVec 32
  score : BitVec 32
  deriving DecidableEq, Repr

/-- The loop over the modes. A mode that cannot be queried is skipped. -/
def findBestMode (gop : Pointer) : List (BitVec 32) → BestMode → Loader BestMode
  | [], best => return best
  | mode :: modes, best => do
      let queried ← ask (.queryMode gop mode)
      if efiError queried.status then
        findBestMode gop modes best
      else if best.score < modeScore queried.info then
        findBestMode gop modes ⟨mode, modeScore queried.info⟩
      else
        findBestMode gop modes best

/-- The modes `0, …, max_mode - 1`; `MaxMode` does not change. -/
def modesBelow (maxMode : BitVec 32) : List (BitVec 32) :=
  (List.range maxMode.toNat).map (BitVec.ofNat 32)

/-- `InitializeGraphics`; the protocol that `gop` points to afterwards is not used again. -/
def initializeGraphics (config : BootConfig) : Loader (Status × BootConfig) := do
  let located ← ask (.locateHandleBuffer .graphicsOutput)
  if efiError located.status ∨ located.handles = [] then
    return (located.status, config)
  let opened ← ask (.handleProtocol (located.handles.headD 0#64) .graphicsOutput)
  if efiError opened.status then
    let _ ← ask (.freePool located.buffer)
    return (opened.status, config)
  let gop := opened.pointer
  let mode ← ask (.graphicsMode gop)
  let best ← findBestMode gop (modesBelow mode.maxMode) ⟨0#32, 0#32⟩
  if 0#32 < best.score then
    let set ← ask (.setMode gop best.mode)
    if efiError set.status then
      let _ ← ask (.freePool located.buffer)
      return (set.status, config)
  let mode ← ask (.graphicsMode gop)
  let config := { config with
    graphicsInfo := some mode.info
    framebufferBase := mode.frameBufferBase
    framebufferSize := mode.frameBufferSize }
  let _ ← ask (.freePool located.buffer)
  return (EFI_SUCCESS, config)

/-- What is read through `graphics_info`. -/
def graphicsInfo (config : BootConfig) : Loader ModeInformation := do
  match config.graphicsInfo with
  | some info => return info
  | none => ask .nullGraphicsInfo

/-! ### The kernel -/

/-- `LoadKernel`. -/
def loadKernel (filesystem : Pointer) (config : BootConfig) : Loader (Status × BootConfig) := do
  let root ← ask (.openVolume filesystem)
  if efiError root.status then
    return (root.status, config)
  let kernelFile ← ask (.openFile root.pointer KERNEL_FILENAME)
  if efiError kernelFile.status then
    print "ERROR: Could not find kernel file: %s\r\n" [.text KERNEL_FILENAME]
    let _ ← ask (.close root.pointer)
    return (kernelFile.status, config)
  let infoSize := FILE_INFO_SIZE + 256#64
  let fileInfo ← ask (.allocatePool infoSize)
  if efiError fileInfo.status then
    let _ ← ask (.close kernelFile.pointer)
    let _ ← ask (.close root.pointer)
    return (fileInfo.status, config)
  let info ← ask (.getInfo kernelFile.pointer infoSize fileInfo.pointer)
  if efiError info.status then
    let _ ← ask (.freePool fileInfo.pointer)
    let _ ← ask (.close kernelFile.pointer)
    let _ ← ask (.close root.pointer)
    return (info.status, config)
  let kernelSize := info.size
  let config := { config with kernelSize := kernelSize }
  let pages := (kernelSize + EFI_PAGE_SIZE - 1#64) / EFI_PAGE_SIZE
  let kernel ← ask (.allocatePages pages config.kernelPhysicalBase)
  if efiError kernel.status then
    print "ERROR: Could not allocate memory for kernel at 0x%lx\r\n" [.number kernel.pointer]
    let _ ← ask (.freePool fileInfo.pointer)
    let _ ← ask (.close kernelFile.pointer)
    let _ ← ask (.close root.pointer)
    return (kernel.status, config)
  let done ← ask (.read kernelFile.pointer kernelSize kernel.pointer)
  if efiError done.status then
    let _ ← ask (.freePages kernel.pointer pages)
    let _ ← ask (.freePool fileInfo.pointer)
    let _ ← ask (.close kernelFile.pointer)
    let _ ← ask (.close root.pointer)
    return (done.status, config)
  let _ ← ask (.freePool fileInfo.pointer)
  let _ ← ask (.close kernelFile.pointer)
  let _ ← ask (.close root.pointer)
  return (EFI_SUCCESS, config)

/-! ### The memory map -/

/-- `SetupMemoryMap`. -/
def setupMemoryMap (config : BootConfig) : Loader (Status × BootConfig) := do
  let sized ← ask (.getMemoryMap 0#64 none)
  if sized.status ≠ EFI_BUFFER_TOO_SMALL then
    return (sized.status, config)
  let mapSize := sized.size + 2#64 * sized.descriptorSize
  let memoryMap ← ask (.allocatePool mapSize)
  if efiError memoryMap.status then
    return (memoryMap.status, config)
  let map ← ask (.getMemoryMap mapSize (some memoryMap.pointer))
  if efiError map.status then
    let _ ← ask (.freePool memoryMap.pointer)
    return (map.status, config)
  return (EFI_SUCCESS, { config with
    memoryMap := memoryMap.pointer
    memoryMapSize := map.size
    memoryMapKey := map.key
    descriptorSize := map.descriptorSize
    descriptorVersion := map.descriptorVersion })

/-- `SetupLongMode`, a placeholder of the source. -/
def setupLongMode (_config : BootConfig) : Loader Status := return EFI_SUCCESS

/-- `TransferControlToKernel`. -/
def transferControlToKernel (config : BootConfig) : Loader Status := do
  let exited ← ask (.exitBootServices config.memoryMapKey)
  if efiError exited.status then
    return exited.status
  let _ ← ask (.kernelEntry config.kernelPhysicalBase config)
  return EFI_UNSUPPORTED

/-! ### The console -/

/-- `config->memory_map_size / config->descriptor_size`. -/
def memoryMapEntries (config : BootConfig) : Loader Size := do
  if config.descriptorSize = 0#64 then
    let _ ← ask .divideError
    return 0#64
  return config.memoryMapSize / config.descriptorSize

/-- `PrintBootInfo`. -/
def printBootInfo (config : BootConfig) : Loader Unit := do
  print "========================================\r\n" []
  print "Boot Configuration:\r\n" []
  print "========================================\r\n" []
  print "Kernel Physical Base: 0x%lx\r\n" [.number config.kernelPhysicalBase]
  print "Kernel Virtual Base:  0x%lx\r\n" [.number config.kernelVirtualBase]
  print "Kernel Size:          %d bytes\r\n" [.number config.kernelSize]
  print "Stack Top:            0x%lx\r\n" [.number config.stackTop]
  print "Heap Start:           0x%lx\r\n" [.number config.heapStart]
  print "Heap Size:            %d bytes\r\n" [.number config.heapSize]
  let entries ← memoryMapEntries config
  print "Memory Map Entries:   %d\r\n" [.number entries]
  match config.graphicsInfo with
  | some info =>
      print "Graphics Resolution:  %dx%d\r\n"
        [.number (info.horizontalResolution.setWidth 64),
          .number (info.verticalResolution.setWidth 64)]
      print "Framebuffer Base:     0x%lx\r\n" [.number config.framebufferBase]
      print "Framebuffer Size:     %d bytes\r\n" [.number config.framebufferSize]
  | none => pure ()
  print "========================================\r\n" []

/-- `WaitForKeyPress`. -/
def waitForKeyPress : Loader Unit := do
  let timer ← ask .createTimerEvent
  if efiError timer.status then
    return
  let set ← ask (.setTimer timer.pointer 30000000#64)
  if efiError set.status then
    let _ ← ask (.closeEvent timer.pointer)
    return
  let waited ← ask (.waitForKeyOr timer.pointer)
  if !efiError waited.status && waited.size == 0#64 then
    let _ ← ask .readKeyStroke
  let _ ← ask (.closeEvent timer.pointer)

/-! ### `efi_main` -/

/-- The configuration before anything is loaded. -/
def initialConfig : BootConfig where
  kernelVirtualBase := KERNEL_VIRTUAL_BASE
  kernelPhysicalBase := KERNEL_PHYSICAL_BASE
  kernelSize := 0#64
  stackTop := KERNEL_PHYSICAL_BASE + STACK_SIZE
  heapStart := KERNEL_PHYSICAL_BASE + STACK_SIZE
  heapSize := HEAP_SIZE
  memoryMap := 0#64
  memoryMapSize := 0#64
  memoryMapKey := 0#64
  descriptorSize := 0#64
  descriptorVersion := 0#32
  graphicsInfo := none
  framebufferBase := 0#64
  framebufferSize := 0#64

/-- The welcome message. -/
def welcome (imageHandle : Pointer) : Loader Unit := do
  let _ ← ask (.initializeLib imageHandle)
  let _ ← ask .clearScreen
  print "\r\n" []
  print "========================================\r\n" []
  print "    %s v%d.%d\r\n" [.text BOOTLOADER_NAME, .number 1#64, .number 0#64]
  print "========================================\r\n" []
  print "\r\n" []

/-- Step 1. An error is not fatal here. -/
def graphicsStep (config : BootConfig) : Loader BootConfig := do
  print "[1/6] Initializing graphics subsystem...\r\n" []
  let (status, config) ← initializeGraphics config
  if efiError status then
    print "ERROR: Failed to initialize graphics: %r\r\n" [.number status]
    print "Continuing with text mode only...\r\n" []
  else
    print "Graphics initialized successfully\r\n" []
    let info ← graphicsInfo config
    print "  Resolution: %dx%d\r\n"
      [.number (info.horizontalResolution.setWidth 64),
        .number (info.verticalResolution.setWidth 64)]
    print "  Pixel Format: %d\r\n" [.number (info.pixelFormat.setWidth 64)]
  return config

/-- Step 2. -/
def locateStep (imageHandle : Pointer) : Loader (Status × Pointer) := do
  print "\r\n[2/6] Locating file system...\r\n" []
  let opened ← ask (.handleProtocol imageHandle .loadedImage)
  if efiError opened.status then
    print "ERROR: Failed to get loaded image protocol: %r\r\n" [.number opened.status]
    return (opened.status, 0#64)
  let loadedImage ← ask (.loadedImage opened.pointer)
  let filesystem ← ask (.handleProtocol loadedImage.deviceHandle .simpleFileSystem)
  if efiError filesystem.status then
    print "ERROR: Failed to get file system protocol: %r\r\n" [.number filesystem.status]
    return (filesystem.status, 0#64)
  print "File system located successfully\r\n" []
  return (filesystem.status, filesystem.pointer)

/-- Step 3. -/
def loadStep (filesystem : Pointer) (config : BootConfig) : Loader (Status × BootConfig) := do
  print "\r\n[3/6] Loading kernel...\r\n" []
  let (status, config) ← loadKernel filesystem config
  if efiError status then
    print "ERROR: Failed to load kernel: %r\r\n" [.number status]
    return (status, config)
  print "Kernel loaded successfully\r\n" []
  print "  Size: %d bytes\r\n" [.number config.kernelSize]
  print "  Physical base: 0x%lx\r\n" [.number config.kernelPhysicalBase]
  print "  Virtual base: 0x%lx\r\n" [.number config.kernelVirtualBase]
  return (status, config)

/-- Step 4. -/
def mapStep (config : BootConfig) : Loader (Status × BootConfig) := do
  print "\r\n[4/6] Setting up memory map...\r\n" []
  let (status, config) ← setupMemoryMap config
  if efiError status then
    print "ERROR: Failed to setup memory map: %r\r\n" [.number status]
  return (status, config)

/-- Steps 1 to 4. -/
def prepare (imageHandle : Pointer) : Loader (Status × BootConfig) := do
  welcome imageHandle
  let config ← graphicsStep initialConfig
  let (status, filesystem) ← locateStep imageHandle
  if efiError status then
    return (status, config)
  let (status, config) ← loadStep filesystem config
  if efiError status then
    return (status, config)
  mapStep config

/-- Steps 5 and 6, up to the call of `TransferControlToKernel`. -/
def announce (config : BootConfig) : Loader Status := do
  print "Memory map configured successfully\r\n" []
  print "\r\n[5/6] Setting up long mode...\r\n" []
  let status ← setupLongMode config
  if efiError status then
    print "ERROR: Failed to setup long mode: %r\r\n" [.number status]
    return status
  print "Long mode configured successfully\r\n" []
  print "\r\n" []
  printBootInfo config
  print "\r\n[6/6] Transferring control to kernel...\r\n" []
  print "Press any key to boot or wait 3 seconds...\r\n" []
  waitForKeyPress
  print "Booting kernel...\r\n" []
  return EFI_SUCCESS

/-- Steps 5 and 6. -/
def handOver (config : BootConfig) : Loader Status := do
  let status ← announce config
  if efiError status then
    return status
  let status ← transferControlToKernel config
  print "ERROR: Kernel returned unexpectedly: %r\r\n" [.number status]
  return status

/-- `efi_main` up to the label `error_exit`. -/
def boot (imageHandle : Pointer) : Loader Status := do
  let (status, config) ← prepare imageHandle
  if efiError status then
    return status
  handOver config

/-- `efi_main`. -/
def efiMain (imageHandle : Pointer) : Loader Status := do
  let status ← boot imageHandle
  print "\r\nBoot failed. Press any key to exit...\r\n" []
  waitForKeyPress
  return status

end ModernOS.Boot
