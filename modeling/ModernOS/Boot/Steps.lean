import ModernOS.Boot.Model
import Mathlib.Tactic.MkIffOfInductiveProp

/-!
What the steps of the bootloader do, whatever the firmware answers.

No step before `TransferControlToKernel` jumps to the kernel, and none changes the part of the
configuration that says where things lie, except that `LoadKernel` enters the size of the kernel's
file (`Sized`).
-/

namespace ModernOS.Boot

open Program

variable {A : (c : Call) → Result c → Prop}

/-- The call does not jump to the kernel. -/
def NotEntry : Call → Prop
  | .kernelEntry .. => False
  | _ => True

instance : DecidablePred NotEntry
  | .kernelEntry .. => .isFalse id
  | .initializeLib _ | .clearScreen | .print .. | .locateHandleBuffer _ | .handleProtocol ..
  | .loadedImage _ | .graphicsMode _ | .queryMode .. | .setMode .. | .openVolume _ | .openFile ..
  | .getInfo .. | .read .. | .close _ | .allocatePool _ | .freePool _ | .allocatePages ..
  | .freePages .. | .getMemoryMap .. | .createTimerEvent | .setTimer .. | .waitForKeyOr _
  | .readKeyStroke | .closeEvent _ | .exitBootServices _ | .nullGraphicsInfo | .divideError =>
      .isTrue trivial

theorem meets_print {P : Call → Prop} {Q : Unit → Prop} {format : String}
    {arguments : List Argument} :
    Meets A P Q (print format arguments) ↔
      P (.print format arguments) ∧ ∀ r, A (.print format arguments) r → Q () := Iff.rfl

/-- The kernel's file has the given size. -/
def Sized (fileSize : Size) : (c : Call) → Result c → Prop
  | .getInfo .., info => info.size = fileSize
  | _, _ => True

/-- The image, the stack and the heap are at the same addresses. -/
@[mk_iff] structure SameLayout (config config' : BootConfig) : Prop where
  kernelPhysicalBase : config'.kernelPhysicalBase = config.kernelPhysicalBase
  kernelSize : config'.kernelSize = config.kernelSize
  stackTop : config'.stackTop = config.stackTop
  heapStart : config'.heapStart = config.heapStart
  heapSize : config'.heapSize = config.heapSize

theorem SameLayout.trans {config config' config'' : BootConfig} (first : SameLayout config config')
    (second : SameLayout config' config'') : SameLayout config config'' where
  kernelPhysicalBase := second.kernelPhysicalBase.trans first.kernelPhysicalBase
  kernelSize := second.kernelSize.trans first.kernelSize
  stackTop := second.stackTop.trans first.stackTop
  heapStart := second.heapStart.trans first.heapStart
  heapSize := second.heapSize.trans first.heapSize

theorem findBestMode_meets (gop : Pointer) (modes : List (BitVec 32)) (best : BestMode) :
    Meets A NotEntry (fun _ => True) (findBestMode gop modes best) := by
  induction modes generalizing best with
  | nil => exact trivial
  | cons mode modes ih =>
      rw [findBestMode, ask_bind, meets_call]
      refine ⟨trivial, fun queried _ => ?_⟩
      simp only [meets_ite]
      exact ⟨fun _ => ih _, fun _ => ⟨fun _ => ih _, fun _ => ih _⟩⟩

/-- A kernel that is loaded has the size of its file. -/
theorem loadKernel_meets (fileSize : Size) (filesystem : Pointer) (config : BootConfig) :
    Meets (Sized fileSize) NotEntry
      (fun r => efiError r.1 = false → SameLayout { config with kernelSize := fileSize } r.2)
      (loadKernel filesystem config) := by
  simp only [loadKernel, ask_bind, print_bind, pure_eq, meets_call, meets_ite, meets_ret, NotEntry,
    Sized, true_and]
  -- A branch that fails returns the status that it has tested.
  simp +contextual [sameLayout_iff]

theorem initializeGraphics_meets (config : BootConfig) :
    Meets A NotEntry (fun r => SameLayout config r.2) (initializeGraphics config) := by
  simp only [initializeGraphics, ask_bind, meets_call, meets_ite]
  refine ⟨trivial, fun located _ => ⟨fun _ => ?_, fun _ => ⟨trivial, fun opened _ =>
    ⟨fun _ => ?_, fun _ => ⟨trivial, fun mode _ => ?_⟩⟩⟩⟩⟩
  · exact sameLayout_iff .. |>.mpr ⟨rfl, rfl, rfl, rfl, rfl⟩
  · simp [meets_ret, NotEntry, sameLayout_iff]
  refine (findBestMode_meets _ _ _).bind fun best _ => ?_
  simp [meets_call, meets_ite, meets_ret, NotEntry, sameLayout_iff]

theorem graphicsInfo_meets (config : BootConfig) :
    Meets A NotEntry (fun _ => True) (graphicsInfo config) := by
  unfold graphicsInfo
  split
  · exact trivial
  · exact ⟨trivial, fun _ _ => trivial⟩

theorem graphicsStep_meets (config : BootConfig) :
    Meets A NotEntry (SameLayout config) (graphicsStep config) := by
  rw [graphicsStep, print_bind, meets_call]
  refine ⟨trivial, fun _ _ => (initializeGraphics_meets config).bind fun r same => ?_⟩
  simp only [meets_ite, print_bind, meets_call]
  refine ⟨fun _ => ⟨trivial, fun _ _ => ⟨trivial, fun _ _ => same⟩⟩,
    fun _ => ⟨trivial, fun _ _ => (graphicsInfo_meets r.2).bind fun info _ => ?_⟩⟩
  exact ⟨trivial, fun _ _ => ⟨trivial, fun _ _ => same⟩⟩

theorem locateStep_meets (imageHandle : Pointer) :
    Meets A NotEntry (fun _ => True) (locateStep imageHandle) := by
  simp [locateStep, meets_call, meets_ite, meets_ret, NotEntry]

theorem loadStep_meets (fileSize : Size) (filesystem : Pointer) (config : BootConfig) :
    Meets (Sized fileSize) NotEntry
      (fun r => efiError r.1 = false → SameLayout { config with kernelSize := fileSize } r.2)
      (loadStep filesystem config) := by
  rw [loadStep, print_bind, meets_call]
  refine ⟨trivial, fun _ _ => (loadKernel_meets fileSize filesystem config).bind fun r same => ?_⟩
  simp +contextual [meets_call, meets_ite, meets_ret, NotEntry, same]

theorem setupMemoryMap_meets (config : BootConfig) :
    Meets A NotEntry (fun r => SameLayout config r.2) (setupMemoryMap config) := by
  simp [setupMemoryMap, meets_call, meets_ite, meets_ret, NotEntry, sameLayout_iff]

theorem mapStep_meets (config : BootConfig) :
    Meets A NotEntry (fun r => SameLayout config r.2) (mapStep config) := by
  rw [mapStep, print_bind, meets_call]
  refine ⟨trivial, fun _ _ => (setupMemoryMap_meets config).bind fun r same => ?_⟩
  simp [meets_call, meets_ite, meets_ret, NotEntry, same]

theorem welcome_meets (imageHandle : Pointer) :
    Meets A NotEntry (fun _ => True) (welcome imageHandle) := by
  simp [welcome, meets_call, meets_print, NotEntry]

/-- Steps 1 to 4 leave the layout of the initial configuration, with the size of the file. -/
theorem prepare_meets (fileSize : Size) (imageHandle : Pointer) :
    Meets (Sized fileSize) NotEntry
      (fun r => efiError r.1 = false →
        SameLayout { initialConfig with kernelSize := fileSize } r.2) (prepare imageHandle) := by
  refine (welcome_meets imageHandle).bind fun _ _ => ?_
  refine (graphicsStep_meets initialConfig).bind fun config shown => ?_
  refine (locateStep_meets imageHandle).bind fun located _ => ?_
  simp only [meets_ite]
  refine ⟨fun failed => ?_, fun _ => (loadStep_meets fileSize _ config).bind fun r loaded => ?_⟩
  · exact fun succeeded => absurd (failed.symm.trans succeeded) (by decide)
  simp only [meets_ite]
  refine ⟨fun failed => ?_, fun done => (mapStep_meets _).mono (fun _ other => other) ?_⟩
  · exact fun succeeded => absurd (failed.symm.trans succeeded) (by decide)
  intro r' mapped _
  have sized : SameLayout { initialConfig with kernelSize := fileSize }
      { config with kernelSize := fileSize } := by
    simp [sameLayout_iff, shown.kernelPhysicalBase, shown.stackTop, shown.heapStart,
      shown.heapSize]
  exact (sized.trans (loaded (by simpa using done))).trans mapped

theorem waitForKeyPress_meets : Meets A NotEntry (fun _ => True) waitForKeyPress := by
  simp [waitForKeyPress, meets_call, meets_ite, meets_ret, NotEntry]

theorem memoryMapEntries_meets (config : BootConfig) :
    Meets A NotEntry (fun _ => True) (memoryMapEntries config) := by
  simp [memoryMapEntries, meets_ite, meets_call, meets_ret, NotEntry]

theorem printBootInfo_meets (config : BootConfig) :
    Meets A NotEntry (fun _ => True) (printBootInfo config) := by
  simp only [printBootInfo, print_bind, meets_call, NotEntry, true_and]
  intros
  refine (memoryMapEntries_meets config).bind fun entries _ => ?_
  cases config.graphicsInfo <;> simp [meets_call, meets_print, NotEntry]

/-- The announcements succeed, since `SetupLongMode` does nothing. -/
theorem announce_meets (config : BootConfig) :
    Meets A NotEntry (fun status => efiError status = false) (announce config) := by
  simp only [announce, print_bind, meets_call, NotEntry, true_and]
  intros
  refine Meets.bind (show Meets A NotEntry (fun status => efiError status = false)
    (setupLongMode config) from rfl) fun status succeeded => ?_
  simp only [meets_ite, meets_call, NotEntry, true_and]
  refine ⟨fun failed => ?_, fun _ _ _ _ _ => ?_⟩
  · rw [succeeded] at failed
    cases failed
  refine (printBootInfo_meets config).bind fun _ _ => ?_
  simp only [meets_call, NotEntry, true_and]
  intros
  refine waitForKeyPress_meets.bind fun _ _ => ?_
  simp only [meets_call, NotEntry, true_and]
  exact fun _ _ => rfl

/-- What `efi_main` does after the label `error_exit`. -/
theorem errorExit_meets (status : Status) :
    Meets A NotEntry (fun _ => True) (do
      print "\r\nBoot failed. Press any key to exit...\r\n" []
      waitForKeyPress
      return status) := by
  rw [print_bind, meets_call]
  exact ⟨trivial, fun _ _ => waitForKeyPress_meets.bind fun _ _ => trivial⟩

end ModernOS.Boot
