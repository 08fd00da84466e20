import ModernOS.Boot.Steps
import Mathlib.Order.CompletePartialOrder
import Mathlib.Order.Interval.Set.Disjoint

/-!
The physical ranges that the bootloader promises to the kernel.

`efi_main` puts the top of the stack one `STACK_SIZE` above the base of the image, before it
knows how large the image is, and `LoadKernel` only changes the size. So the stack begins where
the image does, and the two overlap unless the file is empty (`handedOver_disjoint_iff`).
-/

namespace ModernOS.Boot

open Program

/-- The addresses of the kernel's image. -/
def image (config : BootConfig) : Set ℕ :=
  Set.Ico config.kernelPhysicalBase.toNat (config.kernelPhysicalBase.toNat + config.kernelSize.toNat)

def stack (config : BootConfig) : Set ℕ :=
  Set.Ico (config.stackTop - STACK_SIZE).toNat config.stackTop.toNat

def heap (config : BootConfig) : Set ℕ :=
  Set.Ico config.heapStart.toNat (config.heapStart.toNat + config.heapSize.toNat)

structure RegionsDisjoint (config : BootConfig) : Prop where
  image_stack : Disjoint (image config) (stack config)
  image_heap : Disjoint (image config) (heap config)
  stack_heap : Disjoint (stack config) (heap config)

/-- The configuration that a kernel of the given size gets, as far as it says where things lie. -/
def layout (fileSize : Size) : BootConfig := { initialConfig with kernelSize := fileSize }

/-- A kernel that is started gets this layout. -/
def StartedWith (fileSize : Size) : Call → Prop
  | .kernelEntry _ config => SameLayout (layout fileSize) config
  | _ => True

theorem startedWith_of_notEntry {fileSize : Size} (c : Call) (other : NotEntry c) :
    StartedWith fileSize c := by
  cases c with
  | kernelEntry => cases other
  | _ => trivial

theorem transferControlToKernel_meets {fileSize : Size} {config : BootConfig}
    (same : SameLayout (layout fileSize) config) :
    Meets (Sized fileSize) (StartedWith fileSize) (fun _ => True)
      (transferControlToKernel config) := by
  simp [transferControlToKernel, meets_ite, meets_call, meets_ret, StartedWith, same]

theorem handOver_meets {fileSize : Size} {config : BootConfig}
    (same : SameLayout (layout fileSize) config) :
    Meets (Sized fileSize) (StartedWith fileSize) (fun _ => True) (handOver config) := by
  refine Meets.bind ((announce_meets config).mono startedWith_of_notEntry fun _ done => done)
    fun status _ => ?_
  simp only [meets_ite]
  refine ⟨fun _ => trivial, fun _ => (transferControlToKernel_meets same).bind fun _ _ => ?_⟩
  exact ⟨trivial, fun _ _ => trivial⟩

theorem efiMain_meets (fileSize : Size) (imageHandle : Pointer) :
    Meets (Sized fileSize) (StartedWith fileSize) (fun _ => True) (efiMain imageHandle) := by
  have prepared := (prepare_meets fileSize imageHandle).mono
    (@startedWith_of_notEntry fileSize) fun _ same => same
  have booted : Meets (Sized fileSize) (StartedWith fileSize) (fun _ => True)
      (boot imageHandle) := by
    refine prepared.bind fun r same => ?_
    simp only [meets_ite]
    exact ⟨fun _ => trivial, fun done => handOver_meets (same (by simpa using done))⟩
  refine booted.bind fun status _ => ?_
  exact (errorExit_meets status).mono startedWith_of_notEntry fun _ _ => trivial

theorem regionsDisjoint_iff {fileSize : Size} {config : BootConfig}
    (same : SameLayout (layout fileSize) config) : RegionsDisjoint config ↔ fileSize = 0#64 := by
  have base : config.kernelPhysicalBase = 0x100000#64 := same.kernelPhysicalBase
  have size : config.kernelSize = fileSize := same.kernelSize
  have top : config.stackTop = 0x200000#64 := same.stackTop
  have start : config.heapStart = 0x200000#64 := same.heapStart
  have length : config.heapSize = 0x1000000#64 := same.heapSize
  have image_eq : image config = Set.Ico 0x100000 (0x100000 + fileSize.toNat) := by
    rw [image, base, size]
    rfl
  have stack_eq : stack config = Set.Ico 0x100000 0x200000 := by
    rw [stack, top]
    rfl
  have heap_eq : heap config = Set.Ico 0x200000 0x1200000 := by
    rw [heap, start, length]
    rfl
  constructor
  · intro disjoint
    have overlap := disjoint.image_stack
    rw [image_eq, stack_eq, Set.Ico_disjoint_Ico] at overlap
    bv_omega
  · intro empty
    have none : image config = ∅ := by
      rw [image_eq, empty]
      exact Set.Ico_self _
    refine ⟨none ▸ Set.empty_disjoint _, none ▸ Set.empty_disjoint _, ?_⟩
    rw [stack_eq, heap_eq, Set.Ico_disjoint_Ico]
    decide

/-- The configuration that a firmware with a 1024 by 768 screen leads to, for a kernel of 64 KiB. -/
def handedConfig : BootConfig :=
  { initialConfig with
    kernelSize := 0x10000#64
    memoryMap := 0x9000#64
    memoryMapSize := 0x1000#64
    descriptorSize := 48#64
    descriptorVersion := 1#32
    graphicsInfo := some ⟨1024#32, 768#32, 1#32⟩
    framebufferBase := 0x80000000#64
    framebufferSize := 0x300000#64 }

theorem handedConfig_handed : .kernelEntry 0x100000#64 handedConfig ∈
    ((efiMain 0#64).run (obliging 0x10000#64 fun _ => false) 0#64).calls := by
  decide +kernel

theorem obliging_sized (fileSize : Size) (touches : Call → Bool) (s : Size) (c : Call) :
    Sized fileSize c ((obliging fileSize touches).answer s c).1 := by
  cases c <;> first | rfl | trivial

/-- **The regions handed to the kernel are disjoint** exactly when its file is empty. -/
theorem handedOver_disjoint_iff (E : Environment uefi) (s : E.State) (imageHandle : Pointer)
    (fileSize : Size) (sized : ∀ s c, Sized fileSize c (E.answer s c).1)
    {address : Pointer} {config : BootConfig}
    (handed : .kernelEntry address config ∈ ((efiMain imageHandle).run E s).calls) :
    RegionsDisjoint config ↔ fileSize = 0#64 :=
  regionsDisjoint_iff (((efiMain_meets fileSize imageHandle).run sized s).2 _ handed)

/-- A kernel of 64 KiB. -/
theorem handedOver_disjoint_iff_obliging : RegionsDisjoint handedConfig ↔ 0x10000#64 = 0#64 :=
  handedOver_disjoint_iff (obliging 0x10000#64 fun _ => false) 0#64 0#64 0x10000#64
    (obliging_sized _ _) handedConfig_handed

theorem image_meets_stack : ¬ ∀ (E : Environment uefi) (s : E.State) (imageHandle : Pointer)
    (fileSize : Size), (∀ s c, Sized fileSize c (E.answer s c).1) →
      ∀ (address : Pointer) (config : BootConfig),
        .kernelEntry address config ∈ ((efiMain imageHandle).run E s).calls →
          RegionsDisjoint config := by
  intro claim
  have disjoint := claim (obliging 0x10000#64 fun _ => false) 0#64 0#64 0x10000#64
    (obliging_sized _ _) _ _ handedConfig_handed
  have same : SameLayout (layout 0x10000#64) handedConfig := ⟨rfl, rfl, rfl, rfl, rfl⟩
  cases (regionsDisjoint_iff same).mp disjoint

end ModernOS.Boot
