import ModernOS.Boot.Results

/-!
The way to the kernel.

Before the kernel is entered its image is read, the memory map is taken and the boot services are
left, in this order. `efiMain_handsOver` says how far a run gets: whatever the firmware answers, the
boot services are left at most once, with the key of the map that has been taken, and the kernel is
entered right after that and at no other time, with a configuration that describes its image and
the map.
-/

namespace ModernOS.Boot

open Program

/-- What has to be done before the kernel runs. -/
inductive Milestone where
  | image (buffer : Pointer) (size : Size)
  | memoryMap (buffer : Pointer) (map : MemoryMap)
  | exit
  | entry
  deriving DecidableEq, Repr

def milestoneOf : Exchange uefi → Option Milestone
  | ⟨.read _ size buffer, done⟩ =>
      if efiError done.status then none else some (.image buffer size)
  | ⟨.getMemoryMap _ (some buffer), map⟩ =>
      if efiError map.status then none else some (.memoryMap buffer map)
  | ⟨.exitBootServices _, _⟩ => some .exit
  | ⟨.kernelEntry .., _⟩ => some .entry
  | _ => none

/-- The milestones of a run. -/
def milestones (t : Transcript uefi) : List Milestone := t.filterMap milestoneOf

/-- The configuration with the graphics information of another. -/
def BootConfig.withGraphicsOf (config shown : BootConfig) : BootConfig :=
  { config with
    graphicsInfo := shown.graphicsInfo
    framebufferBase := shown.framebufferBase
    framebufferSize := shown.framebufferSize }

/-- The configuration with which the kernel is entered. -/
def entryConfig (graphics : BootConfig) (size : Size) (buffer : Pointer) (map : MemoryMap) :
    BootConfig :=
  storeMap { initialConfig.withGraphicsOf graphics with kernelSize := size } buffer map

/-- The runs of `efi_main`, by how far they get. -/
inductive HandsOver : Transcript uefi → Status → Prop
  | unloaded {t : Transcript uefi} {status : Status} (none : milestones t = [])
      (failed : efiError status) : HandsOver t status
  | unmapped {t : Transcript uefi} {status : Status} {image : Pointer} {size : Size}
      (loaded : milestones t = [.image image size]) (failed : efiError status) : HandsOver t status
  /-- A division by a descriptor size that is 0, because there is no map or its size is 0. -/
  | divided {before after : Transcript uefi} {status : Status} {image : Pointer} {size : Size}
      (uncounted : milestones before = [.image image size] ∨ ∃ buffer map,
        milestones before = [.image image size, .memoryMap buffer map] ∧
          map.descriptorSize = 0#64) :
      HandsOver (before ++ ⟨.divideError, ()⟩ :: after) status
  /-- The boot services are not left. -/
  | refused {before after : Transcript uefi} {exited : Completed} {image buffer : Pointer}
      {size : Size} {map : MemoryMap}
      (ready : milestones before = [.image image size, .memoryMap buffer map])
      (counted : map.descriptorSize ≠ 0#64) (silent : milestones after = [])
      (failed : efiError exited.status) :
      HandsOver (before ++ ⟨.exitBootServices map.key, exited⟩ :: after) exited.status
  /-- The kernel is entered. What follows comes after its return. -/
  | entered {before after : Transcript uefi} {exited : Completed} {image buffer : Pointer}
      {size : Size} {map : MemoryMap} (graphics : BootConfig)
      (ready : milestones before = [.image image size, .memoryMap buffer map])
      (counted : map.descriptorSize ≠ 0#64) (silent : milestones after = [])
      (left : ¬ efiError exited.status) :
      HandsOver (before ++ ⟨.exitBootServices map.key, exited⟩ ::
        ⟨.kernelEntry KERNEL_PHYSICAL_BASE (entryConfig graphics size buffer map), ()⟩ :: after)
        EFI_UNSUPPORTED

/-! ### The steps -/

/-- The call is no milestone. -/
def Unmarked : Call → Prop
  | .read .. | .getMemoryMap .. | .exitBootServices _ | .kernelEntry .. => False
  | _ => True

section Steps

variable {config : BootConfig} {t t' : Transcript uefi}

@[simp] theorem milestones_append : milestones (t ++ t') = milestones t ++ milestones t' :=
  List.filterMap_append

@[simp] theorem milestones_print {format : String} {arguments : List Argument}
    {r : uefi.Result (.print format arguments)} :
    milestones (⟨.print format arguments, r⟩ :: t) = milestones t := rfl

/-- A program without milestones. -/
theorem milestones_eq_nil {α : Type} {p : Loader α} {a : α} {Q : α → Prop}
    (meets : Meets (fun _ _ => True) Unmarked Q p) (does : p.Does t a) : milestones t = [] := by
  obtain ⟨-, calls⟩ := meets.does does fun _ _ => trivial
  refine List.filterMap_eq_nil_iff.mpr fun e mem => ?_
  have unmarked := calls e mem
  obtain ⟨call, answer⟩ := e
  cases call <;> first | rfl | exact absurd unmarked id

theorem welcome_unmarked (imageHandle : Pointer) :
    Meets (fun _ _ => True) Unmarked (fun _ => True) (welcome imageHandle) := by
  simp [welcome, meets_call, meets_print, Unmarked.eq_def]

theorem findBestMode_unmarked (gop : Pointer) (modes : List (BitVec 32)) (best : BestMode) :
    Meets (fun _ _ => True) Unmarked (fun _ => True) (findBestMode gop modes best) := by
  induction modes generalizing best with
  | nil => trivial
  | cons mode modes ih =>
      rw [findBestMode, ask_bind, meets_call]
      refine ⟨trivial, fun queried _ => ?_⟩
      simp only [meets_ite]
      exact ⟨fun _ => ih best, fun _ => ⟨fun _ => ih _, fun _ => ih best⟩⟩

theorem initializeGraphics_unmarked (config : BootConfig) :
    Meets (fun _ _ => True) Unmarked (fun r => r.2 = config.withGraphicsOf r.2)
      (initializeGraphics config) := by
  simp only [initializeGraphics, ask_bind, meets_call, meets_ite]
  refine ⟨trivial, fun located _ => ⟨fun _ => rfl, fun _ => ⟨trivial, fun opened _ =>
    ⟨fun _ => ⟨trivial, fun _ _ => rfl⟩, fun _ => ⟨trivial, fun mode _ => ?_⟩⟩⟩⟩⟩
  refine (findBestMode_unmarked _ _ _).bind fun best _ => ?_
  simp only [meets_ite, meets_call]
  refine ⟨fun _ => ⟨trivial, fun set _ => ⟨fun _ => ⟨trivial, fun _ _ => rfl⟩, fun _ => ?_⟩⟩,
    fun _ => ?_⟩
  all_goals exact ⟨trivial, fun _ _ => ⟨trivial, fun _ _ => rfl⟩⟩

theorem graphicsInfo_unmarked (config : BootConfig) :
    Meets (fun _ _ => True) Unmarked (fun _ => True) (graphicsInfo config) := by
  unfold graphicsInfo
  split
  · exact trivial
  · exact ⟨trivial, fun _ _ => trivial⟩

theorem graphicsStep_unmarked (config : BootConfig) :
    Meets (fun _ _ => True) Unmarked (fun shown => shown = config.withGraphicsOf shown)
      (graphicsStep config) := by
  rw [graphicsStep, print_bind, meets_call]
  refine ⟨trivial, fun _ _ => (initializeGraphics_unmarked config).bind fun r same => ?_⟩
  simp only [meets_ite, print_bind, meets_call]
  refine ⟨fun _ => ⟨trivial, fun _ _ => ⟨trivial, fun _ _ => same⟩⟩,
    fun _ => ⟨trivial, fun _ _ => (graphicsInfo_unmarked r.2).bind fun info _ => ?_⟩⟩
  exact ⟨trivial, fun _ _ => ⟨trivial, fun _ _ => same⟩⟩

theorem locateStep_unmarked (imageHandle : Pointer) :
    Meets (fun _ _ => True) Unmarked (fun _ => True) (locateStep imageHandle) := by
  simp [locateStep, meets_call, meets_ite, meets_ret, Unmarked.eq_def]

/-- The kernel's image has been read, or an error is returned. -/
theorem loadKernel_milestones {filesystem : Pointer} {result : Status × BootConfig}
    (does : (loadKernel filesystem config).Does t result) :
    milestones t = [] ∧ efiError result.1 ∨
      ∃ image size, milestones t = [.image image size] ∧
        result = (EFI_SUCCESS, { config with kernelSize := size }) := by
  cases loadKernel_does_iff.mp does with
  | noVolume failed | noFile _ failed | noPool _ _ failed | noInfo _ _ _ failed
  | noPages _ _ _ _ failed => exact .inl ⟨rfl, failed⟩
  | @unread _ file _ kernel info done _ _ _ _ _ _ _ _ _ failed =>
      have only : milestones [⟨.read file.pointer info.size kernel.pointer, done⟩] = [] :=
        List.filterMap_cons_none (if_pos failed)
      exact .inl ⟨only, failed⟩
  | @loaded _ file _ kernel info done _ _ _ _ _ _ _ _ read =>
      have only : milestones [⟨.read file.pointer info.size kernel.pointer, done⟩] =
          [.image kernel.pointer info.size] := List.filterMap_cons_some (if_neg read)
      exact .inr ⟨kernel.pointer, info.size, only, rfl⟩

theorem loadStep_milestones {filesystem : Pointer} {result : Status × BootConfig}
    (does : (loadStep filesystem config).Does t result) :
    milestones t = [] ∧ efiError result.1 ∨
      ∃ image size, milestones t = [.image image size] ∧
        result = (EFI_SUCCESS, { config with kernelSize := size }) := by
  rw [loadStep, print_bind, does_call] at does
  obtain ⟨_, t', rfl, does⟩ := does
  obtain ⟨loaded, t₁, t₂, rfl, kernel, reports⟩ := does_bind.mp does
  have silent : milestones t₂ = [] ∧ result = loaded := by
    rcases does_ite.mp reports with ⟨-, _, _, rfl, rfl, rfl⟩ |
      ⟨-, _, _, rfl, _, _, rfl, _, _, rfl, _, _, rfl, rfl, rfl⟩
    · exact ⟨rfl, rfl⟩
    · exact ⟨rfl, rfl⟩
  rw [milestones_print, milestones_append, silent.1, List.append_nil, silent.2]
  exact loadKernel_milestones kernel

/-- The memory map has been taken, or an error is returned, or the configuration stays. -/
theorem setupMemoryMap_milestones {result : Status × BootConfig}
    (does : (setupMemoryMap config).Does t result) :
    milestones t = [] ∧ (efiError result.1 ∨ result.2 = config) ∨
      ∃ buffer map, milestones t = [.memoryMap buffer map] ∧
        result = (EFI_SUCCESS, storeMap config buffer map) := by
  cases setupMemoryMap_run does with
  | notSized other => exact .inl ⟨rfl, .inr rfl⟩
  | noPool small failed => exact .inl ⟨rfl, .inl failed⟩
  | @notMapped sized map pool _ small allocated failed =>
      have only : milestones [⟨.getMemoryMap (mapRoom sized) (some pool.pointer), map⟩] = [] :=
        List.filterMap_cons_none (if_pos failed)
      exact .inl ⟨only, .inl failed⟩
  | @mapped sized map pool small allocated succeeded =>
      have only : milestones [⟨.getMemoryMap (mapRoom sized) (some pool.pointer), map⟩] =
          [.memoryMap pool.pointer map] := List.filterMap_cons_some (if_neg succeeded)
      exact .inr ⟨pool.pointer, map, only, rfl⟩

theorem mapStep_milestones {result : Status × BootConfig}
    (does : (mapStep config).Does t result) :
    milestones t = [] ∧ (efiError result.1 ∨ result.2 = config) ∨
      ∃ buffer map, milestones t = [.memoryMap buffer map] ∧
        result = (EFI_SUCCESS, storeMap config buffer map) := by
  rw [mapStep, print_bind, does_call] at does
  obtain ⟨_, t', rfl, does⟩ := does
  obtain ⟨mapped, t₁, t₂, rfl, map, reports⟩ := does_bind.mp does
  have silent : milestones t₂ = [] ∧ result = mapped := by
    simp only [print_bind] at reports
    rcases does_ite.mp reports with ⟨-, _, _, rfl, rfl, rfl⟩ | ⟨-, rfl, rfl⟩
    · exact ⟨rfl, rfl⟩
    · exact ⟨rfl, rfl⟩
  rw [milestones_print, milestones_append, silent.1, List.append_nil, silent.2]
  exact setupMemoryMap_milestones map

theorem waitForKeyPress_unmarked :
    Meets (fun _ _ => True) Unmarked (fun _ => True) waitForKeyPress := by
  simp [waitForKeyPress, meets_call, meets_ite, meets_ret, Unmarked.eq_def]

theorem memoryMapEntries_unmarked (config : BootConfig) :
    Meets (fun _ _ => True) Unmarked (fun _ => True) (memoryMapEntries config) := by
  simp [memoryMapEntries, meets_ite, meets_call, meets_ret, Unmarked.eq_def]

/-- The number of entries cannot be printed without a descriptor size. -/
theorem printBootInfo_milestones {r : Unit} (does : (printBootInfo config).Does t r) :
    milestones t = [] ∧ (config.descriptorSize = 0#64 → ⟨.divideError, ()⟩ ∈ t) := by
  simp only [printBootInfo, print_bind, does_call] at does
  obtain ⟨_, _, rfl, _, _, rfl, _, _, rfl, _, _, rfl, _, _, rfl, _, _, rfl, _, _, rfl, _, _, rfl,
    _, _, rfl, does⟩ := does
  obtain ⟨entries, t₁, t₂, rfl, divided, ends⟩ := does_bind.mp does
  have silent : milestones t₂ = [] := by
    refine milestones_eq_nil (Q := fun _ => True) ?_ ends
    cases config.graphicsInfo <;> simp [meets_call, meets_print, Unmarked.eq_def]
  constructor
  · simp only [milestones_print, milestones_append, silent, List.append_nil]
    exact milestones_eq_nil (memoryMapEntries_unmarked config) divided
  · intro zero
    rw [memoryMapEntries, if_pos zero] at divided
    obtain ⟨⟨⟩, _, rfl, rfl, -⟩ := divided
    simp

theorem announce_milestones {status : Status} (does : (announce config).Does t status) :
    milestones t = [] ∧ ¬ efiError status ∧
      (config.descriptorSize = 0#64 → ⟨.divideError, ()⟩ ∈ t) := by
  simp only [announce, print_bind, does_call] at does
  obtain ⟨_, _, rfl, _, _, rfl, setup⟩ := does
  obtain ⟨_, _, t₁, rfl, ⟨rfl, rfl⟩, configured⟩ := does_bind.mp setup
  simp only [does_ite, does_call] at configured
  obtain ⟨failed, -⟩ | ⟨-, _, _, rfl, _, _, rfl, printing⟩ := configured
  · cases failed
  obtain ⟨⟨⟩, t₂, _, rfl, info, asking⟩ := does_bind.mp printing
  simp only [does_call] at asking
  obtain ⟨_, _, rfl, _, _, rfl, waiting⟩ := asking
  obtain ⟨⟨⟩, t₃, _, rfl, waited, booting⟩ := does_bind.mp waiting
  obtain ⟨_, _, rfl, rfl, rfl⟩ := booting
  obtain ⟨silent, divides⟩ := printBootInfo_milestones info
  refine ⟨?_, by decide, fun zero => ?_⟩
  · simp only [milestones_print, milestones_append, silent, List.nil_append,
      milestones_eq_nil waitForKeyPress_unmarked waited]
    rfl
  · simp [divides zero]

end Steps

/-! ### `efi_main` -/

section Main

variable {imageHandle : Pointer} {t t' : Transcript uefi} {status : Status}

/-- How far steps 1 to 4 get. -/
theorem prepare_milestones {result : Status × BootConfig}
    (does : (prepare imageHandle).Does t result) :
    milestones t = [] ∧ efiError result.1 ∨
      ∃ image size,
        milestones t = [.image image size] ∧
            (efiError result.1 ∨ result.2.descriptorSize = 0#64) ∨
          ∃ graphics buffer map, milestones t = [.image image size, .memoryMap buffer map] ∧
            result = (EFI_SUCCESS, entryConfig graphics size buffer map) := by
  obtain ⟨⟨⟩, t₁, _, rfl, greeting, started⟩ := does_bind.mp does
  obtain ⟨shown, t₂, _, rfl, graphics, shows⟩ := does_bind.mp started
  obtain ⟨located, t₃, t₄, rfl, locating, loads⟩ := does_bind.mp shows
  obtain ⟨same, -⟩ := (graphicsStep_unmarked initialConfig).does graphics fun _ _ => trivial
  simp only [milestones_append, milestones_eq_nil (welcome_unmarked imageHandle) greeting,
    milestones_eq_nil (graphicsStep_unmarked initialConfig) graphics,
    milestones_eq_nil (locateStep_unmarked imageHandle) locating, List.nil_append]
  rcases does_ite.mp loads with ⟨failed, rfl, rfl⟩ | ⟨found, loading⟩
  · exact .inl ⟨rfl, failed⟩
  obtain ⟨loaded, t₅, t₆, rfl, loadStep, maps⟩ := does_bind.mp loading
  rw [milestones_append]
  rcases loadStep_milestones loadStep with ⟨none, failed⟩ | ⟨image, size, read, rfl⟩
  · rcases does_ite.mp maps with ⟨-, rfl, rfl⟩ | ⟨succeeded, -⟩
    · exact .inl ⟨by rw [none]; rfl, failed⟩
    · exact absurd failed succeeded
  · rcases does_ite.mp maps with ⟨failed, -⟩ | ⟨-, mapping⟩
    · cases failed
    refine .inr ⟨image, size, ?_⟩
    rw [read]
    rcases mapStep_milestones mapping with ⟨none, ends⟩ | ⟨buffer, map, taken, rfl⟩
    · refine .inl ⟨by rw [none]; rfl, ends.imp_right fun kept => ?_⟩
      rw [kept, same]
      rfl
    · refine .inr ⟨shown, buffer, map, by rw [taken]; rfl, ?_⟩
      exact congrArg (fun config => (EFI_SUCCESS, storeMap { config with kernelSize := size }
        buffer map)) same

/-- Steps 5 and 6 without a descriptor size. -/
theorem handOver_divides (before : Transcript uefi) {config : BootConfig}
    (does : (handOver config).Does t status) (zero : config.descriptorSize = 0#64) :
    ∃ t₁ t₂, t = t₁ ++ ⟨.divideError, ()⟩ :: t₂ ∧ milestones (before ++ t₁) = milestones before := by
  obtain ⟨announced, t₀, t', rfl, saying, -⟩ := does_bind.mp does
  obtain ⟨silent, -, divides⟩ := announce_milestones saying
  obtain ⟨t₁, t₂, rfl⟩ := List.append_of_mem (divides zero)
  rw [milestones_append] at silent
  refine ⟨t₁, t₂ ++ t', by simp, ?_⟩
  rw [milestones_append, (List.append_eq_nil_iff.mp silent).1, List.append_nil]

/-- Steps 5 and 6 with a map. -/
theorem handOver_handsOver {before : Transcript uefi} {graphics : BootConfig}
    {image buffer : Pointer} {size : Size} {map : MemoryMap}
    (ready : milestones before = [.image image size, .memoryMap buffer map])
    (counted : map.descriptorSize ≠ 0#64)
    (does : (handOver (entryConfig graphics size buffer map)).Does t status) :
    HandsOver (before ++ t) status := by
  obtain ⟨announced, t₁, _, rfl, saying, transfers⟩ := does_bind.mp does
  obtain ⟨silent, succeeded, -⟩ := announce_milestones saying
  rcases does_ite.mp transfers with ⟨failed, -⟩ | ⟨-, transferring⟩
  · exact absurd failed succeeded
  have still : milestones (before ++ t₁) = [.image image size, .memoryMap buffer map] := by
    rw [milestones_append, silent, List.append_nil, ready]
  obtain ⟨returned, t₂, t₃, rfl, transfer, _, _, rfl, rfl, rfl⟩ := does_bind.mp transferring
  simp only [transferControlToKernel, ask_bind, does_call, does_ite, pure_eq, does_ret] at transfer
  rw [← List.append_assoc]
  obtain ⟨(exited : Completed), _, rfl, ⟨failed, rfl, rfl⟩ | ⟨left, _, _, rfl, rfl, rfl⟩⟩ := transfer
  · exact .refused still counted rfl failed
  · exact .entered graphics still counted rfl left

/-- Calls without a milestone may follow. -/
theorem HandsOver.append (run : HandsOver t status) (silent : milestones t' = []) :
    HandsOver (t ++ t') status := by
  cases run with
  | unloaded none failed =>
      exact .unloaded (by rw [milestones_append, none, silent]; rfl) failed
  | unmapped loaded failed =>
      exact .unmapped (by rw [milestones_append, loaded, silent]; rfl) failed
  | divided uncounted =>
      rw [List.append_assoc]
      exact .divided uncounted
  | refused ready counted ends failed =>
      rw [List.append_assoc, List.cons_append]
      exact .refused ready counted (by rw [milestones_append, ends, silent]; rfl) failed
  | entered graphics ready counted ends left =>
      rw [List.append_assoc, List.cons_append, List.cons_append]
      exact .entered graphics ready counted (by rw [milestones_append, ends, silent]; rfl) left

theorem boot_handsOver (does : (boot imageHandle).Does t status) : HandsOver t status := by
  obtain ⟨prepared, t₁, t₂, rfl, preparation, ends⟩ := does_bind.mp does
  have divided {image : Pointer} {size : Size} (read : milestones t₁ = [.image image size])
      (zero : prepared.2.descriptorSize = 0#64) (does : (handOver prepared.2).Does t₂ status) :
      HandsOver (t₁ ++ t₂) status := by
    obtain ⟨t₃, t₄, rfl, same⟩ := handOver_divides t₁ does zero
    rw [← List.append_assoc]
    exact .divided (.inl (same.trans read))
  rcases prepare_milestones preparation with ⟨none, failed⟩ |
    ⟨image, size, ⟨read, uncounted⟩ | ⟨graphics, buffer, map, ready, rfl⟩⟩
  · rcases does_ite.mp ends with ⟨-, rfl, rfl⟩ | ⟨succeeded, -⟩
    · exact (HandsOver.unloaded none failed).append rfl
    · exact absurd failed succeeded
  · rcases does_ite.mp ends with ⟨failed, rfl, rfl⟩ | ⟨succeeded, handing⟩
    · exact (HandsOver.unmapped read failed).append rfl
    · exact divided read (uncounted.resolve_left succeeded) handing
  · rcases does_ite.mp ends with ⟨failed, -⟩ | ⟨-, handing⟩
    · cases failed
    by_cases zero : map.descriptorSize = 0#64
    · obtain ⟨t₃, t₄, rfl, same⟩ := handOver_divides t₁ handing zero
      rw [← List.append_assoc]
      exact .divided (.inr ⟨buffer, map, same.trans ready, zero⟩)
    · exact handOver_handsOver ready zero handing

end Main

end ModernOS.Boot
