import ModernOS.Boot.Steps
import ModernOS.Boot.LoadKernel
import ModernOS.Boot.Graphics

/-!
What the success of a boot step stands for.

Where the firmware reports success without the result that is asked for, `InitializeGraphics` and
`SetupMemoryMap` return that success and set nothing. The rest of `efi_main` relies on the results
being there. Of its transcript only the events matter that have to do with them: `events` picks
them out, and each step of `efi_main` has one lemma that says which it brings about.
-/

namespace ModernOS.Boot

open Program

/-! ### `InitializeGraphics` -/

/-- The handle is one that has the protocol. -/
def Locates (handle : Pointer) : Exchange uefi → Prop
  | ⟨.locateHandleBuffer .graphicsOutput, located⟩ =>
      ¬ efiError located.status ∧ handle ∈ located.handles
  | _ => False

/-- The protocol of the handle is `gop`. -/
def Opens (handle gop : Pointer) : Exchange uefi → Prop
  | ⟨.handleProtocol handle' .graphicsOutput, opened⟩ =>
      handle' = handle ∧ ¬ efiError opened.status ∧ opened.pointer = gop
  | _ => False

/-- The protocol reports the mode. -/
def Reports (gop : Pointer) (info : ModeInformation) : Exchange uefi → Prop
  | ⟨.graphicsMode gop', mode⟩ => gop' = gop ∧ mode.info = info
  | _ => False

/-- `graphics_info` is what a protocol that has been located reports. -/
def GraphicsStored (t : Transcript uefi) (config : BootConfig) : Prop :=
  ∃ handle gop info, (∃ e ∈ t, Locates handle e) ∧ (∃ e ∈ t, Opens handle gop e) ∧
    (∃ e ∈ t, Reports gop info e) ∧ config.graphicsInfo = some info

/-- `LocateHandleBuffer` reports success and no handle. -/
def LocatesNothing : Exchange uefi → Prop
  | ⟨.locateHandleBuffer _, located⟩ => located.status = EFI_SUCCESS ∧ located.handles = []
  | _ => False

section Graphics

variable {config : BootConfig} {t : Transcript uefi} {result : Status × BootConfig}

theorem graphicsStored_choosing {located : HandleBuffer} {opened : Acquired}
    {mode mode' : GraphicsMode} {answers : List Queried}
    (present : ¬ (efiError located.status ∨ located.handles = []))
    (succeeded : ¬ efiError opened.status)
    (reported : ⟨.graphicsMode opened.pointer, mode'⟩ ∈ t) :
    GraphicsStored (choosing located opened mode answers ++ t) (storeGraphics config mode') := by
  obtain ⟨found, handles⟩ := not_or.mp present
  have first : located.handles.headD 0#64 ∈ located.handles := by
    rw [List.headD_eq_head?_getD, List.head?_eq_some_head handles]
    exact List.head_mem handles
  refine ⟨located.handles.headD 0#64, opened.pointer, mode'.info, ?_, ?_, ?_, rfl⟩
  · exact ⟨_, List.mem_cons_self, found, first⟩
  · exact ⟨_, List.mem_cons_of_mem _ List.mem_cons_self, rfl, succeeded, rfl⟩
  · exact ⟨_, List.mem_append_right _ reported, rfl, rfl⟩

/-- Handles that have been found are not nothing. -/
theorem not_locatesNothing_choosing {located : HandleBuffer} {opened : Acquired}
    {mode : GraphicsMode} {answers : List Queried}
    (present : ¬ (efiError located.status ∨ located.handles = []))
    (rest : ∀ e ∈ t, ¬ LocatesNothing e) :
    ∀ e ∈ choosing located opened mode answers ++ t, ¬ LocatesNothing e := by
  obtain ⟨succeeded, handles⟩ := not_or.mp present
  simp only [choosing, lookup, survey, List.cons_append, List.nil_append, List.forall_mem_cons,
    List.forall_mem_append, List.forall_mem_map, LocatesNothing, handles, and_false,
    not_false_eq_true, true_and, implies_true]
  exact rest

theorem initializeGraphics_stored_iff (does : (initializeGraphics config).Does t result) :
    (result.1 = EFI_SUCCESS → GraphicsStored t result.2) ↔ ∀ e ∈ t, ¬ LocatesNothing e := by
  cases initializeGraphics_run does with
  | @notLocated located absent =>
      rw [List.forall_mem_singleton]
      by_cases success : located.status = EFI_SUCCESS
      · have handles : located.handles = [] := absent.resolve_left (by rw [success]; decide)
        refine iff_of_false (fun stored => ?_) (not_not_intro ⟨success, handles⟩)
        obtain ⟨handle, gop, info, -, ⟨e, mem, opens⟩, -⟩ := stored success
        obtain rfl := List.mem_singleton.mp mem
        exact opens
      · exact iff_of_true (fun succeeded => absurd succeeded success) fun nothing =>
          success nothing.1
  | notOpened present failed =>
      obtain ⟨succeeded, handles⟩ := not_or.mp present
      refine iff_of_true (fun success => absurd success (ne_success failed)) ?_
      simp only [lookup, List.cons_append, List.nil_append, List.forall_mem_cons]
      exact ⟨fun nothing => handles nothing.2, not_false, not_false, List.forall_mem_nil _⟩
  | notSet present succeeded asked found failed =>
      refine iff_of_true (fun success => absurd success (ne_success failed))
        (not_locatesNothing_choosing present ?_)
      simp only [List.forall_mem_cons]
      exact ⟨not_false, not_false, List.forall_mem_nil _⟩
  | set present succeeded asked found changed =>
      refine iff_of_true (fun _ => graphicsStored_choosing present succeeded ?_)
        (not_locatesNothing_choosing present ?_)
      · exact List.mem_cons_of_mem _ List.mem_cons_self
      · simp only [List.forall_mem_cons]
        exact ⟨not_false, not_false, not_false, List.forall_mem_nil _⟩
  | kept present succeeded asked none =>
      refine iff_of_true (fun _ => graphicsStored_choosing present succeeded List.mem_cons_self)
        (not_locatesNothing_choosing present ?_)
      simp only [List.forall_mem_cons]
      exact ⟨not_false, not_false, List.forall_mem_nil _⟩

end Graphics

/-! ### `SetupMemoryMap` -/

/-- A buffer of this size is allocated. -/
def AllocatesPool (buffer : Pointer) (size : Size) : Exchange uefi → Prop
  | ⟨.allocatePool size', pool⟩ => size' = size ∧ ¬ efiError pool.status ∧ pool.pointer = buffer
  | _ => False

/-- The memory map is written to this buffer. -/
def MapsTo (buffer : Pointer) (mapSize descriptorSize : Size) : Exchange uefi → Prop
  | ⟨.getMemoryMap _ (some buffer'), map⟩ =>
      buffer' = buffer ∧ ¬ efiError map.status ∧ map.size = mapSize ∧
        map.descriptorSize = descriptorSize
  | _ => False

/-- `memory_map` is a buffer that the map has been written to and is large enough for it, and
`descriptor_size` is the size that came with the map. -/
def MapStored (t : Transcript uefi) (config : BootConfig) : Prop :=
  ∃ size, (∃ e ∈ t, AllocatesPool config.memoryMap size e) ∧
    (∃ e ∈ t, MapsTo config.memoryMap config.memoryMapSize config.descriptorSize e) ∧
    config.memoryMapSize ≤ size

/-- `GetMemoryMap` reports success without a buffer, or a map that is larger than its buffer. -/
def MapsWithoutRoom : Exchange uefi → Prop
  | ⟨.getMemoryMap _ none, sized⟩ => sized.status = EFI_SUCCESS
  | ⟨.getMemoryMap size (some _), map⟩ => ¬ efiError map.status ∧ ¬ map.size ≤ size
  | _ => False

/-- The memory map of the configuration. -/
def storeMap (config : BootConfig) (buffer : Pointer) (map : MemoryMap) : BootConfig :=
  { config with
    memoryMap := buffer
    memoryMapSize := map.size
    memoryMapKey := map.key
    descriptorSize := map.descriptorSize
    descriptorVersion := map.descriptorVersion }

/-- The size of the buffer for the map. -/
def mapRoom (sized : MemoryMap) : Size := sized.size + 2#64 * sized.descriptorSize

/-- The runs of `SetupMemoryMap`. -/
inductive MapRun (config : BootConfig) : Transcript uefi → Status × BootConfig → Prop
  | notSized {sized : MemoryMap} (other : sized.status ≠ EFI_BUFFER_TOO_SMALL) :
      MapRun config [⟨.getMemoryMap 0#64 none, sized⟩] (sized.status, config)
  | noPool {sized : MemoryMap} {pool : Acquired} (small : sized.status = EFI_BUFFER_TOO_SMALL)
      (failed : efiError pool.status) :
      MapRun config
        [⟨.getMemoryMap 0#64 none, sized⟩, ⟨.allocatePool (mapRoom sized), pool⟩]
        (pool.status, config)
  | notMapped {sized map : MemoryMap} {pool : Acquired} {freed : Completed}
      (small : sized.status = EFI_BUFFER_TOO_SMALL) (allocated : ¬ efiError pool.status)
      (failed : efiError map.status) :
      MapRun config
        [⟨.getMemoryMap 0#64 none, sized⟩, ⟨.allocatePool (mapRoom sized), pool⟩,
          ⟨.getMemoryMap (mapRoom sized) (some pool.pointer), map⟩,
          ⟨.freePool pool.pointer, freed⟩]
        (map.status, config)
  | mapped {sized map : MemoryMap} {pool : Acquired}
      (small : sized.status = EFI_BUFFER_TOO_SMALL) (allocated : ¬ efiError pool.status)
      (succeeded : ¬ efiError map.status) :
      MapRun config
        [⟨.getMemoryMap 0#64 none, sized⟩, ⟨.allocatePool (mapRoom sized), pool⟩,
          ⟨.getMemoryMap (mapRoom sized) (some pool.pointer), map⟩]
        (EFI_SUCCESS, storeMap config pool.pointer map)

section Map

variable {config : BootConfig} {t : Transcript uefi} {result : Status × BootConfig}

theorem setupMemoryMap_run (does : (setupMemoryMap config).Does t result) :
    MapRun config t result := by
  simp only [setupMemoryMap, ask_bind, pure_eq, does_call, does_ite, does_ret] at does
  obtain ⟨sized, _, rfl, ⟨other, rfl, rfl⟩ | ⟨small, pool, _, rfl, does⟩⟩ := does
  · exact .notSized other
  have small := not_not.mp small
  rcases does with ⟨failed, rfl, rfl⟩ | ⟨allocated, map, _, rfl, does⟩
  · exact .noPool small failed
  rcases does with ⟨failed, freed, _, rfl, rfl, rfl⟩ | ⟨succeeded, rfl, rfl⟩
  · exact .notMapped small allocated failed
  · exact .mapped small allocated succeeded

theorem setupMemoryMap_stored_iff (does : (setupMemoryMap config).Does t result) :
    (result.1 = EFI_SUCCESS → MapStored t result.2) ↔ ∀ e ∈ t, ¬ MapsWithoutRoom e := by
  have unsized {sized : MemoryMap} (small : sized.status = EFI_BUFFER_TOO_SMALL) :
      sized.status ≠ EFI_SUCCESS := by
    rw [small]
    decide
  cases setupMemoryMap_run does with
  | @notSized sized other =>
      rw [List.forall_mem_singleton]
      by_cases success : sized.status = EFI_SUCCESS
      · refine iff_of_false (fun stored => ?_) (not_not_intro success)
        obtain ⟨size, ⟨e, mem, allocates⟩, -⟩ := stored success
        obtain rfl := List.mem_singleton.mp mem
        exact allocates
      · exact iff_of_true (fun succeeded => absurd succeeded success) success
  | noPool small failed =>
      refine iff_of_true (fun success => absurd success (ne_success failed)) ?_
      simp only [List.forall_mem_cons]
      exact ⟨unsized small, not_false, List.forall_mem_nil _⟩
  | notMapped small allocated failed =>
      refine iff_of_true (fun success => absurd success (ne_success failed)) ?_
      simp only [List.forall_mem_cons]
      exact ⟨unsized small, not_false, fun maps => maps.1 failed, not_false, List.forall_mem_nil _⟩
  | mapped small allocated succeeded =>
      simp only [MapStored, storeMap, List.exists_mem_cons_iff, List.forall_mem_cons,
        List.not_mem_nil, false_and, exists_false, or_false, false_imp_iff, implies_true, and_true]
      simp [MapsWithoutRoom, AllocatesPool, MapsTo, unsized small, allocated, succeeded]

end Map

/-! ### `efi_main` -/

/-- What has to do with the results of the steps. -/
inductive Event where
  /-- `LocateHandleBuffer` reports no error and no handle. -/
  | noHandles
  /-- A read through a null `graphics_info`. -/
  | nullRead
  /-- `GetMemoryMap` reports no error without a buffer. -/
  | noBuffer
  /-- `GetMemoryMap` writes the map to a buffer. -/
  | mapped
  /-- A division by zero, or the start of the kernel. -/
  | used
  deriving DecidableEq, Repr

def eventOf : Exchange uefi → Option Event
  | ⟨.locateHandleBuffer _, located⟩ =>
      if ¬ efiError located.status ∧ located.handles = [] then some .noHandles else none
  | ⟨.getMemoryMap _ none, sized⟩ => if efiError sized.status then none else some .noBuffer
  | ⟨.getMemoryMap _ (some _), map⟩ => if efiError map.status then none else some .mapped
  | ⟨.nullGraphicsInfo, _⟩ => some .nullRead
  | ⟨.divideError, _⟩ | ⟨.kernelEntry .., _⟩ => some .used
  | _ => none

/-- The events of a transcript. -/
def events (t : Transcript uefi) : List Event := t.filterMap eventOf

/-- The call has nothing to do with the results. -/
def Elsewhere : Call → Prop
  | .locateHandleBuffer _ | .getMemoryMap .. | .nullGraphicsInfo | .divideError
  | .kernelEntry .. => False
  | _ => True

section Events

variable {t t' : Transcript uefi}

@[simp] theorem events_nil : events [] = [] := rfl

@[simp] theorem events_append : events (t ++ t') = events t ++ events t' := List.filterMap_append

theorem eventOf_elsewhere {e : Exchange uefi} (elsewhere : Elsewhere e.call) :
    eventOf e = none := by
  rcases e with ⟨call, answer⟩
  cases call <;> first | rfl | exact absurd elsewhere id

@[simp] theorem events_print {format : String} {arguments : List Argument}
    {r : uefi.Result (.print format arguments)} :
    events (⟨.print format arguments, r⟩ :: t) = events t := rfl

/-- A program that calls elsewhere only has no events. -/
theorem events_eq_nil {α : Type} {p : Loader α} {a : α} {Q : α → Prop}
    (meets : Meets (fun _ _ => True) Elsewhere Q p) (does : p.Does t a) : events t = [] := by
  obtain ⟨-, calls⟩ := meets.does does fun _ _ => trivial
  exact List.filterMap_eq_nil_iff.mpr fun e mem => eventOf_elsewhere (calls e mem)

theorem welcome_elsewhere (imageHandle : Pointer) :
    Meets (fun _ _ => True) Elsewhere (fun _ => True) (welcome imageHandle) := by
  simp [welcome, meets_call, meets_print, Elsewhere.eq_def]

theorem locateStep_elsewhere (imageHandle : Pointer) :
    Meets (fun _ _ => True) Elsewhere (fun _ => True) (locateStep imageHandle) := by
  simp [locateStep, meets_call, meets_ite, meets_ret, Elsewhere.eq_def]

theorem loadKernel_elsewhere (filesystem : Pointer) (config : BootConfig) :
    Meets (fun _ _ => True) Elsewhere (fun r => r.2.descriptorSize = config.descriptorSize)
      (loadKernel filesystem config) := by
  simp [loadKernel, meets_call, meets_ite, meets_ret, Elsewhere.eq_def]

theorem loadStep_elsewhere (filesystem : Pointer) (config : BootConfig) :
    Meets (fun _ _ => True) Elsewhere (fun r => r.2.descriptorSize = config.descriptorSize)
      (loadStep filesystem config) := by
  rw [loadStep, print_bind, meets_call]
  refine ⟨trivial, fun _ _ => (loadKernel_elsewhere filesystem config).bind fun r kept => ?_⟩
  simp [meets_call, meets_ite, meets_ret, Elsewhere.eq_def, kept]

theorem waitForKeyPress_elsewhere :
    Meets (fun _ _ => True) Elsewhere (fun _ => True) waitForKeyPress := by
  simp [waitForKeyPress, meets_call, meets_ite, meets_ret, Elsewhere.eq_def]

theorem eventOf_located {located : HandleBuffer}
    (present : ¬ (efiError located.status ∨ located.handles = [])) :
    eventOf ⟨.locateHandleBuffer .graphicsOutput, located⟩ = none :=
  if_neg fun nothing => present (.inr nothing.2)

theorem events_choosing {located : HandleBuffer} {opened : Acquired} {mode : GraphicsMode}
    {answers : List Queried} (present : ¬ (efiError located.status ∨ located.handles = [])) :
    events (choosing located opened mode answers ++ t) = events t := by
  have silent : events (survey opened.pointer answers) = [] := by
    simp [events, survey, List.filterMap_map, Function.comp_def, eventOf]
  rw [choosing, lookup, List.append_assoc]
  calc events _ = events (survey opened.pointer answers ++ t) :=
        List.filterMap_cons_none (eventOf_located present)
    _ = events t := by rw [events_append, silent, List.nil_append]

theorem GraphicsRun.events {config : BootConfig} {result : Status × BootConfig}
    (run : GraphicsRun config t result) :
    events t = [] ∧ (efiError result.1 ∨ ∃ info, result.2.graphicsInfo = some info) ∨
      events t = [.noHandles] ∧ ¬ efiError result.1 ∧ result.2 = config := by
  cases run with
  | @notLocated located absent =>
      by_cases failed : efiError located.status
      · exact .inl ⟨List.filterMap_cons_none (if_neg fun nothing => nothing.1 failed), .inl failed⟩
      · have handles := absent.resolve_left failed
        exact .inr ⟨List.filterMap_cons_some (if_pos ⟨failed, handles⟩), failed, rfl⟩
  | notOpened present failed =>
      exact .inl ⟨List.filterMap_cons_none (eventOf_located present), .inl failed⟩
  | notSet present succeeded asked found failed =>
      exact .inl ⟨events_choosing present, .inl failed⟩
  | set present succeeded asked found changed =>
      exact .inl ⟨events_choosing present, .inr ⟨_, rfl⟩⟩
  | kept present succeeded asked none =>
      exact .inl ⟨events_choosing present, .inr ⟨_, rfl⟩⟩

theorem GraphicsRun.descriptorSize {config : BootConfig} {result : Status × BootConfig}
    (run : GraphicsRun config t result) : result.2.descriptorSize = config.descriptorSize := by
  cases run <;> rfl

theorem graphicsInfo_events {config : BootConfig} {info : ModeInformation}
    (does : (graphicsInfo config).Does t info) :
    events t = if config.graphicsInfo = none then [.nullRead] else [] := by
  unfold graphicsInfo at does
  split at does
  · rename_i stored
    obtain ⟨rfl, rfl⟩ := does
    rw [stored]
    rfl
  · rename_i null
    obtain ⟨r, _, rfl, rfl, rfl⟩ := does
    rw [null]
    rfl

/-- In step 1 a success without a handle is followed by a read through the null pointer. -/
theorem graphicsStep_events {config config' : BootConfig} (null : config.graphicsInfo = none)
    (does : (graphicsStep config).Does t config') :
    (events t = [] ∨ events t = [.noHandles, .nullRead]) ∧
      config'.descriptorSize = config.descriptorSize := by
  rw [graphicsStep, print_bind, does_call] at does
  obtain ⟨_, _, rfl, does⟩ := does
  obtain ⟨⟨status, stored⟩, t₁, t₂, rfl, initialized, ends⟩ := does_bind.mp does
  have run := initializeGraphics_run initialized
  have kept := run.descriptorSize
  simp only [does_ite, print_bind, does_call, pure_eq, does_ret] at ends
  rcases ends with ⟨failed, _, _, rfl, _, _, rfl, rfl, rfl⟩ | ⟨succeeded, _, _, rfl, ends⟩
  · simp only [events_print, events_append, events_nil, List.append_nil]
    rcases run.events with ⟨none, -⟩ | ⟨-, noError, -⟩
    · exact ⟨.inl none, kept⟩
    · exact absurd failed noError
  · obtain ⟨info, t₃, t₄, rfl, read, ends⟩ := does_bind.mp ends
    simp only [does_call, does_ret] at ends
    obtain ⟨_, _, rfl, _, _, rfl, rfl, rfl⟩ := ends
    simp only [events_print, events_append, events_nil, List.append_nil, graphicsInfo_events read]
    refine ⟨?_, kept⟩
    rcases run.events with ⟨none, failed | ⟨info, shown⟩⟩ | ⟨nothing, -, same⟩
    · exact absurd failed succeeded
    · rw [none, shown]
      exact .inl rfl
    · obtain rfl : config' = config := same
      rw [nothing, null]
      exact .inr rfl

/-- What the runs of `SetupMemoryMap` lead to: an error, a map, or a success without one. -/
theorem MapRun.events {config : BootConfig} {result : Status × BootConfig}
    (run : MapRun config t result) :
    events t = [] ∧ efiError result.1 ∨ events t = [.mapped] ∨
      events t = [.noBuffer] ∧ ¬ efiError result.1 ∧ result.2 = config := by
  have noEvent {sized : MemoryMap} (failed : efiError sized.status) :
      eventOf ⟨.getMemoryMap 0#64 none, sized⟩ = none := if_pos failed
  have isError {sized : MemoryMap} (small : sized.status = EFI_BUFFER_TOO_SMALL) :
      efiError sized.status := by
    rw [small]
    decide
  cases run with
  | @notSized sized other =>
      by_cases failed : efiError sized.status
      · exact .inl ⟨List.filterMap_cons_none (noEvent failed), failed⟩
      · exact .inr (.inr ⟨List.filterMap_cons_some (if_neg failed), failed, rfl⟩)
  | noPool small failed =>
      exact .inl ⟨List.filterMap_cons_none (noEvent (isError small)), failed⟩
  | @notMapped sized map pool freed small allocated failed =>
      have last : eventOf ⟨.getMemoryMap (mapRoom sized) (some pool.pointer), map⟩ = none :=
        if_pos failed
      refine .inl ⟨?_, failed⟩
      exact (List.filterMap_cons_none (noEvent (isError small))).trans
        ((List.filterMap_cons_none rfl).trans (List.filterMap_cons_none last))
  | @mapped sized map pool small allocated succeeded =>
      have last : eventOf ⟨.getMemoryMap (mapRoom sized) (some pool.pointer), map⟩ = some .mapped :=
        if_neg succeeded
      refine .inr (.inl ?_)
      exact (List.filterMap_cons_none (noEvent (isError small))).trans
        ((List.filterMap_cons_none rfl).trans (List.filterMap_cons_some last))

theorem mapStep_events {config : BootConfig} {result : Status × BootConfig}
    (does : (mapStep config).Does t result) :
    events t = [] ∧ efiError result.1 ∨ events t = [.mapped] ∨
      events t = [.noBuffer] ∧ ¬ efiError result.1 ∧ result.2 = config := by
  rw [mapStep, print_bind, does_call] at does
  obtain ⟨_, _, rfl, does⟩ := does
  obtain ⟨⟨status, stored⟩, t₁, t₂, rfl, mapped, ends⟩ := does_bind.mp does
  simp only [does_ite, print_bind, does_call, pure_eq, does_ret] at ends
  have ends : events t₂ = [] ∧ result = (status, stored) := by
    rcases ends with ⟨failed, _, _, rfl, rfl, rfl⟩ | ⟨succeeded, rfl, rfl⟩ <;> exact ⟨rfl, rfl⟩
  rw [events_print, events_append, ends.1, List.append_nil, ends.2]
  exact (setupMemoryMap_run mapped).events

theorem memoryMapEntries_events {config : BootConfig} {entries : Size}
    (does : (memoryMapEntries config).Does t entries) :
    events t = if config.descriptorSize = 0#64 then [.used] else [] := by
  rw [memoryMapEntries, does_ite] at does
  rcases does with ⟨unset, _, _, rfl, rfl, rfl⟩ | ⟨isSet, rfl, rfl⟩
  · exact (if_pos unset).symm
  · exact (if_neg isSet).symm

/-- `PrintBootInfo` divides by zero exactly when there is no descriptor size. -/
theorem printBootInfo_events {config : BootConfig} {r : Unit}
    (does : (printBootInfo config).Does t r) :
    events t = if config.descriptorSize = 0#64 then [.used] else [] := by
  simp only [printBootInfo, print_bind, does_call] at does
  obtain ⟨_, _, rfl, _, _, rfl, _, _, rfl, _, _, rfl, _, _, rfl, _, _, rfl, _, _, rfl, _, _, rfl,
    _, _, rfl, does⟩ := does
  obtain ⟨entries, t₁, t₂, rfl, divided, ends⟩ := does_bind.mp does
  have silent : events t₂ = [] := by
    refine events_eq_nil (Q := fun _ => True) ?_ ends
    cases config.graphicsInfo <;> simp [meets_call, meets_print, Elsewhere.eq_def]
  simp only [events_print, events_append, silent, List.append_nil]
  exact memoryMapEntries_events divided

theorem announce_events {config : BootConfig} {status : Status}
    (does : (announce config).Does t status) :
    events t = if config.descriptorSize = 0#64 then [.used] else [] := by
  simp only [announce, print_bind, does_call] at does
  obtain ⟨_, _, rfl, _, _, rfl, does⟩ := does
  obtain ⟨long, _, rest, rfl, ⟨rfl, rfl⟩, does'⟩ := does_bind.mp does
  simp only [does_ite, does_call] at does'
  rcases does' with ⟨failed, -⟩ | ⟨-, _, _, rfl, _, _, rfl, does'⟩
  · cases failed
  obtain ⟨_, t₁, t₂, rfl, printed, ends⟩ := does_bind.mp does'
  have silent : events t₂ = [] := by
    refine events_eq_nil (Q := fun _ => True) ?_ ends
    simp only [meets_call, Elsewhere.eq_def, true_and]
    intros
    exact waitForKeyPress_elsewhere.bind fun _ _ => by
      simp [meets_call, meets_ret, Elsewhere.eq_def]
  simp only [events_print, events_append, List.nil_append, silent, List.append_nil]
  exact printBootInfo_events printed

theorem transferControlToKernel_events {config : BootConfig} {status : Status}
    (does : (transferControlToKernel config).Does t status) :
    ∀ event ∈ events t, event = .used := by
  simp only [transferControlToKernel, ask_bind, does_call, does_ite, pure_eq, does_ret] at does
  obtain ⟨exited, _, rfl, ⟨failed, rfl, rfl⟩ | ⟨left, _, _, rfl, rfl, rfl⟩⟩ := does
  · exact fun event mem => absurd mem List.not_mem_nil
  · exact fun event mem => List.mem_singleton.mp mem

/-- Steps 5 and 6 divide by the descriptor size and start the kernel. -/
theorem handOver_events {config : BootConfig} {status : Status}
    (does : (handOver config).Does t status) :
    (∀ event ∈ events t, event = .used) ∧
      (config.descriptorSize = 0#64 → .used ∈ events t) := by
  obtain ⟨announced, t₁, t₂, rfl, first, ends⟩ := does_bind.mp does
  have last : ∀ event ∈ events t₂, event = .used := by
    rw [does_ite] at ends
    rcases ends with ⟨failed, rfl, rfl⟩ | ⟨-, ends⟩
    · exact fun event mem => absurd mem List.not_mem_nil
    · obtain ⟨returned, t₃, t₄, rfl, transferred, ends⟩ := does_bind.mp ends
      simp only [print_bind, does_call, pure_eq, does_ret] at ends
      obtain ⟨_, _, rfl, rfl, rfl⟩ := ends
      simp only [events_append, events_print, events_nil, List.append_nil]
      exact transferControlToKernel_events transferred
  rw [events_append, announce_events first]
  refine ⟨fun event mem => ?_, fun unset => ?_⟩
  · rcases List.mem_append.mp mem with divided | entered
    · split at divided
      · exact List.mem_singleton.mp divided
      · exact absurd divided List.not_mem_nil
    · exact last event entered
  · rw [if_pos unset]
    exact List.mem_append_left _ List.mem_cons_self

/-- Steps 1 to 4: the events of step 1, and an error, a map, or a success without one. -/
theorem prepare_events {imageHandle : Pointer} {result : Status × BootConfig}
    (does : (prepare imageHandle).Does t result) :
    ∃ shown : List Event, (shown = [] ∨ shown = [.noHandles, .nullRead]) ∧
      (events t = shown ∧ efiError result.1 ∨ events t = shown ++ [Event.mapped] ∨
        events t = shown ++ [Event.noBuffer] ∧ ¬ efiError result.1 ∧
          result.2.descriptorSize = 0#64) := by
  obtain ⟨_, t₁, t₂, rfl, welcomed, does'⟩ := does_bind.mp does
  obtain ⟨config, t₃, t₄, rfl, displayed, does''⟩ := does_bind.mp does'
  obtain ⟨⟨found, filesystem⟩, t₅, t₆, rfl, located, ends⟩ := does_bind.mp does''
  obtain ⟨shown, unset⟩ := graphicsStep_events rfl displayed
  have first : events t₁ = [] := events_eq_nil (welcome_elsewhere imageHandle) welcomed
  have third : events t₅ = [] := events_eq_nil (locateStep_elsewhere imageHandle) located
  refine ⟨events t₃, shown, ?_⟩
  simp only [events_append, first, third, List.nil_append]
  simp only [does_ite] at ends
  rcases ends with ⟨failed, rfl, rfl⟩ | ⟨-, ends⟩
  · exact .inl ⟨List.append_nil _, failed⟩
  obtain ⟨⟨loaded, config'⟩, t₇, t₈, rfl, loads, ends'⟩ := does_bind.mp ends
  have fourth : events t₇ = [] := events_eq_nil (loadStep_elsewhere filesystem config) loads
  have kept : config'.descriptorSize = config.descriptorSize :=
    ((loadStep_elsewhere filesystem config).does loads fun _ _ => trivial).1
  simp only [events_append, fourth, List.nil_append]
  simp only [does_ite] at ends'
  rcases ends' with ⟨failed, rfl, rfl⟩ | ⟨-, mapped⟩
  · exact .inl ⟨List.append_nil _, failed⟩
  rcases mapStep_events mapped with ⟨none, failed⟩ | map | ⟨noBuffer, noError, same⟩
  · exact .inl ⟨by rw [none, List.append_nil], failed⟩
  · exact .inr (.inl (by rw [map]))
  · exact .inr (.inr ⟨by rw [noBuffer], noError, by rw [same, kept, unset]; rfl⟩)

/-- What happens in `efi_main`: the events of steps 1 and 4, and the uses of the map. -/
theorem efiMain_events {imageHandle : Pointer} {status : Status}
    (does : (efiMain imageHandle).Does t status) :
    ∃ shown uses : List Event, (shown = [] ∨ shown = [.noHandles, .nullRead]) ∧
      (∀ event ∈ uses, event = .used) ∧
      (events t = shown ∨ events t = shown ++ .mapped :: uses ∨
        events t = shown ++ .noBuffer :: uses ∧ .used ∈ uses) := by
  obtain ⟨_, t₁, t₂, rfl, booted, ends⟩ := does_bind.mp does
  have silent : events t₂ = [] := by
    refine events_eq_nil (Q := fun _ => True) ?_ ends
    rw [print_bind, meets_call]
    exact ⟨trivial, fun _ _ => waitForKeyPress_elsewhere.bind fun _ _ => trivial⟩
  rw [events_append, silent, List.append_nil]
  obtain ⟨⟨prepared, config⟩, t₃, t₄, rfl, prepares, ends'⟩ := does_bind.mp booted
  obtain ⟨shown, start, results⟩ := prepare_events prepares
  simp only [does_ite] at ends'
  rcases ends' with ⟨failed, rfl, rfl⟩ | ⟨succeeded, handed⟩
  · refine ⟨shown, [], start, fun event mem => absurd mem List.not_mem_nil, ?_⟩
    rw [events_append, events_nil, List.append_nil]
    rcases results with ⟨none, -⟩ | mapped | ⟨-, noError, -⟩
    · exact .inl none
    · exact .inr (.inl mapped)
    · exact absurd failed noError
  · obtain ⟨all, divides⟩ := handOver_events handed
    refine ⟨shown, events t₄, start, all, ?_⟩
    rw [events_append]
    rcases results with ⟨-, failed⟩ | mapped | ⟨noBuffer, -, unset⟩
    · exact absurd failed succeeded
    · exact .inr (.inl (by rw [mapped, List.append_assoc]; rfl))
    · exact .inr (.inr ⟨by rw [noBuffer, List.append_assoc]; rfl, divides unset⟩)

/-- Nothing is read through a null `graphics_info`, and the memory map is there when its
descriptor size is divided by or given to the kernel. -/
def ResultsThere (t : Transcript uefi) : Prop :=
  .nullRead ∉ events t ∧ ∀ before after, events t = before ++ .used :: after → .mapped ∈ before

theorem efiMain_resultsThere_iff {imageHandle : Pointer} {status : Status}
    (does : (efiMain imageHandle).Does t status) :
    ResultsThere t ↔ .noHandles ∉ events t ∧ .noBuffer ∉ events t := by
  obtain ⟨shown, uses, start, all, ends⟩ := efiMain_events does
  have only {event : Event} (other : event ≠ .used) : event ∉ uses := fun mem =>
    other (all event mem)
  unfold ResultsThere
  rcases start with rfl | rfl
  · rcases ends with ends | ends | ⟨ends, used⟩
    · rw [ends]
      simp
    · have silent : .nullRead ∉ events t ∧ .noHandles ∉ events t ∧ .noBuffer ∉ events t := by
        rw [ends]
        simp [only]
      refine iff_of_true ⟨silent.1, fun before after split => ?_⟩ silent.2
      rw [ends] at split
      cases before with
      | nil => cases (List.cons.inj split).1
      | cons first before =>
          rw [← (List.cons.inj split).1]
          exact List.mem_cons_self
    · obtain ⟨before, after, rfl⟩ := List.append_of_mem used
      refine iff_of_false (fun there => ?_) (fun quiet => quiet.2 ?_)
      · rcases List.mem_cons.mp (there.2 (.noBuffer :: before) after ends) with same | mapped
        · cases same
        · exact only (by decide) (List.mem_append_left _ mapped)
      · rw [ends]
        exact List.mem_cons_self
  · rcases ends with ends | ends | ⟨ends, -⟩ <;> rw [ends] <;> simp

end Events

/-! ### Success and results -/

/-- A step that succeeds has brought about its results, and `efi_main` finds those that it uses,
exactly if the firmware reports no success without a result. -/
theorem success_has_results_iff (config : BootConfig) (imageHandle : Pointer)
    (t : Transcript uefi) :
    (∀ result, (initializeGraphics config).Does t result →
      ((result.1 = EFI_SUCCESS → GraphicsStored t result.2) ↔ ∀ e ∈ t, ¬ LocatesNothing e)) ∧
    (∀ result, (setupMemoryMap config).Does t result →
      ((result.1 = EFI_SUCCESS → MapStored t result.2) ↔ ∀ e ∈ t, ¬ MapsWithoutRoom e)) ∧
    ∀ status, (efiMain imageHandle).Does t status →
      (ResultsThere t ↔ .noHandles ∉ events t ∧ .noBuffer ∉ events t) :=
  ⟨fun _ => initializeGraphics_stored_iff, fun _ => setupMemoryMap_stored_iff,
    fun _ => efiMain_resultsThere_iff⟩

/-- A firmware that finds no handles and reports no error. -/
def noHandles : (c : Call) → Result c
  | .locateHandleBuffer _ => ⟨EFI_SUCCESS, 0#64, []⟩
  | c => succeed 2#64 0#64 c

/-- Without a handle `InitializeGraphics` succeeds, and `efi_main` reads through a null pointer;
without a map `SetupMemoryMap` succeeds. -/
theorem success_without_results :
    (¬ ∀ config t result, (initializeGraphics config).Does t result →
      result.1 = EFI_SUCCESS → GraphicsStored t result.2) ∧
    (¬ ∀ config t result, (setupMemoryMap config).Does t result →
      result.1 = EFI_SUCCESS → MapStored t result.2) ∧
    ¬ ∀ imageHandle t status, (efiMain imageHandle).Does t status → ResultsThere t := by
  refine ⟨?_, ?_, ?_⟩
  · intro always
    obtain ⟨_, _, _, -, ⟨e, mem, opens⟩, -⟩ := always initialConfig
      [⟨.locateHandleBuffer .graphicsOutput, ⟨EFI_SUCCESS, 0#64, []⟩⟩] (EFI_SUCCESS, initialConfig)
      ⟨_, _, rfl, rfl, rfl⟩ rfl
    obtain rfl := List.mem_singleton.mp mem
    exact opens
  · intro always
    obtain ⟨_, ⟨e, mem, allocates⟩, -⟩ := always initialConfig
      [⟨.getMemoryMap 0#64 none, ⟨EFI_SUCCESS, 0#64, 0#64, 48#64, 1#32⟩⟩]
      (EFI_SUCCESS, initialConfig) ⟨_, _, rfl, rfl, rfl⟩ rfl
    obtain rfl := List.mem_singleton.mp mem
    exact allocates
  · intro always
    have there := always _ _ _ (does_transcript (.const noHandles) (efiMain 1#64) ())
    exact there.1 (by decide +kernel)

theorem success_has_results_of_succeed :
    let t := (efiMain 1#64).transcript (.const (succeed 2#64 0#64)) ()
    ResultsThere t ↔ .noHandles ∉ events t ∧ .noBuffer ∉ events t := by
  have does := does_transcript (.const (succeed 2#64 0#64)) (efiMain 1#64) ()
  exact (success_has_results_iff initialConfig _ _).2.2 _ does

end ModernOS.Boot
