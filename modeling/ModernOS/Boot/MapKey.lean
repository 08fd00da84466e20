import ModernOS.Boot.Steps

/-!
The key of the memory map.

`SetupMemoryMap` notes the key, and `TransferControlToKernel` gives it to `ExitBootServices`.
In between the bootloader prints, creates a timer and waits for a key, each of which may change
the map, and it does not ask for the map again when `ExitBootServices` refuses the old key. So
the kernel is started exactly when the firmware keeps its key all that time (`started_iff`).
-/

namespace ModernOS.Boot

open Program

/-- What a call returns that succeeds. `GetMemoryMap` without a buffer says that it is too small,
and `ExitBootServices` may fail. -/
def Succeeded : (c : Call) → Result c → Prop
  | .locateHandleBuffer _, r => efiError r.status = false ∧ r.handles ≠ []
  | .getMemoryMap _ none, r => r.status = EFI_BUFFER_TOO_SMALL
  | .getMemoryMap _ (some _), r => efiError r.status = false ∧ r.descriptorSize ≠ 0#64
  | .clearScreen, r | .setMode .., r | .close _, r | .freePool _, r | .freePages .., r
  | .setTimer .., r | .readKeyStroke, r | .closeEvent _, r | .handleProtocol .., r
  | .openVolume _, r | .openFile .., r | .allocatePool _, r | .allocatePages .., r
  | .createTimerEvent, r | .queryMode .., r | .getInfo .., r | .read .., r
  | .waitForKeyOr _, r => efiError r.status = false
  | .initializeLib _, _ | .print .., _ | .loadedImage _, _ | .graphicsMode _, _
  | .exitBootServices _, _ | .kernelEntry .., _ | .nullGraphicsInfo, _ | .divideError, _ => True

/-- A firmware with a key for its memory map. Any call but `GetMemoryMap` may change the key. -/
structure Firmware where
  env : Environment uefi
  key : env.State → Size
  succeeds : ∀ s c, Succeeded c (env.answer s c).1
  map_key : ∀ s size buffer, (env.answer s (.getMemoryMap size buffer)).1.key = key s
  map_keeps : ∀ s size buffer, key (env.answer s (.getMemoryMap size buffer)).2 = key s
  /-- `ExitBootServices` fails unless it is given the current key. -/
  exits : ∀ s mapKey,
    efiError (env.answer s (.exitBootServices mapKey)).1.status = decide (mapKey ≠ key s)

/-! ### Steps 1 to 4 -/

theorem locateStep_succeeds (imageHandle : Pointer) :
    Meets Succeeded NotEntry (fun r => efiError r.1 = false) (locateStep imageHandle) := by
  simp +contextual [locateStep, meets_call, meets_ret, NotEntry, Succeeded]

theorem loadKernel_succeeds (filesystem : Pointer) (config : BootConfig) :
    Meets Succeeded NotEntry (fun r => efiError r.1 = false) (loadKernel filesystem config) := by
  simp +contextual [loadKernel, meets_call, meets_ret, NotEntry, Succeeded, efiError]

theorem loadStep_succeeds (filesystem : Pointer) (config : BootConfig) :
    Meets Succeeded NotEntry (fun r => efiError r.1 = false) (loadStep filesystem config) := by
  rw [loadStep, print_bind, meets_call]
  refine ⟨trivial, fun _ _ => (loadKernel_succeeds filesystem config).bind fun r loaded => ?_⟩
  simp [meets_call, meets_ret, NotEntry, loaded]

theorem setupMemoryMap_succeeds (config : BootConfig) :
    Meets Succeeded NotEntry (fun r => efiError r.1 = false) (setupMemoryMap config) := by
  simp +contextual [setupMemoryMap, meets_call, meets_ret, NotEntry, Succeeded, efiError]

theorem mapStep_succeeds (config : BootConfig) :
    Meets Succeeded NotEntry (fun r => efiError r.1 = false) (mapStep config) := by
  rw [mapStep, print_bind, meets_call]
  refine ⟨trivial, fun _ _ => (setupMemoryMap_succeeds config).bind fun r mapped => ?_⟩
  simp [meets_ret, mapped]

theorem prepare_succeeds (imageHandle : Pointer) :
    Meets Succeeded NotEntry (fun r => efiError r.1 = false) (prepare imageHandle) := by
  refine (welcome_meets imageHandle).bind fun _ _ => ?_
  refine (graphicsStep_meets initialConfig).bind fun config _ => ?_
  refine (locateStep_succeeds imageHandle).bind fun located found => ?_
  simp only [found, Bool.false_eq_true, if_false]
  refine (loadStep_succeeds _ config).bind fun r loaded => ?_
  simp only [loaded, Bool.false_eq_true, if_false]
  exact mapStep_succeeds _

/-! ### The key that is noted -/

variable (F : Firmware)

/-- The configuration has the key of the firmware. -/
def Fresh (mapped : Outcome F.env (Status × BootConfig)) : Prop :=
  mapped.value.2.memoryMapKey = F.key mapped.state

theorem setupMemoryMap_fresh (config : BootConfig) (s : F.env.State) :
    Fresh F ((setupMemoryMap config).run F.env s) := by
  have sized (s) : (F.env.answer s (.getMemoryMap 0#64 none)).1.status = EFI_BUFFER_TOO_SMALL :=
    F.succeeds s (.getMemoryMap 0#64 none)
  have allocated (s size) : efiError (F.env.answer s (.allocatePool size)).1.status = false :=
    F.succeeds s (.allocatePool size)
  have mapped (s size buffer) :
      efiError (F.env.answer s (.getMemoryMap size (some buffer))).1.status = false :=
    (F.succeeds s (.getMemoryMap size (some buffer))).1
  simp only [Fresh, setupMemoryMap, ask_bind, run_call, sized, ne_eq, not_true_eq_false, if_false,
    allocated, mapped, Bool.false_eq_true, pure_eq, run_ret]
  rw [F.map_key, F.map_keeps]

theorem mapStep_fresh (config : BootConfig) (s : F.env.State) :
    Fresh F ((mapStep config).run F.env s) := by
  have done (s) := ((setupMemoryMap_succeeds config).run F.succeeds s).1
  have fresh (s) := setupMemoryMap_fresh F config s
  simp only [mapStep, print_bind, run_call, run_bind, done, Bool.false_eq_true, if_false, Fresh,
    pure_eq, run_ret] at fresh ⊢
  exact fresh _

theorem prepare_fresh (imageHandle : Pointer) (s : F.env.State) :
    Fresh F ((prepare imageHandle).run F.env s) := by
  have found (s) := ((locateStep_succeeds imageHandle).run F.succeeds s).1
  have loaded (filesystem config s) :=
    ((loadStep_succeeds filesystem config).run F.succeeds s).1
  have fresh (config s) := mapStep_fresh F config s
  simp only [prepare, run_bind, found, loaded, Bool.false_eq_true, if_false, Fresh] at fresh ⊢
  exact fresh _ _

/-! ### The start of the kernel -/

/-- The program starts the kernel. -/
def Starts {α : Type} (E : Environment uefi) (p : Loader α) (s : E.State) : Prop :=
  ∃ address config, .kernelEntry address config ∈ (p.run E s).calls

theorem starts_bind {α β : Type} {E : Environment uefi} (p : Loader α) (f : α → Loader β)
    (s : E.State) : Starts E (p >>= f) s ↔
      Starts E p s ∨ Starts E (f (p.run E s).value) (p.run E s).state := by
  simp only [Starts, run_bind, List.mem_append, exists_or]

theorem not_starts {α : Type} {Q : α → Prop} {p : Loader α} (meets : Meets Succeeded NotEntry Q p)
    (s : F.env.State) : ¬ Starts F.env p s := by
  rintro ⟨address, config, started⟩
  exact (meets.run F.succeeds s).2 _ started

/-- The kernel is started if the key is still the one in the configuration. -/
theorem starts_transferControlToKernel (config : BootConfig) (s : F.env.State) :
    Starts F.env (transferControlToKernel config) s ↔ config.memoryMapKey = F.key s := by
  rw [transferControlToKernel, ask_bind]
  simp only [Starts, run_call, F.exits]
  by_cases fresh : config.memoryMapKey = F.key s <;> simp [fresh, run_call]

/-- The calls between the memory map and `ExitBootServices` leave the key as it is. -/
def KeepsKey (imageHandle : Pointer) (s : F.env.State) : Prop :=
  let mapped := (prepare imageHandle).run F.env s
  F.key ((announce mapped.value.2).run F.env mapped.state).state = F.key mapped.state

theorem starts_handOver (config : BootConfig) (s : F.env.State) :
    Starts F.env (handOver config) s ↔
      config.memoryMapKey = F.key ((announce config).run F.env s).state := by
  have announced := ((announce_meets config).run F.succeeds s).1
  have silent (status) := not_starts F (Q := fun _ => True) (p := do
    print "ERROR: Kernel returned unexpectedly: %r\r\n" [.number status]
    return status) ⟨trivial, fun _ _ => trivial⟩
  simp only [handOver, starts_bind, not_starts F (announce_meets config), announced,
    Bool.false_eq_true, if_false, false_or, starts_transferControlToKernel, silent, or_false]

/-- **The kernel is started** exactly when the firmware keeps its key until `ExitBootServices`. -/
theorem started_iff (imageHandle : Pointer) (s : F.env.State) :
    Starts F.env (efiMain imageHandle) s ↔ KeepsKey F imageHandle s := by
  have prepared := ((prepare_succeeds imageHandle).run F.succeeds s).1
  calc Starts F.env (efiMain imageHandle) s
      ↔ Starts F.env (boot imageHandle) s := by
        simp only [efiMain, starts_bind, not_starts F (errorExit_meets _), or_false]
    _ ↔ Starts F.env (handOver ((prepare imageHandle).run F.env s).value.2)
          ((prepare imageHandle).run F.env s).state := by
        simp only [boot, starts_bind, not_starts F (prepare_succeeds imageHandle), prepared,
          Bool.false_eq_true, if_false, false_or]
    _ ↔ KeepsKey F imageHandle s := by
        rw [starts_handOver, prepare_fresh F imageHandle s, KeepsKey]
        exact eq_comm

theorem succeed_exits (fileSize key mapKey : Size) :
    efiError (succeed fileSize key (.exitBootServices mapKey)).status = decide (mapKey ≠ key) := by
  by_cases fresh : mapKey = key
  · simp [succeed, fresh, efiError]
  · simp only [succeed, fresh, if_false, ne_eq, not_false_eq_true, decide_true]
    rfl

/-- A firmware whose map changes when an event is created. -/
def eventful : Firmware where
  env := obliging 0x10000#64 (· = .createTimerEvent)
  key s := s
  succeeds s c := by
    cases c with
    | getMemoryMap size buffer => cases buffer <;> simp [obliging, succeed, Succeeded, efiError]
    | _ => simp [obliging, succeed, Succeeded, efiError]
  map_key s size buffer := by cases buffer <;> rfl
  map_keeps s size buffer := by rfl
  exits s mapKey := succeed_exits 0x10000#64 s mapKey

theorem eventful_not_started : ¬ ∀ (F : Firmware) (imageHandle : Pointer) (s : F.env.State),
    Starts F.env (efiMain imageHandle) s := by
  intro claim
  obtain ⟨address, config, started⟩ := claim eventful 0#64 0#64
  have quiet : ∀ c ∈ ((efiMain 0#64).run eventful.env 0#64).calls, NotEntry c := by decide +kernel
  exact quiet _ started

end ModernOS.Boot
