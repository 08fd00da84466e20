import ModernOS.Boot.Results

/-!
What the bootloader holds of the firmware, from its start to its end.

No call of `efi_main` works on or gives back what is not held, whatever the firmware answers, and
what is held in the end is what some of the calls leave behind (`efiMain_keeps`): the buffers of
the modes, the pages of a kernel that has been read, and the buffer of a memory map. They are never
given back, also when the boot fails.
-/

namespace ModernOS.Boot

open Program

/-- What is kept of a call for good. A kernel that has been read keeps its pages, and a memory map
its buffer. -/
def keptOf : Exchange uefi → Multiset Resource
  | ⟨.locateHandleBuffer _, located⟩ =>
      if located.handles = [] then handedOver located.status (.pool located.buffer) else 0
  | ⟨.queryMode .., queried⟩ => handedOver queried.status (.pool queried.buffer)
  | ⟨.read _ size buffer, done⟩ => handedOver done.status (.pages buffer (kernelPages size))
  | ⟨.getMemoryMap _ (some buffer), map⟩ => handedOver map.status (.pool buffer)
  | _ => 0

/-- What is kept of a run. -/
def kept (t : Transcript uefi) : Multiset Resource := (t.map keptOf).sum

/-- Nothing is used that is not held, and what is left in the end is what is kept of the calls. -/
abbrev Sound (t : Transcript uefi) : Prop := holdings.Keeps keptOf t

/-- The call has to do with nothing that is held. -/
def Idle : Call → Prop
  | .initializeLib _ | .clearScreen | .print .. | .handleProtocol .. | .loadedImage _
  | .graphicsMode _ | .setMode .. | .readKeyStroke | .exitBootServices _ | .kernelEntry ..
  | .nullGraphicsInfo | .divideError => True
  | _ => False

/-! ### Programs that hold nothing -/

section Idle

variable {t : Transcript uefi}

theorem sound_of_idle (idle : ∀ e ∈ t, Idle e.call) : Sound t := by
  induction t with
  | nil => exact Accounts.Keeps.nil
  | cons e t ih =>
      obtain ⟨here, later⟩ := List.forall_mem_cons.mp idle
      obtain ⟨call, answer⟩ := e
      cases call <;>
        first | exact absurd here id | exact (ih later).cons_idle rfl rfl rfl rfl

/-- A program whose calls are idle. -/
theorem sound_of_meets {α : Type} {p : Loader α} {a : α} {Q : α → Prop}
    (meets : Meets (fun _ _ => True) Idle Q p) (does : p.Does t a) : Sound t :=
  sound_of_idle (meets.does does fun _ _ => trivial).2

theorem sound_of_print {α : Type} {p : Loader α} {a : α} {format : String}
    {arguments : List Argument}
    (does : (print format arguments >>= fun _ => p).Does t a) (sound : ∀ t, p.Does t a → Sound t) :
    Sound t := by
  obtain ⟨⟨⟩, rest, rfl, does⟩ := does
  exact (sound rest does).cons_idle rfl rfl rfl rfl

end Idle

theorem welcome_idle (imageHandle : Pointer) :
    Meets (fun _ _ => True) Idle (fun _ => True) (welcome imageHandle) := by
  simp [welcome, meets_call, meets_print, Idle.eq_def]

theorem graphicsInfo_idle (config : BootConfig) :
    Meets (fun _ _ => True) Idle (fun _ => True) (graphicsInfo config) := by
  unfold graphicsInfo
  split
  · exact trivial
  · exact ⟨trivial, fun _ _ => trivial⟩

theorem locateStep_idle (imageHandle : Pointer) :
    Meets (fun _ _ => True) Idle (fun _ => True) (locateStep imageHandle) := by
  simp [locateStep, meets_call, meets_ite, meets_ret, Idle.eq_def]

theorem memoryMapEntries_idle (config : BootConfig) :
    Meets (fun _ _ => True) Idle (fun _ => True) (memoryMapEntries config) := by
  simp [memoryMapEntries, meets_ite, meets_call, meets_ret, Idle.eq_def]

theorem printBootInfo_idle (config : BootConfig) :
    Meets (fun _ _ => True) Idle (fun _ => True) (printBootInfo config) := by
  have printed (format arguments) : Idle (.print format arguments) ↔ True := Iff.rfl
  simp only [printBootInfo, print_bind, meets_call, printed, true_and]
  intros
  refine (memoryMapEntries_idle config).bind fun entries _ => ?_
  cases config.graphicsInfo <;> simp [meets_call, meets_print, Idle.eq_def]

theorem transferControlToKernel_idle (config : BootConfig) :
    Meets (fun _ _ => True) Idle (fun _ => True) (transferControlToKernel config) := by
  rw [transferControlToKernel, ask_bind, meets_call]
  refine ⟨trivial, fun exited _ => ?_⟩
  rw [meets_ite]
  exact ⟨fun _ => trivial, fun _ => ⟨trivial, fun _ _ => trivial⟩⟩

/-! ### The functions that acquire something -/

section Functions

variable {config : BootConfig} {t : Transcript uefi} {result : Status × BootConfig}

theorem sum_survey {gop : Pointer} {answers : List Queried} :
    ((survey gop answers).map keptOf).sum = buffers answers := by
  induction answers with
  | nil => rfl
  | cons answer answers ih =>
      rw [buffers_cons, ← ih]
      rfl

/-- The buffers of the modes stay when the one of the handles is freed. -/
theorem sound_choosing {located : HandleBuffer} {opened : Acquired} {mode : GraphicsMode}
    {answers : List Queried} (present : ¬ (efiError located.status ∨ located.handles = []))
    (ends : holdings.after t (buffers answers + {.pool located.buffer}) = some (buffers answers))
    (none : (t.map keptOf).sum = 0) : Sound (choosing located opened mode answers ++ t) := by
  obtain ⟨succeeded, handles⟩ := not_or.mp present
  have looked : ((lookup located opened).map keptOf).sum = 0 := by
    simp [lookup, keptOf, handles]
  have reported : keptOf ⟨.graphicsMode opened.pointer, mode⟩ = 0 := rfl
  rw [Sound, Accounts.Keeps, after_choosing succeeded, ends, choosing]
  simp only [List.map_append, List.map_cons, List.sum_append, List.sum_cons, looked, reported,
    sum_survey, none, zero_add, add_zero]

theorem initializeGraphics_sound (does : (initializeGraphics config).Does t result) : Sound t := by
  have last {answers : List Queried} {buffer : Pointer} {freed : Completed} :
      holdings.after [⟨.freePool buffer, freed⟩] (buffers answers + {.pool buffer}) =
        some (buffers answers) := by
    rw [after_freePool (by simp), Multiset.erase_add_right_pos _ (by simp),
      Multiset.erase_singleton, add_zero, Accounts.after_nil]
  cases initializeGraphics_run does with
  | @notLocated located absent =>
      rw [Sound, Accounts.Keeps, after_locateHandleBuffer, Accounts.after_nil, add_zero]
      rcases absent with failed | empty
      · simp [keptOf, handedOver_of_error failed]
      · simp [keptOf, empty]
  | notOpened present failed =>
      obtain ⟨succeeded, handles⟩ := not_or.mp present
      rw [Sound, Accounts.Keeps, lookup, List.cons_append, List.cons_append, List.nil_append,
        after_locateHandleBuffer, handedOver_of_success succeeded, after_handleProtocol, add_zero,
        after_freePool (by simp), Multiset.erase_singleton, Accounts.after_nil]
      simp [keptOf, handles]
  | notSet present => exact sound_choosing present (after_setMode.trans last) rfl
  | set present =>
      exact sound_choosing present (after_setMode.trans (after_graphicsMode.trans last)) rfl
  | kept present => exact sound_choosing present (after_graphicsMode.trans last) rfl

theorem loadKernel_sound {filesystem : Pointer}
    (does : (loadKernel filesystem config).Does t result) : Sound t := by
  have run := loadKernel_does_iff.mp does
  obtain ⟨address, released⟩ := loadKernel_released run
  refine .of_balance released ?_
  clear does released
  -- What a run takes, it keeps or gives back.
  cases run
  all_goals
    simp only [opening, asking, closing, Accounts.taken, Accounts.freed, holdings, takes, frees,
      keptOf, handedOver, List.cons_append, List.nil_append, List.map_cons, List.map_nil,
      List.sum_cons, List.sum_nil, *, if_true, if_false, Bool.false_eq_true]
    abel

theorem setupMemoryMap_sound (does : (setupMemoryMap config).Does t result) : Sound t := by
  have asked {sized : MemoryMap} {rest : Transcript uefi} :
      holdings.after (⟨.getMemoryMap 0#64 none, sized⟩ :: rest) 0 = holdings.after rest 0 :=
    after_other rfl rfl rfl
  rw [Sound, Accounts.Keeps]
  cases setupMemoryMap_run does with
  | notSized other =>
      rw [asked]
      rfl
  | noPool small failed =>
      rw [asked, after_allocatePool, handedOver_of_error failed]
      rfl
  | notMapped small allocated failed =>
      rw [asked, after_allocatePool, handedOver_of_success allocated, add_zero,
        after_getMemoryMap (Multiset.mem_singleton_self _),
        after_freePool (Multiset.mem_singleton_self _), Multiset.erase_singleton,
        Accounts.after_nil]
      simp [keptOf, handedOver_of_error failed]
  | mapped small allocated succeeded =>
      rw [asked, after_allocatePool, handedOver_of_success allocated, add_zero,
        after_getMemoryMap (Multiset.mem_singleton_self _), Accounts.after_nil]
      simp [keptOf, handedOver_of_success succeeded]

theorem waitForKeyPress_sound {u : Unit} (does : waitForKeyPress.Does t u) : Sound t := by
  simp only [waitForKeyPress, ask_bind, pure_eq, does_call, does_ite, does_ret] at does
  obtain ⟨(timer : Acquired), _, rfl, ⟨failed, rfl, -⟩ | ⟨created, (set : Completed), _, rfl, does⟩⟩
    := does
  · rw [Sound, Accounts.Keeps, after_createTimerEvent, handedOver_of_error failed]
    rfl
  have held (rest : Transcript uefi) :
      holdings.after (⟨.createTimerEvent, timer⟩ :: ⟨.setTimer timer.pointer 30000000#64, set⟩ ::
        rest) 0 = holdings.after rest {.event timer.pointer} := by
    rw [after_createTimerEvent, handedOver_of_success created, add_zero,
      after_setTimer (Multiset.mem_singleton_self _)]
  have closing (closed : Completed) :
      holdings.after [⟨.closeEvent timer.pointer, closed⟩] {.event timer.pointer} = some 0 := by
    rw [after_closeEvent (Multiset.mem_singleton_self _), Multiset.erase_singleton,
      Accounts.after_nil]
  rcases does with ⟨failed, (closed : Completed), _, rfl, rfl, -⟩ |
    ⟨started, (waited : Counted), _, rfl, does⟩
  · exact (held _).trans (closing closed)
  rcases does with ⟨pressed, (key : Completed), _, rfl, (closed : Completed), _, rfl, rfl, -⟩ |
    ⟨idle, (closed : Completed), _, rfl, rfl, -⟩
  · rw [Sound, Accounts.Keeps, held, after_waitForKeyOr (Multiset.mem_singleton_self _),
      after_readKeyStroke, closing]
    rfl
  · rw [Sound, Accounts.Keeps, held, after_waitForKeyOr (Multiset.mem_singleton_self _), closing]
    rfl

end Functions

/-! ### `efi_main` -/

section Main

variable {config : BootConfig} {t : Transcript uefi}

theorem graphicsStep_sound {config' : BootConfig} (does : (graphicsStep config).Does t config') :
    Sound t := by
  refine sound_of_print does fun t does => ?_
  obtain ⟨⟨status, shown⟩, t₁, t₂, rfl, graphics, reports⟩ := does_bind.mp does
  refine (initializeGraphics_sound graphics).append (sound_of_meets (Q := fun _ => True) ?_ reports)
  rw [meets_ite]
  refine ⟨fun _ => ⟨trivial, fun _ _ => ⟨trivial, fun _ _ => trivial⟩⟩, fun _ => ?_⟩
  refine ⟨trivial, fun _ _ => (graphicsInfo_idle shown).bind fun info _ => ?_⟩
  exact ⟨trivial, fun _ _ => ⟨trivial, fun _ _ => trivial⟩⟩

theorem loadStep_sound {filesystem : Pointer} {result : Status × BootConfig}
    (does : (loadStep filesystem config).Does t result) : Sound t := by
  refine sound_of_print does fun t does => ?_
  obtain ⟨⟨status, loaded⟩, t₁, t₂, rfl, kernel, reports⟩ := does_bind.mp does
  refine (loadKernel_sound kernel).append (sound_of_meets (Q := fun _ => True) ?_ reports)
  simp [meets_call, meets_ite, meets_ret, Idle.eq_def]

theorem mapStep_sound {result : Status × BootConfig} (does : (mapStep config).Does t result) :
    Sound t := by
  refine sound_of_print does fun t does => ?_
  obtain ⟨⟨status, mapped⟩, t₁, t₂, rfl, map, reports⟩ := does_bind.mp does
  refine (setupMemoryMap_sound map).append (sound_of_meets (Q := fun _ => True) ?_ reports)
  simp [meets_call, meets_ite, meets_ret, Idle.eq_def]

theorem prepare_sound {imageHandle : Pointer} {result : Status × BootConfig}
    (does : (prepare imageHandle).Does t result) : Sound t := by
  obtain ⟨⟨⟩, t₁, t₂, rfl, greeting, does⟩ := does_bind.mp does
  refine (sound_of_meets (welcome_idle imageHandle) greeting).append ?_
  obtain ⟨config, t₃, t₄, rfl, graphics, does⟩ := does_bind.mp does
  refine (graphicsStep_sound graphics).append ?_
  obtain ⟨⟨status, filesystem⟩, t₅, t₆, rfl, located, does⟩ := does_bind.mp does
  refine (sound_of_meets (locateStep_idle imageHandle) located).append ?_
  rcases does_ite.mp does with ⟨failed, rfl, -⟩ | ⟨found, does⟩
  · exact .nil
  obtain ⟨⟨status, config⟩, t₇, t₈, rfl, loaded, does⟩ := does_bind.mp does
  refine (loadStep_sound loaded).append ?_
  rcases does_ite.mp does with ⟨failed, rfl, -⟩ | ⟨placed, does⟩
  · exact .nil
  · exact mapStep_sound does

theorem announce_sound {status : Status} (does : (announce config).Does t status) : Sound t := by
  refine sound_of_print does fun t does => sound_of_print does fun t does => ?_
  obtain ⟨status, t₁, t₂, rfl, ⟨rfl, rfl⟩, does⟩ := does_bind.mp does
  rcases does_ite.mp does with ⟨failed, -⟩ | ⟨succeeded, does⟩
  · cases failed
  refine Accounts.Keeps.nil.append (sound_of_print does fun t does => ?_)
  refine sound_of_print does fun t does => ?_
  obtain ⟨⟨⟩, t₃, t₄, rfl, info, does⟩ := does_bind.mp does
  refine (sound_of_meets (printBootInfo_idle config) info).append ?_
  refine sound_of_print does fun t does => sound_of_print does fun t does => ?_
  obtain ⟨⟨⟩, t₅, t₆, rfl, waited, does⟩ := does_bind.mp does
  refine (waitForKeyPress_sound waited).append (sound_of_print does fun t does => ?_)
  obtain ⟨rfl, -⟩ := does
  exact .nil

theorem handOver_sound {status : Status} (does : (handOver config).Does t status) : Sound t := by
  obtain ⟨announced, t₁, t₂, rfl, said, does⟩ := does_bind.mp does
  refine (announce_sound said).append ?_
  rcases does_ite.mp does with ⟨failed, rfl, -⟩ | ⟨succeeded, does⟩
  · exact .nil
  obtain ⟨returned, t₃, t₄, rfl, transferred, does⟩ := does_bind.mp does
  refine (sound_of_meets (transferControlToKernel_idle config) transferred).append ?_
  refine sound_of_print does fun t does => ?_
  obtain ⟨rfl, -⟩ := does
  exact .nil

theorem boot_sound {imageHandle : Pointer} {status : Status}
    (does : (boot imageHandle).Does t status) : Sound t := by
  obtain ⟨⟨prepared, config⟩, t₁, t₂, rfl, preparation, does⟩ := does_bind.mp does
  refine (prepare_sound preparation).append ?_
  rcases does_ite.mp does with ⟨failed, rfl, -⟩ | ⟨succeeded, does⟩
  · exact .nil
  · exact handOver_sound does

/-- **The bootloader's holdings**: whatever the firmware answers, no call works on or gives back
what is not held, and `efi_main` returns with what is kept of its calls, also when the boot has
failed. -/
theorem efiMain_keeps (imageHandle : Pointer) (E : Environment uefi) (s : E.State) :
    let t := (efiMain imageHandle).transcript E s
    holdings.after t 0 = some (kept t) := by
  intro t
  obtain ⟨status, t₁, t₂, split, booted, does⟩ := does_bind.mp
    (does_transcript E (efiMain imageHandle) s)
  have ending : Sound t₂ := by
    refine sound_of_print does fun t does => ?_
    obtain ⟨⟨⟩, t₃, t₄, rfl, waited, does⟩ := does_bind.mp does
    obtain ⟨rfl, -⟩ := does
    exact (waitForKeyPress_sound waited).append .nil
  have whole : t = t₁ ++ t₂ := split
  rw [whole]
  exact (boot_sound booted).append ending

end Main

end ModernOS.Boot
