import ModernOS.Boot.Resources
import ModernOS.Lib.FirstMaximum

/-!
The runs of `InitializeGraphics`.

The loop over the modes asks for each of them, whatever it learns: its transcript is a `survey`, and
the mode that it finds is what `FirstMaximum.improve` makes of the answers.
-/

namespace ModernOS.Boot

open Program

/-! ### The loop over the modes -/

/-- A mode and what `QueryMode` answers about it. -/
abbrev Queried := BitVec 32 × QueriedMode

/-- The queries of the loop. -/
def survey (gop : Pointer) (answers : List Queried) : Transcript uefi :=
  answers.map fun answer => ⟨.queryMode gop answer.1, answer.2⟩

/-- The modes that could be queried. -/
def usable (answers : List Queried) : List Queried :=
  answers.filter fun answer => !efiError answer.2.status

/-- The score of a mode. -/
def Queried.score (answer : Queried) : ℕ := (modeScore answer.2.info).toNat

/-- The best mode as a pair. -/
def BestMode.toPair (best : BestMode) : BitVec 32 × ℕ := (best.mode, best.score.toNat)

theorem findBestMode_does {gop : Pointer} {modes : List (BitVec 32)} {best best' : BestMode}
    {t : Transcript uefi} (does : (findBestMode gop modes best).Does t best') :
    ∃ answers : List Queried, answers.map Prod.fst = modes ∧ t = survey gop answers ∧
      best'.toPair =
        (usable answers).foldl (FirstMaximum.improve Prod.fst Queried.score) best.toPair := by
  induction modes generalizing best t with
  | nil =>
      obtain ⟨rfl, rfl⟩ := does
      exact ⟨[], rfl, rfl, rfl⟩
  | cons mode modes ih =>
      rw [findBestMode, ask_bind, does_call] at does
      obtain ⟨(queried : QueriedMode), rest, rfl, does⟩ := does
      simp only [does_ite] at does
      rcases does with ⟨failed, does⟩ | ⟨succeeded, does⟩
      · obtain ⟨answers, asked, rfl, found⟩ := ih does
        refine ⟨(mode, queried) :: answers, congrArg (mode :: ·) asked, rfl, ?_⟩
        rwa [usable, List.filter_cons_of_neg (by simpa using failed)]
      · have kept (answers : List Queried) :
            usable ((mode, queried) :: answers) = (mode, queried) :: usable answers :=
          List.filter_cons_of_pos (by simpa using succeeded)
        rcases does with ⟨better, does⟩ | ⟨notBetter, does⟩
        all_goals
          obtain ⟨answers, asked, rfl, found⟩ := ih does
          refine ⟨(mode, queried) :: answers, congrArg (mode :: ·) asked, rfl, ?_⟩
          rw [found, kept, List.foldl_cons, FirstMaximum.improve]
        · rw [if_pos (show best.toPair.2 < Queried.score (mode, queried) from better)]
          rfl
        · rw [if_neg (show ¬ best.toPair.2 < Queried.score (mode, queried) from notBetter)]

/-- The best of the modes, and its score. -/
def bestOf (answers : List Queried) : BitVec 32 × ℕ :=
  (usable answers).foldl (FirstMaximum.improve Prod.fst Queried.score) (0#32, 0)

/-! ### The runs -/

/-- The calls that look up the protocol. -/
def lookup (located : HandleBuffer) (opened : Acquired) : Transcript uefi :=
  [⟨.locateHandleBuffer .graphicsOutput, located⟩,
    ⟨.handleProtocol (located.handles.headD 0#64) .graphicsOutput, opened⟩]

/-- The calls that look up the protocol and ask for its modes. -/
def choosing (located : HandleBuffer) (opened : Acquired) (mode : GraphicsMode)
    (answers : List Queried) : Transcript uefi :=
  lookup located opened ++ ⟨.graphicsMode opened.pointer, mode⟩ :: survey opened.pointer answers

/-- The graphics information of the configuration. -/
def storeGraphics (config : BootConfig) (mode : GraphicsMode) : BootConfig :=
  { config with
    graphicsInfo := some mode.info
    framebufferBase := mode.frameBufferBase
    framebufferSize := mode.frameBufferSize }

/-- The runs of `InitializeGraphics`. -/
inductive GraphicsRun (config : BootConfig) : Transcript uefi → Status × BootConfig → Prop
  | notLocated {located : HandleBuffer} (absent : efiError located.status ∨ located.handles = []) :
      GraphicsRun config [⟨.locateHandleBuffer .graphicsOutput, located⟩] (located.status, config)
  | notOpened {located : HandleBuffer} {opened : Acquired} {freed : Completed}
      (present : ¬ (efiError located.status ∨ located.handles = []))
      (failed : efiError opened.status) :
      GraphicsRun config (lookup located opened ++ [⟨.freePool located.buffer, freed⟩])
        (opened.status, config)
  | notSet {located : HandleBuffer} {opened : Acquired} {mode : GraphicsMode}
      {answers : List Queried} {set freed : Completed}
      (present : ¬ (efiError located.status ∨ located.handles = []))
      (succeeded : ¬ efiError opened.status)
      (asked : answers.map Prod.fst = modesBelow mode.maxMode)
      (found : 0 < (bestOf answers).2) (failed : efiError set.status) :
      GraphicsRun config
        (choosing located opened mode answers ++
          [⟨.setMode opened.pointer (bestOf answers).1, set⟩, ⟨.freePool located.buffer, freed⟩])
        (set.status, config)
  | set {located : HandleBuffer} {opened : Acquired} {mode mode' : GraphicsMode}
      {answers : List Queried} {set freed : Completed}
      (present : ¬ (efiError located.status ∨ located.handles = []))
      (succeeded : ¬ efiError opened.status)
      (asked : answers.map Prod.fst = modesBelow mode.maxMode)
      (found : 0 < (bestOf answers).2) (changed : ¬ efiError set.status) :
      GraphicsRun config
        (choosing located opened mode answers ++
          [⟨.setMode opened.pointer (bestOf answers).1, set⟩, ⟨.graphicsMode opened.pointer, mode'⟩,
            ⟨.freePool located.buffer, freed⟩])
        (EFI_SUCCESS, storeGraphics config mode')
  | kept {located : HandleBuffer} {opened : Acquired} {mode mode' : GraphicsMode}
      {answers : List Queried} {freed : Completed}
      (present : ¬ (efiError located.status ∨ located.handles = []))
      (succeeded : ¬ efiError opened.status)
      (asked : answers.map Prod.fst = modesBelow mode.maxMode)
      (none : (bestOf answers).2 = 0) :
      GraphicsRun config
        (choosing located opened mode answers ++
          [⟨.graphicsMode opened.pointer, mode'⟩, ⟨.freePool located.buffer, freed⟩])
        (EFI_SUCCESS, storeGraphics config mode')

theorem initializeGraphics_run {config : BootConfig} {t : Transcript uefi}
    {result : Status × BootConfig} (does : (initializeGraphics config).Does t result) :
    GraphicsRun config t result := by
  simp only [initializeGraphics, ask_bind, pure_eq, does_call, does_ite, does_ret] at does
  obtain ⟨located, _, rfl, ⟨absent, rfl, rfl⟩ | ⟨present, opened, _, rfl, does⟩⟩ := does
  · exact .notLocated absent
  rcases does with ⟨failed, _, _, rfl, rfl, rfl⟩ | ⟨succeeded, mode, _, rfl, does⟩
  · exact .notOpened present failed
  obtain ⟨⟨best, score⟩, t₁, t₂, rfl, looped, ends⟩ := does_bind.mp does
  obtain ⟨answers, asked, rfl, found⟩ := findBestMode_does looped
  obtain rfl : best = (bestOf answers).1 := congrArg Prod.fst found
  have best_score : score.toNat = (bestOf answers).2 := congrArg Prod.snd found
  simp only [does_call, does_ite, does_ret, BitVec.lt_def, best_score] at ends
  rcases ends with ⟨found, set, _, rfl, ends⟩ | ⟨none, mode', _, rfl, freed, _, rfl, rfl, rfl⟩
  · rcases ends with ⟨failed, freed, _, rfl, rfl, rfl⟩ |
      ⟨changed, mode', _, rfl, freed, _, rfl, rfl, rfl⟩
    · exact .notSet present succeeded asked found failed
    · exact .set present succeeded asked found changed
  · exact .kept present succeeded asked (Nat.eq_zero_of_not_pos none)

/-! ### The choice of the mode -/

/-- What `QueryMode` has answered. -/
def queriedBy : Exchange uefi → Option Queried
  | ⟨.queryMode _ mode, queried⟩ => some (mode, queried)
  | _ => none

/-- The mode that `SetMode` is called with. -/
def setBy : Exchange uefi → Option (BitVec 32)
  | ⟨.setMode _ mode, _⟩ => some mode
  | _ => none

/-- The number of modes that the protocol has. -/
def maxModeBy : Exchange uefi → Option (BitVec 32)
  | ⟨.graphicsMode _, mode⟩ => some mode.maxMode
  | _ => none

/-- The mode has the highest score, and the lowest number among the modes with that score. -/
def IsBest (answers : List Queried) (mode : BitVec 32) : Prop :=
  ∃ best ∈ answers, best.1 = mode ∧
    ∀ other ∈ answers, other.score ≤ best.score ∧ (other.score = best.score → mode ≤ other.1)

section Choice

variable {answers : List Queried} {gop : Pointer} {config : BootConfig} {t : Transcript uefi}
  {result : Status × BootConfig}

theorem queriedBy_survey : (survey gop answers).filterMap queriedBy = answers := by
  rw [survey, List.filterMap_map]
  exact List.filterMap_some

theorem setBy_survey : (survey gop answers).filterMap setBy = [] := by
  simp [survey, List.filterMap_map, setBy, Function.comp_def]

/-- The modes are numbered upwards. -/
theorem modesBelow_sorted (maxMode : BitVec 32) : (modesBelow maxMode).Pairwise (· < ·) := by
  have bound := maxMode.isLt
  rw [modesBelow, List.pairwise_map]
  refine List.pairwise_lt_range.imp_of_mem fun {i j} memI memJ less => ?_
  rw [List.mem_range] at memI memJ
  rw [BitVec.lt_def, BitVec.toNat_ofNat, BitVec.toNat_ofNat]
  omega

theorem bestOf_isBest (upwards : (answers.map Prod.fst).Pairwise (· < ·))
    (found : 0 < (bestOf answers).2) : IsBest (usable answers) (bestOf answers).1 := by
  have sorted : (usable answers).Pairwise (Prod.fst · < Prod.fst ·) :=
    (List.pairwise_map.mp upwards).sublist List.filter_sublist
  rcases FirstMaximum.foldl_improve Prod.fst Queried.score (0#32, 0) (usable answers) with
    ⟨best, maximal, above, ends⟩ | ⟨none, ends⟩
  · rw [bestOf, ends]
    refine ⟨best, List.argmax_mem maximal, rfl, fun other mem => ⟨?_, fun same => ?_⟩⟩
    · exact List.le_of_mem_argmax mem maximal
    · rcases FirstMaximum.eq_or_before_of_mem_argmax sorted maximal mem same.ge with rfl | before
      · exact BitVec.le_refl _
      · exact BitVec.le_of_lt before
  · rw [bestOf, ends] at found
    exact absurd found (Nat.lt_irrefl 0)

/-- Nothing is found exactly when no mode has a score. -/
theorem bestOf_eq_zero_iff :
    (bestOf answers).2 = 0 ↔ ∀ answer ∈ usable answers, answer.score = 0 := by
  rcases FirstMaximum.foldl_improve Prod.fst Queried.score (0#32, 0) (usable answers) with
    ⟨best, maximal, above, ends⟩ | ⟨none, ends⟩
  · rw [bestOf, ends]
    refine iff_of_false above.ne' fun all => above.ne' ?_
    exact all best (List.argmax_mem maximal)
  · rw [bestOf, ends]
    exact iff_of_true rfl fun answer mem => Nat.le_zero.mp (none answer mem)

/-- The modes that are queried are those of the survey. -/
theorem queriedBy_choosing {located : HandleBuffer} {opened : Acquired} {mode : GraphicsMode}
    (rest : t.filterMap queriedBy = []) :
    (choosing located opened mode answers ++ t).filterMap queriedBy = answers := by
  calc (choosing located opened mode answers ++ t).filterMap queriedBy
      = (survey opened.pointer answers ++ t).filterMap queriedBy := rfl
    _ = answers := by rw [List.filterMap_append, queriedBy_survey, rest, List.append_nil]

/-- No mode is set by the survey. -/
theorem setBy_choosing {located : HandleBuffer} {opened : Acquired} {mode : GraphicsMode} :
    (choosing located opened mode answers ++ t).filterMap setBy = t.filterMap setBy := by
  calc (choosing located opened mode answers ++ t).filterMap setBy
      = (survey opened.pointer answers ++ t).filterMap setBy := rfl
    _ = t.filterMap setBy := by rw [List.filterMap_append, setBy_survey, List.nil_append]

/-- What a run asks for, and what it sets. -/
structure Choice (t : Transcript uefi) (answers : List Queried) : Prop where
  queried : t.filterMap queriedBy = answers
  all : answers.map Prod.fst = (t.filterMap maxModeBy).head?.elim [] modesBelow
  sets : t.filterMap setBy = if 0 < (bestOf answers).2 then [(bestOf answers).1] else []

theorem GraphicsRun.choice (run : GraphicsRun config t result) : ∃ answers, Choice t answers := by
  cases run with
  | notLocated absent => exact ⟨[], rfl, rfl, rfl⟩
  | notOpened present failed => exact ⟨[], rfl, rfl, rfl⟩
  | notSet present succeeded asked found failed
  | set present succeeded asked found changed =>
      exact ⟨_, queriedBy_choosing rfl, asked, setBy_choosing.trans (if_pos found).symm⟩
  | kept present succeeded asked none =>
      exact ⟨_, queriedBy_choosing rfl, asked, setBy_choosing.trans (if_neg none.not_gt).symm⟩

theorem Choice.upwards (choice : Choice t answers) :
    (answers.map Prod.fst).Pairwise (· < ·) := by
  rw [choice.all]
  cases (t.filterMap maxModeBy).head? with
  | none => exact .nil
  | some maxMode => exact modesBelow_sorted maxMode

/-- The run on a firmware with one mode on which every call succeeds. -/
def oneMode : Transcript uefi :=
  (initializeGraphics initialConfig).transcript (.const (succeed 0#64 0#64)) ()

end Choice

/-! ### The buffers of the firmware -/

/-- The call allocates a buffer that is not freed. -/
def Leaks : Exchange uefi → Prop
  | ⟨.locateHandleBuffer _, located⟩ => ¬ efiError located.status ∧ located.handles = []
  | ⟨.queryMode .., queried⟩ => ¬ efiError queried.status
  | _ => False

/-- The buffers that the queries have allocated. -/
def buffers (answers : List Queried) : Multiset Resource :=
  ((usable answers).map fun answer => Resource.pool answer.2.buffer : List Resource)

section Buffers

variable {answers : List Queried} {config : BootConfig} {t : Transcript uefi}
  {result : Status × BootConfig} {held : Multiset Resource}

theorem buffers_cons (answer : Queried) :
    buffers (answer :: answers) =
      handedOver answer.2.status (.pool answer.2.buffer) + buffers answers := by
  by_cases failed : efiError answer.2.status
  · simp [buffers, usable, handedOver, failed]
  · simp [buffers, usable, handedOver, failed]

theorem buffers_eq_zero_iff {gop : Pointer} :
    buffers answers = 0 ↔ ∀ e ∈ survey gop answers, ¬ Leaks e := by
  rw [survey, List.forall_mem_map]
  simp only [Leaks, buffers, usable, Multiset.coe_eq_zero, List.map_eq_nil_iff,
    List.filter_eq_nil_iff, Bool.not_eq_true']
  simp

theorem after_survey {gop : Pointer} :
    holdings.after (survey gop answers ++ t) held = holdings.after t (buffers answers + held) := by
  induction answers generalizing held with
  | nil =>
      rw [show buffers [] = 0 from rfl, zero_add]
      rfl
  | cons answer answers ih =>
      rw [survey, List.map_cons, List.cons_append, after_queryMode, buffers_cons]
      exact ih.trans (congrArg _ (by abel))

/-- What is held once the modes have been queried. -/
theorem after_choosing {located : HandleBuffer} {opened : Acquired} {mode : GraphicsMode}
    (succeeded : ¬ efiError located.status) :
    holdings.after (choosing located opened mode answers ++ t) 0 =
      holdings.after t (buffers answers + {.pool located.buffer}) := by
  rw [choosing, lookup, List.append_assoc, List.cons_append, List.cons_append, List.nil_append,
    after_locateHandleBuffer, after_handleProtocol, List.cons_append, after_graphicsMode,
    after_survey, handedOver_of_success succeeded, add_zero]

/-- The modes that have been queried leave their buffers. -/
theorem choosing_released_iff {located : HandleBuffer} {opened : Acquired} {mode : GraphicsMode}
    (present : ¬ (efiError located.status ∨ located.handles = []))
    (ends : holdings.after t (buffers answers + {.pool located.buffer}) = some (buffers answers))
    (kept : ∀ e ∈ t, ¬ Leaks e) :
    holdings.after (choosing located opened mode answers ++ t) 0 = some 0 ↔
      ∀ e ∈ choosing located opened mode answers ++ t, ¬ Leaks e := by
  obtain ⟨succeeded, handles⟩ := not_or.mp present
  rw [after_choosing succeeded, ends, Option.some_inj, @buffers_eq_zero_iff _ opened.pointer,
    choosing, lookup]
  simp only [List.cons_append, List.nil_append, List.forall_mem_cons, List.forall_mem_append,
    Leaks, handles, and_false, not_false_eq_true, true_and]
  exact (and_iff_left kept).symm

theorem initializeGraphics_released_iff (does : (initializeGraphics config).Does t result) :
    holdings.after t 0 = some 0 ↔ ∀ e ∈ t, ¬ Leaks e := by
  have last {answers : List Queried} {buffer : Pointer} {freed : Completed} :
      holdings.after [⟨.freePool buffer, freed⟩] (buffers answers + {.pool buffer}) =
        some (buffers answers) := by
    rw [after_freePool (by simp), Multiset.erase_add_right_pos _ (by simp),
      Multiset.erase_singleton, add_zero, Accounts.after_nil]
  cases initializeGraphics_run does with
  | @notLocated located absent =>
      rw [after_locateHandleBuffer, Accounts.after_nil, Option.some_inj, add_zero,
        List.forall_mem_singleton]
      by_cases failed : efiError located.status
      · exact iff_of_true (handedOver_of_error failed _) fun leaks => leaks.1 failed
      · rw [handedOver_of_success failed]
        exact iff_of_false (Multiset.singleton_ne_zero _)
          (not_not_intro ⟨failed, absent.resolve_left failed⟩)
  | notOpened present failed =>
      obtain ⟨succeeded, handles⟩ := not_or.mp present
      rw [lookup, List.cons_append, List.cons_append, List.nil_append, after_locateHandleBuffer,
        handedOver_of_success succeeded, after_handleProtocol, add_zero, after_freePool (by simp),
        Multiset.erase_singleton, Accounts.after_nil]
      refine iff_of_true rfl ?_
      simp only [List.forall_mem_cons]
      exact ⟨fun leaks => handles leaks.2, not_false, not_false, List.forall_mem_nil _⟩
  | notSet present succeeded asked found failed =>
      refine choosing_released_iff present (after_setMode.trans last) ?_
      simp only [List.forall_mem_cons]
      exact ⟨not_false, not_false, List.forall_mem_nil _⟩
  | set present succeeded asked found changed =>
      refine choosing_released_iff present (after_setMode.trans (after_graphicsMode.trans last)) ?_
      simp only [List.forall_mem_cons]
      exact ⟨not_false, not_false, not_false, List.forall_mem_nil _⟩
  | kept present succeeded asked none =>
      refine choosing_released_iff present (after_graphicsMode.trans last) ?_
      simp only [List.forall_mem_cons]
      exact ⟨not_false, not_false, List.forall_mem_nil _⟩

/-- The buffer of a mode that has been queried is never freed. -/
theorem initializeGraphics_leaks :
    ¬ ∀ config t result, (initializeGraphics config).Does t result →
      holdings.after t 0 = some 0 := by
  intro always
  have released := always _ _ _ (does_transcript (.const (succeed 0#64 0#64))
    (initializeGraphics initialConfig) ())
  exact absurd released (by decide)

/-- A firmware on which no mode can be queried. -/
def noModes : (c : Call) → Result c
  | .queryMode .. => ⟨EFI_UNSUPPORTED, 0#64, ⟨0#32, 0#32, 0#32⟩⟩
  | c => succeed 0#64 0#64 c

theorem initializeGraphics_released_of_no_modes :
    let t := (initializeGraphics initialConfig).transcript (.const noModes) ()
    holdings.after t 0 = some 0 ↔ ∀ e ∈ t, ¬ Leaks e := by
  have does := does_transcript (.const noModes) (initializeGraphics initialConfig) ()
  exact initializeGraphics_released_iff does

end Buffers

end ModernOS.Boot
