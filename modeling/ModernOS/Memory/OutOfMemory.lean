import Mathlib.Data.Finset.Card
import ModernOS.Memory.Init

/-!
What `init` and `map_page` do with a failed allocation.

The traced functions are those of the model with a record of what becomes of each result
of `allocate_page`: the call, a write through the result, a directory entry made present
with it. Forgetting the record gives the functions back (`initTraced_state`,
`mapPageTraced_state`). Neither caller looks at the result, so a failure is harmless
exactly when there is none.
-/

namespace ModernOS.Memory

/-- What became of a result of `allocate_page`; `none` is the null pointer of a call that
found no free page. -/
inductive Effect where
  | called (page : Option ℕ)
  | wrote (page : Option ℕ)
  | installed (page : Option ℕ)
  deriving DecidableEq, Repr

/-- A state, and the effects so far, latest first. -/
structure Traced where
  state : State
  effects : List Effect

/-- The pointer that a call returned. -/
def resultAddr : Option ℕ → Word
  | some i => pageAddr i
  | none => 0#32

namespace Traced

/-- A call of `allocate_page`. -/
def allocate (t : Traced) : Option ℕ × Traced :=
  (firstFree t.state, ⟨(allocatePage t.state).2, .called (firstFree t.state) :: t.effects⟩)

/-- A write of a word through the result `page`. -/
def write (page : Option ℕ) (addr : Word) (f : Word → Word) (t : Traced) : Traced :=
  ⟨t.state.modify addr f, .wrote page :: t.effects⟩

/-- Record that a directory entry has been made present with the result `page`. -/
def install (page : Option ℕ) (t : Traced) : Traced := ⟨t.state, .installed page :: t.effects⟩

/-- `switch_page_directory`, given the result `page`. -/
def switch (page : Option ℕ) (t : Traced) : Traced :=
  ⟨switchPageDirectory (resultAddr page) t.state, t.effects⟩

@[simp] theorem effects_switch (page : Option ℕ) (t : Traced) :
    (t.switch page).effects = t.effects := rfl

end Traced

/-! ### The traced functions -/

def clearDirectoryTraced (dir : Option ℕ) (t : Traced) : Traced :=
  CountedLoop.forRange 0 1024 (fun i t =>
    t.write dir (entryAt (resultAddr dir) i) Entry.clear) t

def fillTableTraced (table : Option ℕ) (i : ℕ) (t : Traced) : Traced :=
  CountedLoop.forRange 0 1024 (fun j t =>
    t.write table (entryAt (resultAddr table) j)
      (Entry.fill (BitVec.ofNat 20 (i * 1024 + j)))) t

def initRoundTraced (dir : Option ℕ) (i : ℕ) (t : Traced) : Traced :=
  let (table, t) := t.allocate
  let t := fillTableTraced table i t
  let t := t.write dir (entryAt (resultAddr dir) i) (Entry.fill (frameOf (resultAddr table)))
  t.install table

/-- `init` with its effects. -/
def initTraced (t : Traced) : Traced :=
  let (kernelDirectory, t) := t.allocate
  let t := clearDirectoryTraced kernelDirectory t
  let t := CountedLoop.forRange 0 1024 (initRoundTraced kernelDirectory) t
  t.switch kernelDirectory

/-- `map_page` with its effects. The directory is written through `current_directory`, which
is no result of a call made here. -/
def mapPageTraced (physicalAddr virtualAddr : Word) (t : Traced) : Traced :=
  let dirEntry := entryAddr t.state.currentDirectory (tableIdx virtualAddr)
  if Entry.present (t.state.mem dirEntry) = 0#1 then
    let (table, t) := t.allocate
    let t : Traced := ⟨t.state.modify dirEntry (Entry.fill (frameOf (resultAddr table))), t.effects⟩
    (t.install table).write table (entryAddr (resultAddr table) (pageOffset virtualAddr))
      (Entry.fill (frameOf physicalAddr))
  else
    ⟨t.state.modify (entryAddr (tableOf (t.state.mem dirEntry)) (pageOffset virtualAddr))
      (Entry.fill (frameOf physicalAddr)), t.effects⟩

/-! ### Forgetting the effects -/

theorem resultAddr_firstFree (s : State) : resultAddr (firstFree s) = (allocatePage s).1 := by
  rw [allocatePage]
  cases firstFree s <;> rfl

theorem fillTableTraced_state (table : Option ℕ) (i : ℕ) (t : Traced) :
    (fillTableTraced table i t).state = fillTable (resultAddr table) i t.state :=
  CountedLoop.forRange_map (f := Traced.state) (fun _ _ => rfl) t

theorem clearDirectoryTraced_state (dir : Option ℕ) (t : Traced) :
    (clearDirectoryTraced dir t).state = clearDirectory (resultAddr dir) t.state :=
  CountedLoop.forRange_map (f := Traced.state) (fun _ _ => rfl) t

theorem initRoundTraced_state (dir : Option ℕ) (i : ℕ) (t : Traced) :
    (initRoundTraced dir i t).state = initRound (resultAddr dir) i t.state := by
  rw [initRound_eq, ← resultAddr_firstFree]
  show State.modify (fillTableTraced _ i _).state _ _ = _
  rw [fillTableTraced_state]

theorem initTraced_eq (t : Traced) :
    initTraced t =
      (CountedLoop.forRange 0 1024 (initRoundTraced (firstFree t.state))
        (clearDirectoryTraced (firstFree t.state) t.allocate.2)).switch (firstFree t.state) := rfl

/-- The traced `init` is `init`. -/
theorem initTraced_state (t : Traced) : (initTraced t).state = init t.state := by
  have rounds : ∀ dir u, (CountedLoop.forRange 0 1024 (initRoundTraced dir) u).state =
      CountedLoop.forRange 0 1024 (initRound (resultAddr dir)) u.state := fun dir u =>
    CountedLoop.forRange_map (f := Traced.state) (initRoundTraced_state dir) u
  rw [initTraced_eq, init_eq, ← resultAddr_firstFree, Traced.switch, rounds,
    clearDirectoryTraced_state]
  rfl

/-- The traced `map_page` is `map_page`. -/
theorem mapPageTraced_state (physicalAddr virtualAddr : Word) (t : Traced) :
    (mapPageTraced physicalAddr virtualAddr t).state =
      mapPage physicalAddr virtualAddr t.state := by
  rw [mapPageTraced, mapPage]
  split
  · have answer : allocatePage t.state =
        (resultAddr (firstFree t.state), (allocatePage t.state).2) := by
      rw [resultAddr_firstFree]
    rw [answer]
    rfl
  · rfl

/-! ### Failures of `init` -/

/-- A loop of writes through one result. -/
theorem effects_forRange_write (page : Option ℕ) (addr : ℕ → Word) (f : ℕ → Word → Word) (n : ℕ)
    (t : Traced) :
    (CountedLoop.forRange 0 n (fun j t => t.write page (addr j) (f j)) t).effects =
      List.replicate n (.wrote page) ++ t.effects := by
  refine CountedLoop.forRange_induction (I := fun n (u : Traced) =>
    u.effects = List.replicate n (.wrote page) ++ t.effects) (Nat.zero_le _)
    (fun n u _ _ before => ?_) rfl
  rw [List.replicate_succ, List.cons_append, ← before]
  rfl

theorem mem_effects_forRange_write (page : Option ℕ) (addr : ℕ → Word) (f : ℕ → Word → Word)
    {n : ℕ} (some : 0 < n) (t : Traced) (e : Effect) :
    e ∈ (CountedLoop.forRange 0 n (fun j t => t.write page (addr j) (f j)) t).effects ↔
      e = .wrote page ∨ e ∈ t.effects := by
  rw [effects_forRange_write, List.mem_append, List.mem_replicate]
  exact or_congr_left (and_iff_right some.ne')

theorem mem_effects_clearDirectoryTraced (dir : Option ℕ) (t : Traced) (e : Effect) :
    e ∈ (clearDirectoryTraced dir t).effects ↔ e = .wrote dir ∨ e ∈ t.effects :=
  mem_effects_forRange_write _ _ _ (by decide) t e

theorem mem_effects_initRoundTraced (dir : Option ℕ) (i : ℕ) (t : Traced) (e : Effect) :
    e ∈ (initRoundTraced dir i t).effects ↔
      e = .installed (firstFree t.state) ∨ e = .wrote dir ∨ e = .wrote (firstFree t.state) ∨
        e = .called (firstFree t.state) ∨ e ∈ t.effects := by
  have filled := mem_effects_forRange_write (firstFree t.state)
    (entryAt (resultAddr (firstFree t.state)))
    (fun j => Entry.fill (BitVec.ofNat 20 (i * 1024 + j))) (show 0 < 1024 by decide) t.allocate.2 e
  show e ∈ Effect.installed _ :: Effect.wrote dir :: (fillTableTraced _ i t.allocate.2).effects ↔ _
  rw [List.mem_cons, List.mem_cons, fillTableTraced]
  exact or_congr_right (or_congr_right (filled.trans (or_congr_right List.mem_cons)))

theorem pageAligned_resultAddr (page : Option ℕ) : PageAligned (resultAddr page) := by
  cases page with
  | none => decide
  | some i => exact pageAligned_pageAddr i

theorem freePages_fillTable {table : Word} (aligned : PageAligned table) (i : ℕ) (s : State) :
    freePages (fillTable table i s) = freePages s :=
  have filled := rewritten_forRange aligned
    (fun j => Entry.fill (BitVec.ofNat 20 (i * 1024 + j))) s
  freePages_congr filled.memoryBitmap filled.totalPages

theorem freePages_clearDirectory {dir : Word} (aligned : PageAligned dir) (s : State) :
    freePages (clearDirectory dir s) = freePages s :=
  have cleared := rewritten_forRange aligned (fun _ => Entry.clear) s
  freePages_congr cleared.memoryBitmap cleared.totalPages

/-- How a run stands after `n` calls of `allocate_page`: one of them failed exactly when
there were fewer free pages, and a failed one was written through. -/
structure AfterCalls (free n : ℕ) (t : Traced) : Prop where
  left : (freePages t.state).card = free - n
  failed : .called none ∈ t.effects ↔ free < n
  written : .called none ∈ t.effects → .wrote none ∈ t.effects

/-- A call followed by a write through its result. -/
theorem AfterCalls.call {free n : ℕ} {t t' : Traced} (before : AfterCalls free n t)
    (freePages_eq : freePages t'.state = freePages (allocatePage t.state).2)
    (old : ∀ e ∈ t.effects, e ∈ t'.effects)
    (called : .called none ∈ t'.effects ↔ firstFree t.state = none ∨ .called none ∈ t.effects)
    (wrote : .wrote (firstFree t.state) ∈ t'.effects) : AfterCalls free (n + 1) t' := by
  obtain ⟨left, failed, written⟩ := before
  rcases firstFree_cases t.state with ⟨empty, found⟩ | ⟨i, least, found⟩
  · rw [empty, Finset.card_empty] at left
    rw [found] at wrote
    rw [allocatePage_of_none found, empty] at freePages_eq
    refine ⟨?_, ?_, fun _ => wrote⟩
    · rw [freePages_eq, Finset.card_empty]
      omega
    · exact iff_of_true (called.mpr (Or.inl found)) (by omega)
  · have free : i ∈ freePages t.state := least.1
    have some : 0 < (freePages t.state).card := Finset.card_pos.mpr ⟨i, free⟩
    rw [allocatePage_of_some found, freePages_markUsed] at freePages_eq
    have same : .called none ∈ t'.effects ↔ .called none ∈ t.effects := by
      rw [called, found]
      simp
    refine ⟨?_, ?_, fun fail => old _ (written (same.mp fail))⟩
    · rw [freePages_eq, Finset.card_erase_of_mem free]
      omega
    · rw [same, failed]
      omega

theorem pageAligned_allocatePage (s : State) : PageAligned (allocatePage s).1 := by
  rw [← resultAddr_firstFree]
  exact pageAligned_resultAddr _

theorem AfterCalls.round {free n : ℕ} {t : Traced} (before : AfterCalls free n t)
    (dir : Option ℕ) (i : ℕ) : AfterCalls free (n + 1) (initRoundTraced dir i t) := by
  have effects := mem_effects_initRoundTraced dir i t
  refine before.call ?_ (fun e old => ?_) ?_ ?_
  · rw [initRoundTraced_state, initRound_eq, freePages_modify,
      freePages_fillTable (pageAligned_allocatePage _)]
  · simp [effects, old]
  · simp [effects, eq_comm]
  · simp [effects]

/-- With too few pages, and only then, a call of `init` fails, and `init` writes through
its result. -/
theorem initTraced_failed (s : State) :
    (.called none ∈ (initTraced ⟨s, []⟩).effects ↔ (freePages s).card < 1025) ∧
    (.called none ∈ (initTraced ⟨s, []⟩).effects → .wrote none ∈ (initTraced ⟨s, []⟩).effects) := by
  have start : AfterCalls (freePages s).card 0 ⟨s, []⟩ :=
    ⟨rfl, by simp, fun none => absurd none List.not_mem_nil⟩
  have cleared : AfterCalls (freePages s).card 1
      (clearDirectoryTraced (firstFree s) (Traced.allocate ⟨s, []⟩).2) := by
    have effects := mem_effects_clearDirectoryTraced (firstFree s) (Traced.allocate ⟨s, []⟩).2
    refine start.call ?_ (fun e none => absurd none List.not_mem_nil) ?_ ?_
    · rw [clearDirectoryTraced_state, freePages_clearDirectory (pageAligned_resultAddr _)]
      rfl
    · rw [effects]
      simp [Traced.allocate, eq_comm]
    · simp [effects]
  have done := CountedLoop.forRange_induction
    (I := fun i t => AfterCalls (freePages s).card (i + 1) t) (Nat.zero_le 1024)
    (fun i t _ _ before => before.round (firstFree s) i) cleared
  rw [initTraced_eq, Traced.effects_switch]
  exact ⟨done.failed, done.written⟩

/-- A failed call is harmless: no write goes through its result, it is not put in a
directory entry, and the directory in use stays as it was in `s`. -/
def GuardsFailure (s : State) (t : Traced) : Prop :=
  .called none ∈ t.effects → .wrote none ∉ t.effects ∧ .installed none ∉ t.effects ∧
    t.state.currentDirectory = s.currentDirectory ∧
    ∀ i < 1024, t.state.mem (entryAt s.currentDirectory i) =
      s.mem (entryAt s.currentDirectory i)

theorem initTraced_guardsFailure_iff (s : State) :
    GuardsFailure s (initTraced ⟨s, []⟩) ↔ 1025 ≤ (freePages s).card := by
  obtain ⟨failed, written⟩ := initTraced_failed s
  rw [GuardsFailure]
  by_cases room : 1025 ≤ (freePages s).card
  · exact iff_of_true (fun fail => absurd (failed.mp fail) (not_lt.mpr room)) room
  · have fail := failed.mpr (not_le.mp room)
    exact iff_of_false (fun guarded => (guarded fail).1 (written fail)) room

theorem mapPageTraced_guardsFailure_iff (s : State) (physicalAddr v : Word) :
    GuardsFailure s (mapPageTraced physicalAddr v ⟨s, []⟩) ↔
      (dirEntry s v).present = 1#1 ∨ (freePages s).Nonempty := by
  by_cases here : (dirEntry s v).present = 1#1
  · have effects : (mapPageTraced physicalAddr v ⟨s, []⟩).effects = [] := by
      have taken : ¬ (dirEntry s v).present = 0#1 := by rw [here]; decide
      rw [mapPageTraced, dirEntry] at *
      rw [if_neg taken]
    rw [GuardsFailure, effects]
    exact iff_of_true (fun none => absurd none List.not_mem_nil) (Or.inl here)
  · have effects : (mapPageTraced physicalAddr v ⟨s, []⟩).effects =
        [.wrote (firstFree s), .installed (firstFree s), .called (firstFree s)] := by
      have absent := present_ne_one.mp here
      rw [mapPageTraced, dirEntry] at *
      rw [if_pos absent]
      rfl
    rw [GuardsFailure, effects]
    rcases firstFree_cases s with ⟨empty, found⟩ | ⟨i, least, found⟩
    · rw [found, empty]
      exact iff_of_false (fun guarded => (guarded (by simp)).1 (by simp)) (by simp [here])
    · rw [found]
      exact iff_of_true (fun fail => by simp at fail) (Or.inr ⟨i, least.1⟩)

/-- No table is installed without a page if and only if no allocation fails: `init` needs
1025 free pages, `map_page` a free page or a table that is already there. -/
theorem guardsFailure_iff (s : State) :
    (GuardsFailure s (initTraced ⟨s, []⟩) ↔ 1025 ≤ (freePages s).card) ∧
    ∀ physicalAddr v, GuardsFailure s (mapPageTraced physicalAddr v ⟨s, []⟩) ↔
      (dirEntry s v).present = 1#1 ∨ (freePages s).Nonempty :=
  ⟨initTraced_guardsFailure_iff s, mapPageTraced_guardsFailure_iff s⟩

/-- In the initial state, with no page at all, `init` writes a directory and its tables at
address 0. -/
theorem initTraced_no_pages : ¬ GuardsFailure (freeMemory 0) (initTraced ⟨freeMemory 0, []⟩) := by
  rw [initTraced_guardsFailure_iff, freePages_freeMemory, Finset.card_range]
  decide

end ModernOS.Memory
