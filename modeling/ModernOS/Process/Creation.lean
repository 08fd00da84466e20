import ModernOS.Lib.Transition
import ModernOS.Memory.Allocator
import ModernOS.Process.Pids

/-!
What a creation leaves behind.

`create_process` makes a slot ready before it asks for memory and before it sets up the stack.

* `failsAtomically_iff`: a creation that returns 0 leaves everything as it was exactly when it
  found no slot, or memory and a counter that is not zero. When there is no memory it returns at
  once, and the slot stays ready.
* `dispatchesValid_iff`: the scheduler hands only processes with a valid context to
  `switch_context` exactly when the last creation of each process it dispatches was given an
  entry point, found memory, and found a counter that is not zero. A fork gives the null pointer.
-/

namespace ModernOS.ProcessTable

open SlotTable Transition

/-! ### A creation that fails -/

/-- The slots, the counter, the current process and the page bitmap are the same. -/
structure Untouched (k k' : Table Memory.State) : Prop where
  processes : k'.processes = k.processes
  processCount : k'.processCount = k.processCount
  currentProcess : k'.currentProcess = k.currentProcess
  memoryBitmap : k'.memory.memoryBitmap = k.memory.memoryBitmap

/-- If the creation returns 0, it has changed nothing. -/
def FailsAtomically (k : Table Memory.State) (entryPoint : Word) : Prop :=
  (createProcess kernelPages entryPoint k).1 = 0#32 →
    Untouched k (createProcess kernelPages entryPoint k).2

/-- **A creation that fails is atomic** exactly when it finds no slot, or finds memory and a pid
other than 0. -/
theorem failsAtomically_iff (k : Table Memory.State) (entryPoint : Word) :
    FailsAtomically k entryPoint ↔
      ((∃ i, takenSlot k = some i) →
        (Memory.allocatePage k.memory).1 ≠ 0#32 ∧ k.nextPid ≠ 0#32) := by
  constructor
  · rintro atomic ⟨i, taken⟩
    have created := createProcess_of_some kernelPages entryPoint taken
    refine not_or.mp fun fails => ?_
    have unchanged := atomic (created.returns_zero_iff.mpr fails)
    exact created.processes_ne taken unchanged.processes
  · intro succeeds
    rw [FailsAtomically]
    cases taken : takenSlot k with
    | none =>
        rw [createProcess_of_none kernelPages entryPoint taken]
        exact fun _ => ⟨rfl, rfl, rfl, rfl⟩
    | some i =>
        have success : (createProcess kernelPages entryPoint k).1 ≠ 0#32 :=
          createProcess_ne_zero_iff.mpr ⟨⟨i, taken⟩, succeeds ⟨i, taken⟩⟩
        exact fun zero => absurd zero success

/-- Without memory, the first slot stays ready. -/
theorem failsAtomically_fails : ¬ ∀ k entryPoint, FailsAtomically k entryPoint := by
  intro atomic
  have kept := (atomic (emptyTable ⟨fun _ => Process.zeroed, 0#32, 0#32, none, Memory.freeMemory 0⟩)
    0x100#32 (by decide +kernel)).processes
  exact absurd (congrArg Process.state (congrFun kept 0)) (by decide +kernel)

/-! ### The context of a process that is dispatched -/

variable {μ : Type} (M : PageAllocator μ)

/-- The creation that filled a slot: its argument, and the table it was called in. -/
structure Filling (μ : Type) where
  entryPoint : Word
  before : Table μ

/-- A table together with the last creation that filled each slot. -/
structure Tracked (μ : Type) where
  table : Table μ
  filled : Slot → Option (Filling μ)

/-- The argument with which a call calls `create_process`. -/
def Op.entryPoint (k : Table μ) : Op → Option Word
  | .createProcess entryPoint => some entryPoint
  | .sysFork => k.currentProcess.map fun _ => 0#32
  | _ => none

/-- A call, with the creation it makes. -/
def track (w : Tracked μ) (op : Op) : Tracked μ where
  table := step M w.table op
  filled :=
    match op.entryPoint w.table, takenSlot w.table with
    | some entryPoint, some i => Function.update w.filled i (some ⟨entryPoint, w.table⟩)
    | _, _ => w.filled

/-- The creation returned a pid other than 0 and initialised the stack registers of slot `i`. -/
structure Filling.Succeeded (f : Filling μ) (i : Slot) : Prop where
  returns : (createProcess M f.entryPoint f.before).1 ≠ 0#32
  esp : ((createProcess M f.entryPoint f.before).2.processes i).esp =
    ((createProcess M f.entryPoint f.before).2.processes i).stackTop
  ebp : ((createProcess M f.entryPoint f.before).2.processes i).ebp =
    ((createProcess M f.entryPoint f.before).2.processes i).stackTop

/-- If the call dispatches a process, it jumps to an address other than 0, and the creation that
filled the slot succeeded. -/
def Op.DispatchesValid (w : Tracked μ) : Op → Prop
  | .schedule cpu => ∀ n, nextSlot w.table = some n →
      (ProcessTable.schedule cpu w.table).2.eip ≠ 0#32 ∧
        ∃ f, w.filled n = some f ∧ f.Succeeded M n
  | _ => True

/-- The creation was given an entry point, and found memory and a counter that is not zero. -/
structure Filling.Complete (f : Filling μ) : Prop where
  entryPoint : f.entryPoint ≠ 0#32
  page : (M.allocatePage f.before.memory).1 ≠ 0#32
  nextPid : f.before.nextPid ≠ 0#32

/-- If the call dispatches a process, the creation that filled its slot was complete. -/
def Op.DispatchesComplete (w : Tracked μ) : Op → Prop
  | .schedule _ => ∀ n f, nextSlot w.table = some n → w.filled n = some f → f.Complete M
  | _ => True

/-- The slot is in use, or `current_process` points to it. -/
def Held (k : Table μ) (i : Slot) : Prop := Live k i ∨ k.currentProcess = some i

section Step

variable {M} {k : Table μ} {op : Op}

theorem terminateProcess_currentProcess (pid : Word) (k : Table μ) :
    (terminateProcess pid k).2.currentProcess = k.currentProcess := by
  rw [terminateProcess]
  cases getProcess pid k <;> rfl

/-- A call that takes no slot keeps the pids and the entry points, and no slot comes into use. -/
structure KeepsSlots (k k' : Table μ) : Prop where
  pid : ∀ i, (k'.processes i).pid = (k.processes i).pid
  eip : ∀ i, (k'.processes i).eip = (k.processes i).eip
  held : ∀ i, Held k' i → Held k i

theorem KeepsSlots.refl (k : Table μ) : KeepsSlots k k := ⟨fun _ => rfl, fun _ => rfl, fun _ => id⟩

theorem keepsSlots_terminateProcess (pid : Word) (k : Table μ) :
    KeepsSlots k (terminateProcess pid k).2 := by
  refine ⟨terminateProcess_pid pid k, fun i => by rw [terminateProcess_processes],
    fun i held => ?_⟩
  rw [Held, terminateProcess_currentProcess] at held
  exact held.imp_left live_of_terminateProcess

theorem live_of_nextSlot {n : Slot} (next : nextSlot k = some n) : Live k n := by
  rw [Live, ready_of_nextSlot next]
  decide

theorem keepsSlots_schedule (cpu : Cpu) (k : Table μ) : KeepsSlots k (schedule cpu k).1 := by
  cases next : nextSlot k with
  | none =>
      rw [schedule_of_none cpu next]
      exact .refl k
  | some n =>
      have switched := schedule_of_some cpu next
      refine ⟨fun i => by rw [switched.processes i], fun i => by rw [switched.processes i],
        fun i held => ?_⟩
      rw [Held, Live, switched.states i, switched.currentProcess] at held
      by_cases same : i = n
      · rw [same]
        exact Or.inl (live_of_nextSlot next)
      · have used := held.resolve_right fun current => same (Option.some.inj current).symm
        rw [if_neg same, View.yielded] at used
        split at used
        · rename_i current
          exact Or.inr current
        · exact Or.inl used

/-- A call that makes no creation, or one that finds no slot. -/
theorem keepsSlots_step (idle : op.entryPoint k = none ∨ takenSlot k = none) :
    KeepsSlots k (step M k op) := by
  cases op with
  | createProcess entryPoint =>
      have full := idle.resolve_left (Option.some_ne_none entryPoint)
      rw [step, createProcess_of_none M entryPoint full]
      exact .refl k
  | terminateProcess pid => exact keepsSlots_terminateProcess pid k
  | schedule cpu => exact keepsSlots_schedule cpu k
  | sysExit status =>
      rw [step, sysExit]
      split
      · exact .refl k
      · exact keepsSlots_terminateProcess _ k
  | sysFork =>
      rw [step]
      cases current : k.currentProcess with
      | none =>
          rw [sysFork, current]
          exact .refl k
      | some c =>
          have creates : Op.sysFork.entryPoint k = some 0#32 :=
            congrArg (Option.map fun _ => 0#32) current
          have full := idle.resolve_left (by simp [creates])
          rw [sysFork_snd M current, createProcess_of_none M 0#32 full]
          exact .refl k

/-- A call that makes a creation does what the creation does. -/
theorem step_of_entryPoint {entryPoint : Word} (creates : op.entryPoint k = some entryPoint) :
    step M k op = (createProcess M entryPoint k).2 := by
  cases op with
  | createProcess entry =>
      obtain rfl : entry = entryPoint := Option.some.inj creates
      rfl
  | sysFork =>
      obtain ⟨c, current, rfl⟩ := Option.map_eq_some_iff.mp creates
      exact sysFork_snd M current
  | terminateProcess pid => cases creates
  | schedule cpu => cases creates
  | sysExit status => cases creates

end Step

/-- A call takes no slot, or it makes a creation that takes one. -/
theorem track_cases (w : Tracked μ) (op : Op) :
    (KeepsSlots w.table (track M w op).table ∧ (track M w op).filled = w.filled) ∨
    ∃ entryPoint i r, takenSlot w.table = some i ∧
      Created M entryPoint w.table i r (track M w op).table ∧
      (track M w op).filled = Function.update w.filled i (some ⟨entryPoint, w.table⟩) := by
  cases creates : op.entryPoint w.table with
  | none =>
      refine Or.inl ⟨keepsSlots_step (Or.inl creates), ?_⟩
      rw [track, creates]
  | some entryPoint =>
      cases taken : takenSlot w.table with
      | none =>
          refine Or.inl ⟨keepsSlots_step (Or.inr taken), ?_⟩
          rw [track, creates, taken]
      | some i =>
          have stepped : (track M w op).table = (createProcess M entryPoint w.table).2 :=
            step_of_entryPoint creates
          have created := createProcess_of_some M entryPoint taken
          rw [← stepped] at created
          refine Or.inr ⟨entryPoint, i, _, rfl, created, ?_⟩
          rw [track, creates, taken]

/-- Each slot that is held has been filled by a creation that took it, and its record still has
the entry point. -/
def FilledTracked (w : Tracked μ) : Prop :=
  ∀ i, Held w.table i → ∃ f, w.filled i = some f ∧ takenSlot f.before = some i ∧
    (w.table.processes i).eip = f.entryPoint

theorem filledTracked_track {w : Tracked μ} (inv : FilledTracked w) (op : Op) :
    FilledTracked (track M w op) := by
  intro i held
  rcases track_cases M w op with ⟨keeps, filled⟩ | ⟨entryPoint, j, r, taken, created, filled⟩
  · obtain ⟨f, before, taken, eip⟩ := inv i (keeps.held i held)
    exact ⟨f, filled ▸ before, taken, (keeps.eip i).trans eip⟩
  · rw [filled, Function.update_apply]
    split
    · rename_i same
      exact ⟨_, rfl, same ▸ taken, same ▸ created.eip_self⟩
    · rename_i other
      rw [Held, Live, created.states_of_ne other, created.currentProcess] at held
      rw [created.eip_of_ne other]
      exact inv i held

/-- A creation that took slot `i` succeeded exactly when it found memory and a pid. -/
theorem Filling.succeeded_iff {f : Filling μ} {i : Slot} (taken : takenSlot f.before = some i) :
    f.Succeeded M i ↔
      (M.allocatePage f.before.memory).1 ≠ 0#32 ∧ f.before.nextPid ≠ 0#32 := by
  have returns := (createProcess_of_some M f.entryPoint taken).returns_ne_zero_iff
  refine ⟨fun succeeded => returns.mp succeeded.returns, fun found => ?_⟩
  have success := returns.mpr found
  obtain ⟨esp, ebp⟩ := createProcess_stack taken success
  exact ⟨success, esp, ebp⟩

theorem dispatchesValid_iff_complete {w : Tracked μ} (inv : FilledTracked w) (op : Op) :
    op.DispatchesValid M w ↔ op.DispatchesComplete M w := by
  cases op with
  | schedule cpu =>
      refine forall_congr' fun n => ?_
      constructor
      · intro valid f next filled
        obtain ⟨jumps, g, filled', succeeded⟩ := valid next
        obtain rfl : f = g := Option.some.inj (filled.symm.trans filled')
        obtain ⟨_, filled', taken, eip⟩ := inv n (Or.inl (live_of_nextSlot next))
        obtain rfl := Option.some.inj (filled.symm.trans filled')
        obtain ⟨page, nextPid⟩ := (Filling.succeeded_iff M taken).mp succeeded
        rw [(schedule_of_some cpu next).registers, eip] at jumps
        exact ⟨jumps, page, nextPid⟩
      · intro complete next
        obtain ⟨f, filled, taken, eip⟩ := inv n (Or.inl (live_of_nextSlot next))
        obtain ⟨entryPoint, page, nextPid⟩ := complete f next filled
        refine ⟨?_, f, filled, (Filling.succeeded_iff M taken).mpr ⟨page, nextPid⟩⟩
        rw [(schedule_of_some cpu next).registers, eip]
        exact entryPoint
  | _ => exact Iff.rfl

/-- Along the run `ops` from the empty table, the scheduler jumps to no null pointer and
dispatches only processes whose creation succeeded. -/
def DispatchesValid (k : Table μ) (ops : List Op) : Prop :=
  ∀ pre op, pre ++ [op] <+: ops →
    op.DispatchesValid M (run (track M) ⟨emptyTable k, fun _ => none⟩ pre)

/-- **The scheduler never jumps to address 0** along a run exactly when each process it
dispatches comes from a creation that was given an entry point, found memory, and found a counter
that is not zero. -/
theorem dispatchesValid_iff (k : Table μ) (ops : List Op) :
    DispatchesValid M k ops ↔
      EveryStep (track M) (fun w op => op.DispatchesComplete M w) ⟨emptyTable k, fun _ => none⟩
        ops := by
  have start : FilledTracked ⟨emptyTable k, fun _ => none⟩ := by
    rintro i (live | current)
    · exact absurd rfl live
    · cases current
  refine everyStep_iff_forall.symm.trans ?_
  exact everyStep_congr (I := FilledTracked) (fun w op inv _ => filledTracked_track M inv op)
    (fun w op inv => dispatchesValid_iff_complete M inv op) start ops

/-- A process is created, runs and forks. -/
def forkOfFirst : List Op := [.createProcess 0x100#32, .schedule ⟨0#32, 0#32, 0#32⟩, .sysFork]

/-- The child of a fork is dispatched at the null pointer. -/
theorem dispatchesValid_fails : ¬ ∀ ops, DispatchesValid onePage blank ops := by
  intro valid
  have jumps := valid (forkOfFirst ++ [.schedule ⟨0#32, 0#32, 0#32⟩]) forkOfFirst _ List.prefix_rfl
    1 (by decide +kernel)
  exact absurd jumps.1 (by decide +kernel)

end ModernOS.ProcessTable
