import ModernOS.Lib.Transition
import ModernOS.Process.Events

/-!
The pids of the processes.

`create_process` numbers the processes with a 32-bit counter, and `get_process` returns the
lowest slot with a pid, whatever its state. Along a run of creations and terminations the pid of
a live process is not zero and finds its own slot exactly when each creation that takes a slot
finds the counter at a number that is not zero and not the pid of a live process
(`pidsIdentify_iff`). That a stale pid below the slot does no harm rests on the order of the
slots: a creation takes the lowest free one.
-/

namespace ModernOS.ProcessTable

open SlotTable Transition

variable {μ : Type} (M : PageAllocator μ)

theorem getProcess_eq_some {pid : Word} {k : Table μ} {i : Slot} :
    getProcess pid k = some i ↔
      (k.processes i).pid = pid ∧ ∀ j < i, (k.processes j).pid ≠ pid :=
  firstSlot_eq_some

theorem getProcess_eq_none {pid : Word} {k : Table μ} :
    getProcess pid k = none ↔ ∀ i, (k.processes i).pid ≠ pid :=
  firstSlot_eq_none

/-! ### Live processes -/

/-- The slot is in use. -/
def Live (k : Table μ) (i : Slot) : Prop := k.states i ≠ .terminated

instance (k : Table μ) (i : Slot) : Decidable (Live k i) := inferInstanceAs (Decidable (_ ≠ _))

/-- The pid of a live process is not zero, and `get_process` finds its slot. -/
structure Identified (k : Table μ) (i : Slot) : Prop where
  nonzero : (k.processes i).pid ≠ 0#32
  found : getProcess (k.processes i).pid k = some i

/-- Pids identify the live processes. -/
structure PidsIdentify (k : Table μ) : Prop where
  nonzero : ∀ i, Live k i → (k.processes i).pid ≠ 0#32
  distinct : ∀ i j, Live k i → Live k j → (k.processes i).pid = (k.processes j).pid → i = j
  found : ∀ i, Live k i → getProcess (k.processes i).pid k = some i

theorem pidsIdentify_iff_identified {k : Table μ} :
    PidsIdentify k ↔ ∀ i, Live k i → Identified k i := by
  constructor
  · intro identify i live
    exact ⟨identify.nonzero i live, identify.found i live⟩
  · intro identified
    refine ⟨fun i live => (identified i live).nonzero, fun i j hi hj same => ?_,
      fun i live => (identified i live).found⟩
    have found := (identified i hi).found
    rw [same, (identified j hj).found] at found
    exact (Option.some.inj found).symm

/-- A call of `create_process`, or of `terminate_process` for a live process. -/
def Op.CreatesOrEnds (k : Table μ) : Op → Prop
  | .createProcess _ => True
  | .terminateProcess pid => ∃ i, Live k i ∧ (k.processes i).pid = pid
  | _ => False

/-- A creation that returns 0 has created nothing. -/
def Op.ReportsFailure (k : Table μ) : Op → Prop
  | .createProcess entryPoint =>
      (ProcessTable.createProcess M entryPoint k).1 = 0#32 →
        (ProcessTable.createProcess M entryPoint k).2 = k
  | _ => True

/-- A creation that takes a slot finds the counter at a number that is neither zero nor the pid
of a live process. -/
def Op.GetsFreshPid (k : Table μ) : Op → Prop
  | .createProcess _ =>
      (∃ i, takenSlot k = some i) →
        k.nextPid ≠ 0#32 ∧ ∀ j, Live k j → (k.processes j).pid ≠ k.nextPid
  | _ => True

section Creation

variable {M} {k k' : Table μ} {i : Slot} {entryPoint r : Word}

/-- The slots below the one a creation takes are in use. -/
theorem live_of_lt_takenSlot (taken : takenSlot k = some i) {j : Slot} (below : j < i) :
    Live k j := (firstSlot_eq_some.mp (takenSlot_eq_some.mp taken).2).2 j below

theorem not_live_takenSlot (taken : takenSlot k = some i) : ¬ Live k i :=
  not_not.mpr (holds_of_firstSlot (takenSlot_eq_some.mp taken).2)

theorem Created.live_self (created : Created M entryPoint k i r k') : Live k' i := by
  rw [Live, created.states_self]
  decide

/-- The record that the creation rewrites is another one: its slot was free. -/
theorem Created.processes_ne (created : Created M entryPoint k i r k')
    (taken : takenSlot k = some i) : k'.processes ≠ k.processes := by
  intro same
  have live := created.live_self
  rw [Live, Table.states, same] at live
  exact not_live_takenSlot taken live

/-- The new process is found by its pid when no live process has it: the slots below its own are
in use. -/
theorem Created.identified_self (created : Created M entryPoint k i r k')
    (taken : takenSlot k = some i) (nonzero : k.nextPid ≠ 0#32)
    (unused : ∀ j, Live k j → (k.processes j).pid ≠ k.nextPid) : Identified k' i := by
  have pid := created.pid_self
  refine ⟨pid ▸ nonzero, getProcess_eq_some.mpr ⟨rfl, fun j below => ?_⟩⟩
  rw [pid, created.pid_of_ne below.ne]
  exact unused j (live_of_lt_takenSlot taken below)

/-- A process that was found by its pid is still found if the new process has another. -/
theorem Created.identified_of_ne (created : Created M entryPoint k i r k') {j : Slot}
    (other : j ≠ i) (unused : (k.processes j).pid ≠ k.nextPid) (before : Identified k j) :
    Identified k' j := by
  have pid := created.pid_of_ne other
  refine ⟨pid ▸ before.nonzero, getProcess_eq_some.mpr ⟨rfl, fun l below => ?_⟩⟩
  rw [pid]
  by_cases same : l = i
  · rw [same, created.pid_self]
    exact unused.symm
  · rw [created.pid_of_ne same]
    exact (getProcess_eq_some.mp before.found).2 l below

/-- After a creation that takes a slot, pids identify the live processes and the result is not
zero exactly when the counter stood at a fresh number. -/
theorem Created.identify_iff_fresh (created : Created M entryPoint k i r k')
    (taken : takenSlot k = some i) (page : (M.allocatePage k.memory).1 ≠ 0#32)
    (before : PidsIdentify k) :
    PidsIdentify k' ∧ r ≠ 0#32 ↔
      k.nextPid ≠ 0#32 ∧ ∀ j, Live k j → (k.processes j).pid ≠ k.nextPid := by
  have apart {j : Slot} (live : Live k j) : j ≠ i := fun same =>
    not_live_takenSlot taken (same ▸ live)
  constructor
  · rintro ⟨after, nonzero⟩
    refine ⟨(created.returns_ne_zero_iff.mp nonzero).2, fun j live same => ?_⟩
    have live' : Live k' j := by
      rw [Live, created.states_of_ne (apart live)]
      exact live
    refine apart live (after.distinct j i live' created.live_self ?_)
    rw [created.pid_of_ne (apart live), created.pid_self, same]
  · rintro ⟨nonzero, unused⟩
    refine ⟨pidsIdentify_iff_identified.mpr fun j live => ?_, ?_⟩
    · by_cases same : j = i
      · rw [same]
        exact created.identified_self taken nonzero unused
      · rw [Live, created.states_of_ne same] at live
        exact created.identified_of_ne same (unused j live)
          (pidsIdentify_iff_identified.mp before j live)
    · exact created.returns_ne_zero_iff.mpr ⟨page, nonzero⟩

end Creation

/-- A termination changes no pid. -/
theorem terminateProcess_pid (pid : Word) (k : Table μ) (j : Slot) :
    ((terminateProcess pid k).2.processes j).pid = (k.processes j).pid := by
  rw [terminateProcess_processes]

theorem live_of_terminateProcess {pid : Word} {k : Table μ} {j : Slot}
    (live : Live (terminateProcess pid k).2 j) : Live k j := by
  have states : (terminateProcess pid k).2.states = (k.view.apply (termination pid k)).states :=
    congrArg View.states (terminateProcess_view pid k)
  rw [Live, states, termination] at live
  split at live
  · exact live
  · rw [View.apply_ended_states] at live
    split at live
    · exact absurd rfl live
    · exact live

/-- A termination leaves the other processes identified. -/
theorem PidsIdentify.terminate {k : Table μ} (before : PidsIdentify k) (pid : Word) :
    PidsIdentify (terminateProcess pid k).2 := by
  refine pidsIdentify_iff_identified.mpr fun j live => ?_
  have identified := pidsIdentify_iff_identified.mp before j (live_of_terminateProcess live)
  refine ⟨(terminateProcess_pid pid k j).trans_ne identified.nonzero, ?_⟩
  rw [getProcess_eq_some]
  refine ⟨rfl, fun l below => ?_⟩
  rw [terminateProcess_pid, terminateProcess_pid]
  exact (getProcess_eq_some.mp identified.found).2 l below

/-- One step of a run of creations and terminations. -/
theorem pidsIdentify_step_iff (pages : ∀ m, (M.allocatePage m).1 ≠ 0#32) {k : Table μ} {op : Op}
    (allowed : op.CreatesOrEnds k) (before : PidsIdentify k) :
    PidsIdentify (step M k op) ∧ op.ReportsFailure M k ↔ op.GetsFreshPid k := by
  cases op with
  | createProcess entryPoint =>
      show PidsIdentify (createProcess M entryPoint k).2 ∧ (_ → _) ↔ (_ → _)
      cases taken : takenSlot k with
      | none =>
          rw [createProcess_of_none M entryPoint taken]
          exact iff_of_true ⟨before, fun _ => rfl⟩ fun found => nomatch found
      | some i =>
          have created := createProcess_of_some M entryPoint taken
          have changed : (createProcess M entryPoint k).2 ≠ k := fun same =>
            created.processes_ne taken (congrArg Table.processes same)
          have iff := created.identify_iff_fresh taken (pages k.memory) before
          constructor
          · rintro ⟨after, reports⟩ -
            exact iff.mp ⟨after, fun zero => changed (reports zero)⟩
          · intro fresh
            obtain ⟨after, nonzero⟩ := iff.mpr (fresh ⟨i, rfl⟩)
            exact ⟨after, fun zero => absurd zero nonzero⟩
  | terminateProcess pid => exact iff_of_true ⟨before.terminate pid, trivial⟩ trivial
  | schedule cpu => exact allowed.elim
  | sysExit status => exact allowed.elim
  | sysFork => exact allowed.elim

/-- **Pids identify processes** along a run from the empty table exactly when each creation that
takes a slot finds the counter at a fresh number. -/
theorem pidsIdentify_iff (pages : ∀ m, (M.allocatePage m).1 ≠ 0#32) (k : Table μ) (ops : List Op)
    (allowed : EveryStep (step M) (fun k op => op.CreatesOrEnds k) (emptyTable k) ops) :
    ((∀ pre, pre <+: ops → PidsIdentify (run (step M) (emptyTable k) pre)) ∧
      EveryStep (step M) (fun k op => op.ReportsFailure M k) (emptyTable k) ops) ↔
    EveryStep (step M) (fun k op => op.GetsFreshPid k) (emptyTable k) ops := by
  have start : PidsIdentify (emptyTable k) :=
    pidsIdentify_iff_identified.mpr fun _ live => absurd rfl live
  have along :
      EveryStep (step M) (fun k op => op.CreatesOrEnds k ∧
        PidsIdentify (step M k op) ∧ op.ReportsFailure M k) (emptyTable k) ops ↔
      EveryStep (step M) (fun k op => op.CreatesOrEnds k ∧ op.GetsFreshPid k) (emptyTable k) ops :=
    everyStep_congr (I := PidsIdentify)
      (fun k op before guard => ((pidsIdentify_step_iff M pages guard.1 before).mpr guard.2).1)
      (fun k op before => and_congr_right fun allowed =>
        pidsIdentify_step_iff M pages allowed before) start ops
  rw [everyStep_and, everyStep_and, everyStep_and, and_iff_right allowed,
    and_iff_right allowed] at along
  rw [everyState_iff (P := PidsIdentify), and_iff_right start]
  exact along

theorem onePage_allocatePage (m : Unit) : (onePage.allocatePage m).1 ≠ 0#32 := by
  show 0x1000#32 ≠ 0#32
  decide

/-- A process is created and terminated. -/
theorem pidsIdentify_one_process :
    (∀ pre, pre <+: [.createProcess 0x100#32, .terminateProcess 1#32] →
      PidsIdentify (run (step onePage) (emptyTable blank) pre)) ∧
    EveryStep (step onePage) (fun k op => op.ReportsFailure onePage k) (emptyTable blank)
      [.createProcess 0x100#32, .terminateProcess 1#32] := by
  refine (pidsIdentify_iff onePage onePage_allocatePage blank _ ?_).mpr ?_
  · exact ⟨trivial, ⟨0, by decide +kernel, by decide +kernel⟩, trivial⟩
  · exact ⟨fun _ => ⟨by decide, fun j live => absurd rfl live⟩, trivial, trivial⟩

/-! ### The counter wraps -/

/-- No process is alive, and `n` have been. -/
structure Idle (n : ℕ) (k : Table μ) : Prop where
  free : ∀ i, k.states i = .terminated
  processCount : k.processCount = 0#32
  nextPid : k.nextPid = BitVec.ofNat 32 (n + 1)

/-- The process after the first `n` is created and terminated. -/
def createAndEnd (n : ℕ) : List Op :=
  [.createProcess 0x100#32, .terminateProcess (BitVec.ofNat 32 (n + 1))]

/-- One process after the other is created and terminated. -/
def processes (n : ℕ) : List Op := (List.range n).flatMap createAndEnd

section Idle

variable {M} {n : ℕ} {k : Table μ}

theorem Idle.takenSlot (idle : Idle n k) : takenSlot k = some 0 := by
  refine takenSlot_eq_some.mpr ⟨?_, firstSlot_eq_some.mpr ⟨idle.free 0, ?_⟩⟩
  · rw [idle.processCount]
    decide
  · exact fun j below => absurd below (Fin.not_lt_zero j)

theorem Idle.createAndEnd (pages : ∀ m, (M.allocatePage m).1 ≠ 0#32) (idle : Idle n k) :
    Idle (n + 1) (run (step M) k (createAndEnd n)) ∧
    EveryStep (step M) (fun k op => op.CreatesOrEnds k) k (createAndEnd n) := by
  have created := createProcess_of_some M 0x100#32 idle.takenSlot
  have counted := created.outcome
  rw [if_pos (pages k.memory)] at counted
  have found : getProcess (BitVec.ofNat 32 (n + 1)) (createProcess M 0x100#32 k).2 = some 0 :=
    getProcess_eq_some.mpr ⟨created.pid_self.trans idle.nextPid, fun j below =>
      absurd below (Fin.not_lt_zero j)⟩
  refine ⟨?_, trivial, ⟨0, ?_, (getProcess_eq_some.mp found).1⟩, trivial⟩
  · show Idle (n + 1) (terminateProcess _ (createProcess M 0x100#32 k).2).2
    rw [terminateProcess_of_some found]
    refine ⟨fun i => ?_, ?_, ?_⟩
    · refine (congrFun (Table.modify_states _ 0 fun p => { p with state := .terminated }) i).trans
        ?_
      rw [created.states, Function.update_idem, Function.update_apply]
      split
      · rfl
      · exact idle.free i
    · show (createProcess M 0x100#32 k).2.processCount - 1#32 = 0#32
      rw [counted.2, idle.processCount]
      rfl
    · show (createProcess M 0x100#32 k).2.nextPid = _
      rw [created.nextPid, idle.nextPid, ← BitVec.ofNat_add]
  · exact created.live_self

theorem idle_processes (pages : ∀ m, (M.allocatePage m).1 ≠ 0#32) (k : Table μ) (n : ℕ) :
    Idle n (run (step M) (emptyTable k) (processes n)) ∧
    EveryStep (step M) (fun k op => op.CreatesOrEnds k) (emptyTable k) (processes n) := by
  induction n with
  | zero => exact ⟨⟨fun _ => rfl, rfl, rfl⟩, trivial⟩
  | succ n ih =>
      obtain ⟨idle, allowed⟩ := ih
      obtain ⟨idle', allowed'⟩ := idle.createAndEnd pages
      rw [processes, List.range_succ, List.flatMap_append, List.flatMap_singleton]
      rw [run_append, everyStep_append]
      exact ⟨idle', allowed, allowed'⟩

/-- When the counter has wrapped, a creation returns 0 and has created a process. -/
theorem not_reportsFailure_of_wrapped (wraps : BitVec.ofNat 32 (n + 1) = 0#32)
    (idle : Idle n k) : ¬ (Op.createProcess 0x100#32).ReportsFailure M k := by
  intro reports
  have created := createProcess_of_some M 0x100#32 idle.takenSlot
  have unchanged := reports (created.returns_zero_iff.mpr (Or.inr (idle.nextPid.trans wraps)))
  exact created.processes_ne idle.takenSlot (congrArg Table.processes unchanged)

end Idle

/-- After 2^32 - 1 processes have come and gone, the next one gets the pid 0. -/
theorem pidsIdentify_fails :
    ¬ ∀ ops, EveryStep (step onePage) (fun k op => op.CreatesOrEnds k) (emptyTable blank) ops →
      (∀ pre, pre <+: ops → PidsIdentify (run (step onePage) (emptyTable blank) pre)) ∧
      EveryStep (step onePage) (fun k op => op.ReportsFailure onePage k) (emptyTable blank)
        ops := by
  intro identify
  obtain ⟨n, wraps⟩ : ∃ n, BitVec.ofNat 32 (n + 1) = 0#32 := ⟨2 ^ 32 - 1, by decide⟩
  obtain ⟨idle, allowed⟩ := idle_processes onePage_allocatePage blank n
  have last (k : Table Unit) :
      EveryStep (step onePage) (fun k op => op.CreatesOrEnds k) k [.createProcess 0x100#32] :=
    ⟨trivial, trivial⟩
  have reports := (identify (processes n ++ [.createProcess 0x100#32])
    (everyStep_append.mpr ⟨allowed, last _⟩)).2
  rw [everyStep_append] at reports
  exact not_reportsFailure_of_wrapped wraps idle reports.2.1

end ModernOS.ProcessTable
