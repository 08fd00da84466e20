import ModernOS.Lib.Transition
import ModernOS.Process.Events

/-!
Whole runs of the process table.

* `single_running`: at most one slot is running, and it is the current one, after
  any calls from the state `init` leaves or from the empty table.
* `staysDead_iff`: a slot ended by `terminate_process` or `sys_exit` stays out of
  the scheduler's hands along a run exactly when no switch of the run is made while
  the current process is terminated. `schedule` makes the current process ready
  without looking at its state.
* `countExact_iff`: `process_count` counts the slots in use along a run exactly when
  every creation that takes a slot gets its memory, every termination finds a slot
  that is in use, and no switch revives a terminated process.
* `createProcess_after_init`: `init` zero-fills the table, zero is not the code of
  `Terminated`, and so no process can be created.

The first three see a call through its event only: a lemma about `View.apply`, one
case for each event, and then an induction over the run.
-/

namespace ModernOS.ProcessTable

open SlotTable Transition

variable {μ : Type} (M : PageAllocator μ)

/-! ### One running process -/

/-- Only the current process runs. -/
def View.RunningIsCurrent (v : View) : Prop :=
  ∀ i, v.states i = .running → v.currentProcess = some i

/-- Every event keeps the running process current. -/
theorem View.runningIsCurrent_apply {v : View} (inv : v.RunningIsCurrent) (e : Event) :
    (v.apply e).RunningIsCurrent := by
  intro i running
  cases e with
  | idle => exact inv i running
  | taken j counted =>
      rw [View.apply_taken_states] at running
      split at running
      · cases running
      · exact inv i running
  | ended j =>
      rw [View.apply_ended_states] at running
      split at running
      · cases running
      · exact inv i running
  | dispatched j =>
      rw [View.apply_dispatched_states] at running
      split at running
      · rename_i same
        rw [same]
        rfl
      · -- A process that was running was current, and has just been made ready.
        unfold View.yielded at running
        split at running
        · cases running
        · rename_i other
          exact absurd (inv i running) other

theorem runningIsCurrent_run {k : Table μ} (inv : k.view.RunningIsCurrent) (ops : List Op) :
    (run (step M) k ops).view.RunningIsCurrent := by
  refine run_invariant (I := fun k : Table μ => k.view.RunningIsCurrent)
    (fun k op inv => ?_) inv ops
  rw [view_step]
  exact View.runningIsCurrent_apply inv _

/-- At most one slot is running, and it is the slot `current_process` points to. -/
def SingleRunning (k : Table μ) : Prop :=
  (∀ i j, k.states i = .running → k.states j = .running → i = j) ∧
  ∀ i, k.states i = .running → k.currentProcess = some i

theorem singleRunning_of_view {k : Table μ} (inv : k.view.RunningIsCurrent) : SingleRunning k :=
  ⟨fun i j hi hj => Option.some.inj ((inv i hi).symm.trans (inv j hj)), inv⟩

/-- **At most one process runs**, whatever the calls and the answers of the page
allocator. -/
theorem single_running (k : Table μ) (ops : List Op) :
    SingleRunning (run (step M) (init k) ops) ∧
    SingleRunning (run (step M) (emptyTable k) ops) := by
  constructor
  · refine singleRunning_of_view (runningIsCurrent_run M (fun i running => ?_) ops)
    cases running
  · refine singleRunning_of_view (runningIsCurrent_run M (fun i running => ?_) ops)
    cases running

/-! ### Terminated processes -/

/-- A switch is not made away from a terminated process. -/
def Event.YieldsLive (v : View) : Event → Prop
  | .dispatched _ => ∀ c, v.currentProcess = some c → v.states c ≠ .terminated
  | _ => True

/-- The slots whose process has been terminated and that no creation has taken since,
after an event. A creation that takes a slot gives it a new pid, also when it fails later. -/
def Event.dead (dead : Finset Slot) : Event → Finset Slot
  | .ended i => insert i dead
  | .taken i _ => dead.erase i
  | _ => dead

/-- The event does not dispatch a dead slot, and leaves no dead slot ready or running. -/
def Event.StaysDead (v : View) (dead : Finset Slot) (e : Event) : Prop :=
  (∀ i ∈ dead, e ≠ .dispatched i) ∧
  ∀ i ∈ e.dead dead, (v.apply e).states i ≠ .ready ∧ (v.apply e).states i ≠ .running

/-- Dead slots are terminated, and a terminated current process is dead. -/
structure DeadTracked (v : View) (dead : Finset Slot) : Prop where
  terminated : ∀ i ∈ dead, v.states i = .terminated
  current : ∀ c, v.currentProcess = some c → v.states c = .terminated → c ∈ dead

/-- A slot that is dispatched is not dead. -/
theorem DeadTracked.notMem {v : View} {dead : Finset Slot} {n : Slot} (inv : DeadTracked v dead)
    (enabled : (Event.dispatched n).Enabled v) : n ∉ dead := by
  intro mem
  have ready : v.states n = .ready := enabled
  rw [inv.terminated n mem] at ready
  cases ready

theorem deadTracked_apply {v : View} {dead : Finset Slot} {e : Event} (inv : DeadTracked v dead)
    (enabled : e.Enabled v) (live : e.YieldsLive v) : DeadTracked (v.apply e) (e.dead dead) := by
  cases e with
  | idle => exact inv
  | taken i counted =>
      constructor
      · intro j mem
        obtain ⟨other, mem⟩ := Finset.mem_erase.mp mem
        rw [View.apply_taken_states, if_neg other]
        exact inv.terminated j mem
      · intro c current term
        rw [View.apply_taken_states] at term
        split at term
        · cases term
        · rename_i other
          exact Finset.mem_erase.mpr ⟨other, inv.current c current term⟩
  | ended i =>
      constructor
      · intro j mem
        rw [View.apply_ended_states]
        split
        · rfl
        · rename_i other
          exact inv.terminated j (Finset.mem_of_mem_insert_of_ne mem other)
      · intro c current term
        rw [View.apply_ended_states] at term
        split at term
        · rename_i same
          exact Finset.mem_insert.mpr (Or.inl same)
        · exact Finset.mem_insert_of_mem (inv.current c current term)
  | dispatched n =>
      constructor
      · intro j mem
        have term := inv.terminated j mem
        rw [View.apply_dispatched_states, if_neg, View.yielded, if_neg, term]
        · exact fun current => live j current term
        · rintro rfl
          exact inv.notMem enabled mem
      · intro c current term
        obtain rfl : n = c := Option.some.inj current
        rw [View.apply_dispatched_states, if_pos rfl] at term
        cases term

/-- A switch away from a terminated process, and no other event, revives a dead slot. -/
theorem staysDead_iff_yieldsLive {v : View} {dead : Finset Slot} {e : Event}
    (inv : DeadTracked v dead) (enabled : e.Enabled v) : e.StaysDead v dead ↔ e.YieldsLive v := by
  constructor
  · intro stays
    cases e with
    | idle => trivial
    | taken i counted => trivial
    | ended i => trivial
    | dispatched n =>
        intro c current term
        have mem := inv.current c current term
        have states := (stays.2 c mem).1
        rw [View.apply_dispatched_states, View.yielded, if_pos current] at states
        split at states
        · rename_i same
          exact stays.1 c mem (by rw [same])
        · exact states rfl
  · intro live
    refine ⟨?_, fun i mem => ?_⟩
    · rintro i mem rfl
      exact inv.notMem enabled mem
    · rw [(deadTracked_apply inv enabled live).terminated i mem]
      exact ⟨by decide, by decide⟩

/-- A table together with its dead slots. -/
structure Watched (μ : Type) where
  table : Table μ
  dead : Finset Slot

/-- A call, with what it does to the dead slots. -/
def watch (w : Watched μ) (op : Op) : Watched μ where
  table := step M w.table op
  dead := (event M w.table op).dead w.dead

/-- The call does not switch away from a terminated process: it is not a `schedule` that
finds a ready process while `current_process` points to a terminated one. -/
def Op.YieldsLive (k : Table μ) : Op → Prop
  | .schedule _ =>
      (k.processCount ≠ 0#32 ∧ ∃ i, k.states i = .ready) →
        ∀ c, k.currentProcess = some c → k.states c ≠ .terminated
  | _ => True

theorem yieldsLive_of_not_dispatches {k : Table μ} {op : Op} (idle : ∀ i, ¬ op.Dispatches k i) :
    (event M k op).YieldsLive k.view := by
  cases caused : event M k op with
  | dispatched i => exact absurd (event_eq_dispatched.mp caused) (idle i)
  | _ => trivial

theorem yieldsLive_event (k : Table μ) (op : Op) :
    (event M k op).YieldsLive k.view ↔ op.YieldsLive k := by
  cases op with
  | schedule cpu =>
      unfold event Op.YieldsLive
      rw [← exists_nextSlot]
      cases next : nextSlot k with
      | none => exact iff_of_true trivial fun found => nomatch found
      | some n => exact ⟨fun live _ => live, fun live => live ⟨n, rfl⟩⟩
  | _ => exact iff_of_true (yieldsLive_of_not_dispatches M fun _ => id) trivial

/-- The call dispatches no dead slot, and leaves none ready or running. -/
structure KeepsDead (w : Watched μ) (op : Op) : Prop where
  undispatched : ∀ i ∈ w.dead, ¬ op.Dispatches w.table i
  waiting : ∀ i ∈ (watch M w op).dead,
    (watch M w op).table.states i ≠ .ready ∧ (watch M w op).table.states i ≠ .running

theorem keepsDead_iff_event (w : Watched μ) (op : Op) :
    KeepsDead M w op ↔ (event M w.table op).StaysDead w.table.view w.dead := by
  have states : (watch M w op).table.states =
      (w.table.view.apply (event M w.table op)).states :=
    congrArg View.states (view_step M w.table op)
  constructor
  · rintro ⟨undispatched, waiting⟩
    rw [states] at waiting
    exact ⟨fun i mem same => undispatched i mem (event_eq_dispatched.mp same), waiting⟩
  · rintro ⟨undispatched, waiting⟩
    rw [← states] at waiting
    exact ⟨fun i mem same => undispatched i mem (event_eq_dispatched.mpr same), waiting⟩

/-- Along the run `ops` from the empty table, no slot that `terminate_process` or
`sys_exit` has ended is ready, running or dispatched before a creation takes it. -/
def StaysDead (k : Table μ) (ops : List Op) : Prop :=
  ∀ pre op, pre ++ [op] <+: ops → KeepsDead M (run (watch M) ⟨emptyTable k, ∅⟩ pre) op

/-- **A terminated process stays out of the scheduler's hands** until a creation takes
its slot, along a run from the empty table, exactly when no switch of the run is made
while the current process is terminated. -/
theorem staysDead_iff (k : Table μ) (ops : List Op) :
    StaysDead M k ops ↔ EveryStep (step M) (fun k op => op.YieldsLive k) (emptyTable k) ops := by
  have start : DeadTracked (emptyTable k).view ∅ :=
    ⟨fun _ mem => absurd mem (Finset.notMem_empty _), fun _ none => nomatch none⟩
  have follows : ∀ (w : Watched μ) op, (watch M w op).table = step M w.table op := fun _ _ => rfl
  have along : EveryStep (watch M) (fun w op => op.YieldsLive w.table) ⟨emptyTable k, ∅⟩ ops ↔
      EveryStep (step M) (fun k op => op.YieldsLive k) (emptyTable k) ops :=
    everyStep_map (P := fun k op => op.YieldsLive k) follows
  have equiv : EveryStep (watch M) (KeepsDead M) ⟨emptyTable k, ∅⟩ ops ↔
      EveryStep (watch M) (fun w op => op.YieldsLive w.table) ⟨emptyTable k, ∅⟩ ops := by
    refine everyStep_congr (I := fun w => DeadTracked w.table.view w.dead) ?_ ?_ start ops
    · intro w op inv live
      show DeadTracked (step M w.table op).view _
      rw [view_step]
      exact deadTracked_apply inv (event_enabled M w.table op)
        ((yieldsLive_event M w.table op).mpr live)
    · intro w op inv
      calc KeepsDead M w op ↔ (event M w.table op).StaysDead w.table.view w.dead :=
            keepsDead_iff_event M w op
        _ ↔ (event M w.table op).YieldsLive w.table.view :=
            staysDead_iff_yieldsLive inv (event_enabled M w.table op)
        _ ↔ op.YieldsLive w.table := yieldsLive_event M w.table op
  exact everyStep_iff_forall.symm.trans (equiv.trans along)

/-- Two processes are created, and the first one runs and exits. -/
def exitOfFirst : List Op :=
  [.createProcess 0x100#32, .createProcess 0x200#32, .schedule ⟨0#32, 0#32, 0#32⟩, .sysExit 0#32]

/-- The switch that follows the exit makes the first process ready again. -/
theorem staysDead_fails : ¬ ∀ ops, StaysDead onePage blank ops := by
  intro stays
  have revived := (stays (exitOfFirst ++ [.schedule ⟨0#32, 0#32, 0#32⟩]) exitOfFirst _
    List.prefix_rfl).waiting 0
  exact absurd revived (by decide +kernel)

/-! ### The counter -/

/-- The number of slots in use. -/
def View.live (v : View) : ℕ := countSlots (· ≠ .terminated) v.states

theorem View.live_le (v : View) : v.live ≤ MAX_PROCESSES := countSlots_le

/-- The event moves the counter by as much as the number of slots in use. -/
def Event.KeepsCount (v : View) : Event → Prop
  | .idle => True
  | .taken _ counted => counted = true
  | .ended i => v.states i ≠ .terminated
  | .dispatched _ => ∀ c, v.currentProcess = some c → v.states c ≠ .terminated

theorem View.live_taken {v : View} {i : Slot} {counted : Bool}
    (enabled : (Event.taken i counted).Enabled v) :
    (v.apply (.taken i counted)).live = v.live + 1 := by
  have moved := countSlots_update (P := (· ≠ ProcessState.terminated)) (t := v.states) i .ready
  rw [if_neg (not_not.mpr enabled.1), if_pos (by decide)] at moved
  exact moved

theorem View.live_ended (v : View) (i : Slot) :
    (v.apply (.ended i)).live + (if v.states i ≠ .terminated then 1 else 0) = v.live := by
  have moved := countSlots_update (P := (· ≠ ProcessState.terminated)) (t := v.states) i
    .terminated
  rw [if_neg (not_not.mpr rfl)] at moved
  exact moved

theorem View.live_dispatched {v : View} {n : Slot} (enabled : (Event.dispatched n).Enabled v) :
    (v.apply (.dispatched n)).live =
      v.live + (if ∃ c, v.currentProcess = some c ∧ v.states c = .terminated then 1 else 0) := by
  have ready : v.states n = .ready := enabled
  have moved := countSlots_update (P := (· ≠ ProcessState.terminated)) (t := v.yielded) n .running
  have yielded : v.yielded n ≠ .terminated := by
    unfold View.yielded
    split
    · decide
    · rw [ready]
      decide
  rw [if_pos yielded, if_pos (by decide), Nat.add_right_cancel_iff] at moved
  show countSlots _ (Function.update v.yielded n .running) = _
  rw [moved]
  cases current : v.currentProcess with
  | none => simp [View.live, View.yielded_eq_states v current]
  | some c =>
      rw [View.yielded_eq_update v current]
      have flipped := countSlots_update (P := (· ≠ ProcessState.terminated)) (t := v.states) c
        .ready
      rw [if_pos (by decide : ProcessState.ready ≠ .terminated)] at flipped
      by_cases term : v.states c = .terminated
      · rw [if_neg (not_not.mpr term)] at flipped
        rw [if_pos ⟨c, rfl, term⟩]
        exact flipped
      · rw [if_pos term, Nat.add_right_cancel_iff] at flipped
        rw [if_neg]
        · exact flipped
        · rintro ⟨_, same, h⟩
          exact term (Option.some.inj same ▸ h)

/-- The counter is the number of slots in use. -/
def View.CountExact (v : View) : Prop := v.processCount.toNat = v.live

/-- From an exact counter, an event leads to an exact counter exactly when it moves both
alike. -/
theorem View.countExact_apply_iff {v : View} {e : Event} (exact : v.CountExact)
    (enabled : e.Enabled v) : (v.apply e).CountExact ↔ e.KeepsCount v := by
  have bound : v.live ≤ 256 := v.live_le
  unfold View.CountExact at exact
  cases e with
  | idle => exact iff_of_true exact trivial
  | taken i counted =>
      have live : _ = v.live + 1 := View.live_taken enabled
      rw [View.CountExact, live, View.apply_taken_processCount]
      cases counted with
      | true =>
          refine iff_of_true ?_ rfl
          rw [if_pos rfl, BitVec.toNat_add, exact, BitVec.toNat_ofNat]
          omega
      | false =>
          refine iff_of_false ?_ Bool.false_ne_true
          rw [if_neg Bool.false_ne_true, exact]
          omega
  | ended i =>
      have live := v.live_ended i
      rw [View.CountExact, View.apply_ended_processCount, BitVec.toNat_sub, exact,
        BitVec.toNat_ofNat]
      split at live
      · rename_i used
        exact iff_of_true (by omega) used
      · rename_i free
        exact iff_of_false (by omega) free
  | dispatched n =>
      have live := View.live_dispatched enabled
      rw [View.CountExact, live, View.apply_dispatched_processCount, exact]
      split
      · rename_i revived
        obtain ⟨c, current, term⟩ := revived
        exact iff_of_false (by omega) fun all => all c current term
      · rename_i none
        exact iff_of_true rfl fun c current term => none ⟨c, current, term⟩

/-- `process_count` is the number of slots whose state is not `Terminated`; so it has not
wrapped and is at most `MAX_PROCESSES`. -/
def CountExact (k : Table μ) : Prop :=
  k.processCount.toNat = countSlots (· ≠ .terminated) k.states ∧
  k.processCount.toNat ≤ MAX_PROCESSES

theorem countExact_iff_view {k : Table μ} : CountExact k ↔ k.view.CountExact :=
  ⟨fun exact => exact.1, fun exact => ⟨exact, exact.le.trans k.view.live_le⟩⟩

/-- A creation that finds a free slot is answered with a page. -/
def CreationKeepsCount (k : Table μ) : Prop :=
  (k.processCount.toNat < MAX_PROCESSES ∧ ∃ i, k.states i = .terminated) →
    (M.allocatePage k.memory).1 ≠ 0#32

/-- The termination of `pid` does not find a slot that is terminated already. -/
def TerminationKeepsCount (pid : Word) (k : Table μ) : Prop :=
  ∀ i, getProcess pid k = some i → k.states i ≠ .terminated

/-- The call moves `process_count` by as much as the number of slots in use. -/
def Op.KeepsCount (k : Table μ) : Op → Prop
  | .createProcess _ => CreationKeepsCount M k
  | .terminateProcess pid => TerminationKeepsCount pid k
  | .schedule cpu => (Op.schedule cpu).YieldsLive k
  | .sysExit _ =>
      ∀ c, k.currentProcess = some c → TerminationKeepsCount (k.processes c).pid k
  | .sysFork => k.currentProcess ≠ none → CreationKeepsCount M k

theorem keepsCount_creation (k : Table μ) :
    (creation M k).KeepsCount k.view ↔ CreationKeepsCount M k := by
  have finds := exists_takenSlot (k := k)
  unfold creation CreationKeepsCount
  rw [← finds]
  cases takenSlot k with
  | none => exact iff_of_true trivial fun found => nomatch found
  | some i =>
      show decide _ = true ↔ _
      rw [decide_eq_true_eq]
      exact ⟨fun page _ => page, fun page => page ⟨i, rfl⟩⟩

theorem keepsCount_termination (pid : Word) (k : Table μ) :
    (termination pid k).KeepsCount k.view ↔ TerminationKeepsCount pid k := by
  unfold termination TerminationKeepsCount
  cases getProcess pid k with
  | none => exact iff_of_true trivial fun _ found => nomatch found
  | some i =>
      refine ⟨fun used j found => ?_, fun used => used i rfl⟩
      rw [← Option.some.inj found]
      exact used

theorem keepsCount_event (k : Table μ) (op : Op) :
    (event M k op).KeepsCount k.view ↔ op.KeepsCount M k := by
  cases op with
  | createProcess entryPoint => exact keepsCount_creation M k
  | terminateProcess pid => exact keepsCount_termination pid k
  | schedule cpu =>
      refine Iff.trans ?_ (yieldsLive_event M k (.schedule cpu))
      unfold event
      cases nextSlot k <;> exact Iff.rfl
  | sysExit status =>
      unfold event Op.KeepsCount
      cases k.currentProcess with
      | none => exact iff_of_true trivial fun _ found => nomatch found
      | some c =>
          refine (keepsCount_termination (k.processes c).pid k).trans
            ⟨fun keeps d found => ?_, fun keeps => keeps c rfl⟩
          rw [← Option.some.inj found]
          exact keeps
  | sysFork =>
      unfold event Op.KeepsCount
      cases k.currentProcess with
      | none => exact iff_of_true trivial fun some => absurd rfl some
      | some c =>
          exact (keepsCount_creation M k).trans
            ⟨fun keeps _ => keeps, fun keeps => keeps (Option.some_ne_none c)⟩

/-- **`process_count` is exact** in every state of a run from the empty table exactly when
each creation that finds a free slot is answered with a page, each termination finds a slot
in use, and no switch is made away from a terminated process. -/
theorem countExact_iff (k : Table μ) (ops : List Op) :
    (∀ pre, pre <+: ops → CountExact (run (step M) (emptyTable k) pre)) ↔
    EveryStep (step M) (fun k op => op.KeepsCount M k) (emptyTable k) ops := by
  have start : (emptyTable k).view.CountExact := by
    show 0 = countSlots _ _
    refine (Finset.card_eq_zero.mpr (Finset.filter_eq_empty_iff.mpr fun i _ => ?_)).symm
    exact not_not.mpr rfl
  have equiv : ∀ (k : Table μ) op, k.view.CountExact →
      ((step M k op).view.CountExact ↔ op.KeepsCount M k) := fun k op exact => by
    rw [view_step]
    exact (View.countExact_apply_iff exact (event_enabled M k op)).trans (keepsCount_event M k op)
  simp only [countExact_iff_view]
  rw [everyState_iff (P := fun k : Table μ => k.view.CountExact), and_iff_right start]
  exact everyStep_congr (fun k op exact keeps => (equiv k op exact).mpr keeps) equiv start ops

/-- Terminating pid 0 in the empty table finds the free slot 0 and takes the counter below
zero. -/
theorem countExact_fails :
    ¬ ∀ ops, CountExact (run (step onePage) (emptyTable blank) ops) := by
  intro exact
  exact absurd (exact [.terminateProcess 0#32]).2 (by decide +kernel)

/-! ### A table that `init` has cleared -/

/-- A use of the table after `init`: creations, and terminations of pids that a creation
returned and that have not been terminated yet. The list holds those pids. -/
inductive Session : Table μ → List Word → Prop where
  | init (k : Table μ) : Session (init k) []
  | create {k : Table μ} {live : List Word} (entryPoint : Word) : Session k live →
      Session (createProcess M entryPoint k).2
        (if (createProcess M entryPoint k).1 = 0#32 then live
         else (createProcess M entryPoint k).1 :: live)
  | terminate {k : Table μ} {live : List Word} (pid : Word) : Session k live → pid ∈ live →
      Session (terminateProcess pid k).2 (live.erase pid)

/-- A table without free slots gives none to a creation. -/
theorem takenSlot_eq_none {k : Table μ} (full : ∀ i, k.states i ≠ .terminated) :
    takenSlot k = none := by
  unfold takenSlot
  split
  · rfl
  · exact firstSlot_eq_none.mpr full

theorem session_after_init {k : Table μ} {live : List Word} (session : Session M k live) :
    live = [] ∧ ∀ i, k.states i ≠ .terminated := by
  induction session with
  | init k => exact ⟨rfl, fun _ => by show Process.zeroed.state ≠ _; decide⟩
  | create entryPoint _ ih =>
      obtain ⟨rfl, full⟩ := ih
      rw [createProcess_of_none M entryPoint (takenSlot_eq_none full)]
      exact ⟨rfl, full⟩
  | terminate pid _ mem ih =>
      rw [ih.1] at mem
      cases mem

/-- **After `init` no process can be created**: in every use of the table fewer than
`MAX_PROCESSES` processes are alive, namely none, and `create_process` returns 0. -/
theorem createProcess_after_init {k : Table μ} {live : List Word} (session : Session M k live)
    (entryPoint : Word) :
    live.length < MAX_PROCESSES ∧ (createProcess M entryPoint k).1 = 0#32 := by
  obtain ⟨rfl, full⟩ := session_after_init M session
  rw [createProcess_of_none M entryPoint (takenSlot_eq_none full)]
  exact ⟨by decide, rfl⟩

theorem createProcess_after_init_blank :
    ([] : List Word).length < MAX_PROCESSES ∧
    (createProcess onePage 0x100#32 (init blank)).1 = 0#32 :=
  createProcess_after_init onePage (.init blank) 0x100#32

/-- The first creation after `init` fails. -/
theorem init_not_usable :
    ¬ ∀ (k : Table Unit) (live : List Word) (entryPoint : Word), Session onePage k live →
      entryPoint ≠ 0#32 → live.length < MAX_PROCESSES →
      (createProcess onePage entryPoint k).1 ≠ 0#32 := by
  intro usable
  exact usable (init blank) [] 0x100#32 (.init blank) (by decide) (by decide) (by decide +kernel)

end ModernOS.ProcessTable
