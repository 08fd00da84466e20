import ModernOS.Process.Creation

/-!
The pid 0.

`create_process` returns it for a failure, and the slots that no creation has taken hold it. So it
names no process in a state that calls reach exactly when every slot has been taken, the last time
with the counter at another number, and a fork will find the counter at a positive one
(`zeroNamesNone_iff`).
-/

namespace ModernOS.ProcessTable

open SlotTable Transition

variable {μ : Type} (M : PageAllocator μ)

/-- A fork returns -1 if the creation it calls returns 0, and otherwise a positive number, the
pid of a process that was not there before. -/
def ForkReports (k : Table μ) : Prop :=
  if (createProcess M 0#32 k).1 = 0#32 then (sysFork M k).1 = -1#32
  else 0 < (sysFork M k).1.toInt ∧
    ∃ i, ¬ Live k i ∧ Live (sysFork M k).2 i ∧ ((sysFork M k).2.processes i).pid = (sysFork M k).1

/-- The pid 0 names no process. -/
structure ZeroNamesNone (k : Table μ) : Prop where
  lookup : getProcess 0#32 k = none
  terminate : terminateProcess 0#32 k = (false, k)
  allocate : ∀ size, allocateProcessMemory M 0#32 size k = (false, k)
  fork : k.currentProcess ≠ none → ForkReports M k

/-- If there is a current process and a slot for its child, the counter is not zero, and not past
the largest `int` if there is memory for the child. -/
def ForkNumbered (k : Table μ) : Prop :=
  k.currentProcess ≠ none → (∃ i, takenSlot k = some i) →
    k.nextPid ≠ 0#32 ∧ ((M.allocatePage k.memory).1 ≠ 0#32 → 0 < k.nextPid.toInt)

/-- Each slot has been taken, and the creation that took it last found the counter at a number
other than 0; and a fork will find a positive one. -/
structure ZeroUnused (w : Tracked μ) : Prop where
  taken : ∀ i, ∃ f, w.filled i = some f ∧ f.before.nextPid ≠ 0#32
  fork : ForkNumbered M w.table

/-! ### One state -/

section Fork

variable {M} {k : Table μ} {c : Slot}

/-- The result of a fork is that of the creation, if some slot has it as its pid. -/
theorem sysFork_fst (current : k.currentProcess = some c) :
    (sysFork M k).1 =
      if getProcess (createProcess M 0#32 k).1 (createProcess M 0#32 k).2 = none then -1#32
      else (createProcess M 0#32 k).1 := by
  rw [sysFork, current]
  dsimp only
  cases found : getProcess (createProcess M 0#32 k).1 (createProcess M 0#32 k).2 with
  | none => rfl
  | some child => exact (getProcess_eq_some.mp found).1

/-- A fork whose creation takes slot `i`. -/
theorem forkReports_of_some (current : k.currentProcess = some c) {i : Slot}
    (taken : takenSlot k = some i) (pids : ∀ j, (k.processes j).pid ≠ 0#32) :
    ForkReports M k ↔
      k.nextPid ≠ 0#32 ∧ ((M.allocatePage k.memory).1 ≠ 0#32 → 0 < k.nextPid.toInt) := by
  have created := createProcess_of_some M 0#32 taken
  have returns := sysFork_fst (M := M) current
  rw [ForkReports]
  split
  · rename_i zero
    have unnamed : getProcess 0#32 (createProcess M 0#32 k).2 = none ↔ k.nextPid ≠ 0#32 := by
      rw [getProcess_eq_none]
      constructor
      · intro none
        exact created.pid_self ▸ none i
      · intro nonzero j
        by_cases same : j = i
        · rw [same, created.pid_self]
          exact nonzero
        · rw [created.pid_of_ne same]
          exact pids j
    rw [returns, zero, ite_eq_left_iff, unnamed]
    constructor
    · intro reports
      have nonzero : k.nextPid ≠ 0#32 := fun named =>
        absurd (reports (not_not.mpr named)) (by decide)
      have null := (created.returns_zero_iff.mp zero).resolve_right nonzero
      exact ⟨nonzero, fun page => absurd null page⟩
    · rintro ⟨nonzero, -⟩ named
      exact absurd nonzero named
  · rename_i success
    obtain ⟨page, nonzero⟩ := created.returns_ne_zero_iff.mp success
    have outcome := created.outcome
    rw [if_pos page] at outcome
    have named : getProcess (createProcess M 0#32 k).1 (createProcess M 0#32 k).2 ≠ none := by
      rw [outcome.1]
      exact fun none => getProcess_eq_none.mp none i created.pid_self
    rw [returns, if_neg named, outcome.1, sysFork_snd M current]
    constructor
    · rintro ⟨positive, -⟩
      exact ⟨nonzero, fun _ => positive⟩
    · rintro ⟨-, positive⟩
      exact ⟨positive page, i, not_live_takenSlot taken, created.live_self, created.pid_self⟩

/-- The pid 0 names no process in a table that has it in no slot, if a fork does not give it. -/
theorem zeroNamesNone_iff_pids :
    ZeroNamesNone M k ↔ (∀ i, (k.processes i).pid ≠ 0#32) ∧ ForkNumbered M k := by
  have fork_iff (pids : ∀ i, (k.processes i).pid ≠ 0#32) :
      (k.currentProcess ≠ none → ForkReports M k) ↔ ForkNumbered M k := by
    refine imp_congr_right fun some_current => ?_
    obtain ⟨c, current⟩ := Option.ne_none_iff_exists'.mp some_current
    cases taken : takenSlot k with
    | none =>
        refine iff_of_true ?_ fun found => nomatch found
        rw [ForkReports, sysFork_fst current, createProcess_of_none M 0#32 taken, if_pos rfl,
          if_pos (getProcess_eq_none.mpr pids)]
    | some i =>
        rw [forkReports_of_some current taken pids]
        exact ⟨fun reports _ => reports, fun reports => reports ⟨i, rfl⟩⟩
  constructor
  · rintro ⟨lookup, -, -, fork⟩
    have pids := getProcess_eq_none.mp lookup
    exact ⟨pids, (fork_iff pids).mp fork⟩
  · rintro ⟨pids, next⟩
    have lookup := getProcess_eq_none.mpr pids
    refine ⟨lookup, ?_, fun size => ?_, (fork_iff pids).mpr next⟩
    · rw [terminateProcess, lookup]
    · rw [allocateProcessMemory, lookup]

end Fork

/-! ### Runs -/

/-- Each record has the pid that the creation that took its slot last gave it, or 0. -/
def PidsTracked (w : Tracked μ) : Prop :=
  ∀ i, (w.table.processes i).pid = (w.filled i).elim 0#32 fun f => f.before.nextPid

theorem pidsTracked_track {w : Tracked μ} (inv : PidsTracked w) (op : Op) :
    PidsTracked (track M w op) := by
  intro i
  rcases track_cases M w op with ⟨keeps, filled⟩ | ⟨entryPoint, j, r, -, created, filled⟩
  · rw [keeps.pid, filled, inv i]
  · rw [filled, Function.update_apply]
    split
    · rename_i same
      rw [same, created.pid_self]
      rfl
    · rename_i other
      rw [created.pid_of_ne other, inv i]

theorem PidsTracked.zeroNamesNone_iff_unused {w : Tracked μ} (inv : PidsTracked w) :
    ZeroNamesNone M w.table ↔ ZeroUnused M w := by
  have numbered (i : Slot) : (w.table.processes i).pid ≠ 0#32 ↔
      ∃ f, w.filled i = some f ∧ f.before.nextPid ≠ 0#32 := by
    rw [inv i]
    cases filled : w.filled i with
    | none =>
        refine iff_of_false (fun zero => zero rfl) ?_
        rintro ⟨f, taken, -⟩
        cases taken
    | some f =>
        constructor
        · intro nonzero
          exact ⟨f, rfl, nonzero⟩
        · rintro ⟨g, same, nonzero⟩
          exact Option.some.inj same ▸ nonzero
  rw [zeroNamesNone_iff_pids, forall_congr' numbered]
  constructor
  · rintro ⟨taken, fork⟩
    exact ⟨taken, fork⟩
  · rintro ⟨taken, fork⟩
    exact ⟨taken, fork⟩

/-- A run from a table with the pid 0 in every slot. -/
theorem zeroNamesNone_run {k : Table μ} (zero : ∀ i, (k.processes i).pid = 0#32) (ops : List Op) :
    ZeroNamesNone M (run (step M) k ops) ↔
      ZeroUnused M (run (track M) ⟨k, fun _ => none⟩ ops) := by
  have table : (run (track M) ⟨k, fun _ => none⟩ ops).table = run (step M) k ops :=
    run_map (f := Tracked.table) (fun _ _ => rfl) _ ops
  have start : PidsTracked ⟨k, fun _ => none⟩ := zero
  have tracked : PidsTracked (run (track M) ⟨k, fun _ => none⟩ ops) :=
    run_invariant (I := PidsTracked) (fun w op inv => pidsTracked_track M inv op) start ops
  rw [← table]
  exact tracked.zeroNamesNone_iff_unused M

/-- **The pid 0 names no process** in a state that calls reach from `init` or from the empty table
exactly when every slot has been taken with the counter at another number, and a fork is given
neither 0 nor a negative one. -/
theorem zeroNamesNone_iff (k : Table μ) (ops : List Op) :
    (ZeroNamesNone M (run (step M) (init k) ops) ↔
      ZeroUnused M (run (track M) ⟨init k, fun _ => none⟩ ops)) ∧
    (ZeroNamesNone M (run (step M) (emptyTable k) ops) ↔
      ZeroUnused M (run (track M) ⟨emptyTable k, fun _ => none⟩ ops)) :=
  ⟨zeroNamesNone_run M (fun _ => rfl) ops, zeroNamesNone_run M (fun _ => rfl) ops⟩

/-- The free slots have the pid 0. -/
theorem zeroNamesNone_fails :
    ¬ ∀ ops, ZeroNamesNone onePage (run (step onePage) (init blank) ops) ∧
      ZeroNamesNone onePage (run (step onePage) (emptyTable blank) ops) := by
  intro names
  exact absurd (names []).2.lookup (by decide +kernel)

end ModernOS.ProcessTable
