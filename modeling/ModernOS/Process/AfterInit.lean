import ModernOS.Process.Lifecycle
import ModernOS.Process.Pids

/-!
What an initialised table can do.

`init` leaves every slot in the state `Created` and with the pid 0. No slot is free for a creation
and none is ready for the scheduler, so that a call does nothing (`Inert`). There is one way out:
`terminate_process(0)` finds slot 0, again and again, and each time takes one from a counter that
was 0. A creation is possible once the counter has come all the way down to 255
(`init_inert_iff`).
-/

namespace ModernOS.ProcessTable

open SlotTable Transition

variable {μ : Type} (M : PageAllocator μ)

/-- The call does nothing and says so. A `terminate_process(0)` is not looked at. -/
def Inert (k : Table μ) : Op → Prop
  | .createProcess entryPoint => createProcess M entryPoint k = (0#32, k)
  | .terminateProcess pid => pid ≠ 0#32 → terminateProcess pid k = (false, k)
  | .schedule cpu => schedule cpu k = (k, cpu)
  | .sysExit status => sysExit status k = k
  | .sysFork => sysFork M k = (-1#32, k)

/-- After so many calls of `terminate_process(0)` there is no creation: none has marked slot 0, or
the counter is not below the limit. -/
def Blocked (n : ℕ) : Prop := n = 0 ∨ MAX_PROCESSES ≤ (-BitVec.ofNat 32 n : Word).toNat

instance (n : ℕ) : Decidable (Blocked n) :=
  inferInstanceAs (Decidable (n = 0 ∨ MAX_PROCESSES ≤ (-BitVec.ofNat 32 n : Word).toNat))

/-- A table without processes, after `n` calls of `terminate_process(0)`. -/
structure Unborn (n : ℕ) (k : Table μ) : Prop where
  first : k.states 0 = if n = 0 then .created else .terminated
  states : ∀ i, i ≠ 0 → k.states i = .created
  pids : ∀ i, (k.processes i).pid = 0#32
  currentProcess : k.currentProcess = none
  processCount : k.processCount = -BitVec.ofNat 32 n

theorem unborn_init (k : Table μ) : Unborn 0 (init k) :=
  ⟨rfl, fun _ _ => rfl, fun _ => rfl, rfl, rfl⟩

/-- The calls of `terminate_process(0)` among these. -/
def endsZero (ops : List Op) : ℕ := ops.count (.terminateProcess 0#32)

/-! ### One call -/

section Call

variable {M} {n : ℕ} {k : Table μ}

theorem Unborn.takenSlot_eq_none_iff (unborn : Unborn n k) : takenSlot k = none ↔ Blocked n := by
  have first := unborn.first
  constructor
  · intro none
    by_contra open_
    obtain ⟨some, low⟩ := not_or.mp open_
    rw [if_neg some] at first
    rw [not_le, ← unborn.processCount] at low
    obtain ⟨i, taken⟩ := exists_takenSlot.mpr ⟨low, 0, first⟩
    rw [none] at taken
    cases taken
  · rintro (rfl | high)
    · refine takenSlot_eq_none fun i => ?_
      by_cases zero : i = 0
      · rw [zero, first]
        simp
      · rw [unborn.states i zero]
        simp
    · rw [← unborn.processCount] at high
      rw [takenSlot, if_pos high]

theorem Unborn.nextSlot (unborn : Unborn n k) : nextSlot k = none := by
  cases next : ProcessTable.nextSlot k with
  | none => rfl
  | some i =>
      have ready := ready_of_nextSlot next
      by_cases zero : i = 0
      · rw [zero, unborn.first] at ready
        split at ready <;> cases ready
      · rw [unborn.states i zero] at ready
        cases ready

theorem Unborn.getProcess_of_ne (unborn : Unborn n k) {pid : Word} (other : pid ≠ 0#32) :
    getProcess pid k = none :=
  getProcess_eq_none.mpr fun i => (unborn.pids i).trans_ne other.symm

theorem Unborn.getProcess_zero (unborn : Unborn n k) : getProcess 0#32 k = some 0 :=
  getProcess_eq_some.mpr ⟨unborn.pids 0, fun _ below => absurd below (Fin.not_lt_zero _)⟩

/-- Only a creation can do something, and it does when it is not blocked. -/
theorem Unborn.inert_iff (unborn : Unborn n k) (op : Op) :
    Inert M k op ↔ ∀ entryPoint, op = .createProcess entryPoint → Blocked n := by
  cases op with
  | createProcess entryPoint =>
      constructor
      · intro inert _ _
        rw [← unborn.takenSlot_eq_none_iff]
        cases taken : takenSlot k with
        | none => rfl
        | some i =>
            -- A creation that takes a slot moves the counter of the pids.
            have moved := (createProcess_of_some M entryPoint taken).nextPid
            rw [show createProcess M entryPoint k = (0#32, k) from inert] at moved
            exact absurd moved (by simp)
      · intro blocked
        exact createProcess_of_none M entryPoint
          (unborn.takenSlot_eq_none_iff.mpr (blocked entryPoint rfl))
  | terminateProcess pid =>
      refine iff_of_true (fun other => ?_) fun _ same => by cases same
      rw [terminateProcess, unborn.getProcess_of_ne other]
  | schedule cpu => exact iff_of_true (schedule_of_none cpu unborn.nextSlot) fun _ same => by cases same
  | sysExit status =>
      refine iff_of_true ?_ fun _ same => by cases same
      show sysExit status k = k
      rw [sysExit, unborn.currentProcess]
  | sysFork =>
      refine iff_of_true ?_ fun _ same => by cases same
      show sysFork M k = (-1#32, k)
      rw [sysFork, unborn.currentProcess]

theorem Unborn.terminate (unborn : Unborn n k) : Unborn (n + 1) (terminateProcess 0#32 k).2 := by
  rw [terminateProcess_of_some unborn.getProcess_zero]
  constructor
  · simp [Table.states]
  · intro i other
    simpa [Table.states, Table.modify, other] using unborn.states i other
  · intro i
    by_cases zero : i = 0
    · simpa [Table.modify, zero] using unborn.pids 0
    · simpa [Table.modify, zero] using unborn.pids i
  · exact unborn.currentProcess
  · show k.processCount - 1#32 = _
    rw [unborn.processCount, BitVec.ofNat_add, BitVec.neg_add, BitVec.sub_eq_add_neg]

/-- An inert call leaves a table without processes. -/
theorem Unborn.step (unborn : Unborn n k) {op : Op} (inert : Inert M k op) :
    Unborn (n + endsZero [op]) (step M k op) := by
  cases op with
  | createProcess entryPoint =>
      show Unborn n (createProcess M entryPoint k).2
      rw [show createProcess M entryPoint k = (0#32, k) from inert]
      exact unborn
  | terminateProcess pid =>
      by_cases zero : pid = 0#32
      · rw [zero]
        exact unborn.terminate
      · have counted : endsZero [.terminateProcess pid] = 0 := by simp [endsZero, zero]
        show Unborn _ (terminateProcess pid k).2
        rw [counted, show terminateProcess pid k = (false, k) from inert zero]
        exact unborn
  | schedule cpu =>
      show Unborn n (schedule cpu k).1
      rw [show schedule cpu k = (k, cpu) from inert]
      exact unborn
  | sysExit status =>
      show Unborn n (sysExit status k)
      rw [show sysExit status k = k from inert]
      exact unborn
  | sysFork =>
      show Unborn n (sysFork M k).2
      rw [show sysFork M k = (-1#32, k) from inert]
      exact unborn

end Call

/-! ### Runs -/

theorem everyStep_inert_iff {n : ℕ} {k : Table μ} (unborn : Unborn n k) (ops : List Op) :
    EveryStep (step M) (Inert M) k ops ↔
      ∀ (pre : List Op) entryPoint, pre ++ [Op.createProcess entryPoint] <+: ops →
        Blocked (n + endsZero pre) := by
  induction ops generalizing n k with
  | nil => exact iff_of_true trivial fun pre _ sub => absurd (List.prefix_nil.mp sub) (by simp)
  | cons op ops ih =>
      have count (pre : List Op) : n + endsZero (op :: pre) = n + endsZero [op] + endsZero pre := by
        rw [endsZero, endsZero, endsZero, ← List.singleton_append, List.count_append, Nat.add_assoc]
      constructor
      · rintro ⟨inert, rest⟩ pre entryPoint sub
        cases pre with
        | nil =>
            have same := (List.cons_prefix_cons.mp sub).1
            exact (unborn.inert_iff op).mp inert entryPoint same.symm
        | cons first pre =>
            obtain ⟨rfl, remaining⟩ := List.cons_prefix_cons.mp sub
            rw [count]
            exact (ih (unborn.step inert)).mp rest pre entryPoint remaining
      · intro blocked
        have inert : Inert M k op := (unborn.inert_iff op).mpr fun entryPoint same =>
          blocked [] entryPoint <| by
            rw [same]
            exact List.cons_prefix_cons.mpr ⟨rfl, List.nil_prefix⟩
        refine ⟨inert, (ih (unborn.step inert)).mpr fun pre entryPoint sub => ?_⟩
        rw [← count]
        exact blocked (op :: pre) entryPoint (List.cons_prefix_cons.mpr ⟨rfl, sub⟩)

/-- **After `init` every call is inert**, whatever the allocator answers: no process is created and
none is dispatched. The exception is a creation after so many calls of `terminate_process(0)` that
they have brought the counter, from 0 downwards, below the limit. -/
theorem init_inert_iff (k : Table μ) (ops : List Op) :
    EveryStep (step M) (Inert M) (init k) ops ↔
      ∀ (pre : List Op) entryPoint, pre ++ [Op.createProcess entryPoint] <+: ops →
        Blocked (endsZero pre) := by
  rw [everyStep_inert_iff M (unborn_init k)]
  simp only [Nat.zero_add]

/-- The least number of such calls is 2^32 - 255. -/
theorem blocked_of_le {n : ℕ} (few : n ≤ 2 ^ 32 - 256) : Blocked n := by
  rcases Nat.eq_zero_or_pos n with zero | some
  · exact Or.inl zero
  · right
    rw [BitVec.toNat_neg, BitVec.toNat_ofNat, MAX_PROCESSES]
    omega

example : ¬ Blocked (2 ^ 32 - 255) := by decide

end ModernOS.ProcessTable
