import ModernOS.Lib.Ownership
import ModernOS.Lib.Transition

/-!
The handles of `include/process.h`.

A `ProcessHandle` owns a process until `release` or its destructor, and a move takes the process to
another handle. The move assignment does not look at what its target owns, so a process whose
handle is assigned to is left without an owner; every other operation keeps exactly one owner for
each process (`ownedOnce_iff`).
-/

namespace ModernOS.Process.Handle

open Transition Ownership

abbrev ProcessId := BitVec 32

abbrev INVALID_PID : ProcessId := 0#32

structure ProcessHandle where
  pid : ProcessId
  ownsProcess : Bool
  deriving DecidableEq, Repr

namespace ProcessHandle

/-- What a move leaves behind. -/
def moved : ProcessHandle := ⟨INVALID_PID, false⟩

/-- The process of the handle, if it owns one. -/
def owned (handle : ProcessHandle) : Option ProcessId :=
  if handle.ownsProcess = true ∧ handle.pid ≠ INVALID_PID then some handle.pid else none

@[simp] theorem moved_owned : moved.owned = none := rfl

/-- `release` returns the pid, which the handle keeps. -/
def release (handle : ProcessHandle) : ProcessId × ProcessHandle :=
  (handle.pid, { handle with ownsProcess := false })

end ProcessHandle

/-- The handles that exist, and which processes have been given to a handle and have been released
or destroyed with one. -/
structure State (ι : Type*) where
  objects : ι → Option ProcessHandle
  started : List ProcessId
  ended : List ProcessId

/-- What is done with handles. -/
inductive Op (ι : Type*) where
  | construct (i : ι) (pid : ProcessId)
  | moveConstruct (target source : ι)
  | moveAssign (target source : ι)
  | release (i : ι)
  | destroy (i : ι)

variable {ι : Type*} [DecidableEq ι]

/-- The target gets the members of the source. -/
def moveTo (s : State ι) (target source : ι) : State ι :=
  match s.objects source with
  | some other =>
      { s with
        objects :=
          Function.update (Function.update s.objects target (some other)) source (some .moved) }
  | none => s

def step (s : State ι) : Op ι → State ι
  | .construct i pid =>
      { s with
        objects := Function.update s.objects i (some ⟨pid, true⟩)
        started := pid :: s.started }
  | .moveConstruct target source => moveTo s target source
  | .moveAssign target source =>
      -- `if (this != &other)`
      if target = source then s else moveTo s target source
  | .release i =>
      match s.objects i with
      | some handle =>
          { s with
            objects := Function.update s.objects i (some handle.release.2)
            ended := handle.owned.toList ++ s.ended }
      | none => s
  | .destroy i =>
      match s.objects i with
      | some handle =>
          { s with
            objects := Function.update s.objects i none
            ended := handle.owned.toList ++ s.ended }
      | none => s

/-- No handle exists. -/
def initial : State ι := ⟨fun _ => none, [], []⟩

/-- The operation is on handles that exist, and a handle is made of a process that is new. -/
def Allowed (s : State ι) : Op ι → Prop
  | .construct i pid => s.objects i = none ∧ pid ≠ INVALID_PID ∧ pid ∉ s.started
  | .moveConstruct target source => s.objects target = none ∧ s.objects source ≠ none
  | .moveAssign target source => s.objects target ≠ none ∧ s.objects source ≠ none
  | .release i | .destroy i => s.objects i ≠ none

/-- The process that a handle owns. -/
def heldBy (s : State ι) : ι → Option ProcessId := (fun object => object.bind (·.owned)) ∘ s.objects

/-- A process that has been given to a handle and has not been released or destroyed has exactly
one owner. -/
def OwnedOnce (s : State ι) : Prop :=
  ∀ pid ∈ s.started, pid ∉ s.ended → ∃! i, heldBy s i = some pid

/-- A handle that owns a process is assigned to. -/
def Overwrites (s : State ι) : Op ι → Prop
  | .moveAssign target source => target ≠ source ∧ heldBy s target ≠ none
  | _ => False

/-- The processes that have started and not ended. -/
def running (s : State ι) : Set ProcessId := {pid | pid ∈ s.started ∧ pid ∉ s.ended}

/-- The handles own the running processes, each of them once. -/
structure Inv (s : State ι) : Prop where
  owners : OwnsExactly (heldBy s) (running s)
  started : ∀ pid ∈ s.ended, pid ∈ s.started

section Step

variable {s : State ι}

omit [DecidableEq ι] in
theorem Inv.ownedOnce (inv : Inv s) : OwnedOnce s := fun _ started alive =>
  inv.owners.existsUnique ⟨started, alive⟩

omit [DecidableEq ι] in
theorem inv_initial : Inv (initial : State ι) where
  owners := by
    have none : running (initial : State ι) = ∅ :=
      Set.eq_empty_of_forall_notMem fun _ held => List.not_mem_nil held.1
    rw [none]
    exact ownsExactly_empty
  started _ ended := absurd ended List.not_mem_nil

theorem heldBy_update {objects : ι → Option ProcessHandle} {i : ι} {object : Option ProcessHandle}
    {started ended : List ProcessId} :
    heldBy ⟨Function.update objects i object, started, ended⟩ =
      Function.update (heldBy ⟨objects, started, ended⟩) i (object.bind (·.owned)) :=
  Function.comp_update ..

omit [DecidableEq ι] in
theorem heldBy_eq {i : ι} {object : Option ProcessHandle} (here : s.objects i = object) :
    heldBy s i = object.bind (·.owned) := congrArg (Option.bind · _) here

/-- A new handle gets a new process. -/
theorem Inv.construct (inv : Inv s) {i : ι} {pid : ProcessId}
    (allowed : Allowed s (.construct i pid)) : Inv (step s (.construct i pid)) := by
  obtain ⟨vacant, valid, new⟩ := allowed
  have own : (ProcessHandle.mk pid true).owned = some pid := if_pos ⟨rfl, valid⟩
  have held : heldBy (step s (.construct i pid)) = Function.update (heldBy s) i (some pid) := by
    rw [← own]
    exact heldBy_update
  have runs : running (step s (.construct i pid)) = insert pid (running s) := by
    have alive : pid ∉ s.ended := fun ended => new (inv.started pid ended)
    ext pid'
    simp only [running, step, List.mem_cons, Set.mem_ofPred_eq, Set.mem_insert_iff, or_and_right]
    refine or_congr_left (and_iff_left_of_imp ?_)
    rintro rfl
    exact alive
  refine ⟨?_, fun pid' ended => List.mem_cons_of_mem _ (inv.started pid' ended)⟩
  rw [held, runs]
  exact inv.owners.give (heldBy_eq vacant) fun alive => new alive.1

@[simp] theorem moveTo_started (target source : ι) :
    (moveTo s target source).started = s.started := by
  unfold moveTo
  split <;> rfl

@[simp] theorem moveTo_ended (target source : ι) :
    (moveTo s target source).ended = s.ended := by
  unfold moveTo
  split <;> rfl

@[simp] theorem running_moveTo (target source : ι) :
    running (moveTo s target source) = running s := by
  simp [running]

theorem heldBy_moveTo (target : ι) {source : ι} (live : s.objects source ≠ none) :
    heldBy (moveTo s target source) =
      Function.update (Function.update (heldBy s) target (heldBy s source)) source none := by
  obtain ⟨handle, here⟩ := Option.ne_none_iff_exists'.mp live
  have left : (some ProcessHandle.moved).bind (·.owned) = none := rfl
  rw [moveTo, here, heldBy_update, heldBy_update, left, heldBy_eq here]

/-- A handle that owns nothing takes over the process of another one. -/
theorem Inv.move (inv : Inv s) {target source : ι} (other : target ≠ source)
    (live : s.objects source ≠ none) (vacant : heldBy s target = none) :
    Inv (moveTo s target source) := by
  constructor
  · rw [heldBy_moveTo target live, running_moveTo]
    exact inv.owners.move_to_vacant other vacant
  · simpa using inv.started

/-- The process that the target of a move has owned is running and has no owner. -/
theorem Inv.not_ownedOnce_moveTo (inv : Inv s) {target source : ι} (other : target ≠ source)
    (live : s.objects source ≠ none) (owns : heldBy s target ≠ none) :
    ¬ OwnedOnce (moveTo s target source) := by
  obtain ⟨pid, held⟩ := Option.ne_none_iff_exists'.mp owns
  obtain ⟨started, alive⟩ := inv.owners.mem held
  intro once
  obtain ⟨i, owner, -⟩ := once pid (by simpa using started) (by simpa using alive)
  rw [heldBy_moveTo target live] at owner
  exact ((inv.owners.move other).mem owner).2 held

/-- A handle gives up its process. -/
theorem Inv.give_up (inv : Inv s) {i : ι} {handle : ProcessHandle}
    (live : s.objects i = some handle) {object : Option ProcessHandle}
    (empty : object.bind (·.owned) = none) :
    Inv ⟨Function.update s.objects i object, s.started, handle.owned.toList ++ s.ended⟩ := by
  have held : heldBy s i = handle.owned := heldBy_eq live
  refine ⟨?_, fun pid ended => ?_⟩
  · have runs : running ⟨Function.update s.objects i object, s.started,
        handle.owned.toList ++ s.ended⟩ = {pid ∈ running s | heldBy s i ≠ some pid} := by
      ext pid
      simp [running, held, and_assoc, and_comm]
    rw [heldBy_update, empty, runs]
    exact inv.owners.drop i
  · rcases List.mem_append.mp ended with now | before
    · exact (inv.owners.mem (held.trans (Option.mem_toList.mp now))).1
    · exact inv.started pid before

theorem step_inv (inv : Inv s) {op : Op ι} (allowed : Allowed s op) (kept : ¬ Overwrites s op) :
    Inv (step s op) := by
  cases op with
  | construct i pid => exact inv.construct allowed
  | moveConstruct target source =>
      obtain ⟨vacant, live⟩ := allowed
      have other := ne_of_vacant vacant live
      exact inv.move other live (heldBy_eq vacant)
  | moveAssign target source =>
      rw [step]
      split
      · exact inv
      · rename_i other
        exact inv.move other allowed.2 (not_not.mp fun held => kept ⟨other, held⟩)
  | release i =>
      obtain ⟨handle, live⟩ := Option.ne_none_iff_exists'.mp allowed
      rw [step, live]
      exact inv.give_up live rfl
  | destroy i =>
      obtain ⟨handle, live⟩ := Option.ne_none_iff_exists'.mp allowed
      rw [step, live]
      exact inv.give_up live rfl

theorem not_ownedOnce_step (inv : Inv s) {op : Op ι} (allowed : Allowed s op)
    (overwrites : Overwrites s op) : ¬ OwnedOnce (step s op) := by
  cases op with
  | moveAssign target source =>
      obtain ⟨other, owns⟩ := overwrites
      rw [step, if_neg other]
      exact inv.not_ownedOnce_moveTo other allowed.2 owns
  | construct | moveConstruct | release | destroy => exact overwrites.elim

/-- At each step the ownership stays as it should exactly when no owner is assigned to. -/
theorem ownedOnce_step_iff (inv : Inv s) (op : Op ι) :
    Allowed s op ∧ OwnedOnce (step s op) ↔ Allowed s op ∧ ¬ Overwrites s op := by
  refine and_congr_right fun allowed => ⟨fun once overwrites => ?_, fun kept => ?_⟩
  · exact not_ownedOnce_step inv allowed overwrites once
  · exact (step_inv inv allowed kept).ownedOnce

end Step

/-- In every run, each process has exactly one owner until it is released or destroyed with its
handle, exactly when no handle that owns a process is assigned to. -/
theorem ownedOnce_iff {ops : List (Op ι)} (allowed : EveryStep step Allowed initial ops) :
    (∀ pre, pre <+: ops → OwnedOnce (run step initial pre)) ↔
      EveryStep step (fun s op => ¬ Overwrites s op) initial ops := by
  have preserved (s : State ι) (op : Op ι) (inv : Inv s)
      (guard : Allowed s op ∧ ¬ Overwrites s op) : Inv (step s op) :=
    step_inv inv guard.1 guard.2
  have along := everyStep_congr preserved (fun _ op inv => ownedOnce_step_iff inv op)
    inv_initial ops
  rw [everyStep_and, everyStep_and, and_congr_right_iff] at along
  rw [everyState_iff, along allowed]
  exact and_iff_right inv_initial.ownedOnce

/-- The process 5 has no owner after its handle has been assigned to. -/
theorem not_ownedOnce_of_moveAssign :
    EveryStep step Allowed (initial : State Bool)
        [.construct false 5#32, .construct true 6#32, .moveAssign false true] ∧
      ¬ ∀ pre, pre <+: [.construct false 5#32, .construct true 6#32, .moveAssign false true] →
        OwnedOnce (run step (initial : State Bool) pre) := by
  constructor
  · simp [EveryStep, Allowed, step, initial, INVALID_PID]
  · intro once
    obtain ⟨i, owner, -⟩ := once _ List.prefix_rfl 5#32 (by decide) (by decide)
    cases i with
    | false => exact absurd owner (by decide)
    | true => exact absurd owner (by decide)

/-- Two handles change their processes through a third one. -/
def swap : List (Op ℕ) :=
  [.construct 0 5#32, .construct 1 6#32, .moveConstruct 2 0, .moveAssign 0 1, .moveAssign 1 2,
    .moveAssign 1 1, .release 0]

theorem ownedOnce_swap :
    OwnedOnce (run step initial swap) ∧ 5#32 ∉ (run step (initial : State ℕ) swap).ended := by
  have allowed : EveryStep step Allowed initial swap := by
    simp [swap, EveryStep, Allowed, step, initial, moveTo, INVALID_PID]
  have owned := (ownedOnce_iff allowed).mpr (by
    simp [swap, EveryStep, Overwrites, step, initial, moveTo, heldBy])
  exact ⟨owned swap List.prefix_rfl, by decide⟩

end ModernOS.Process.Handle
