import ModernOS.Lib.Coroutine
import ModernOS.Lib.Ownership
import ModernOS.Lib.Transition

/-!
The coroutine tasks of `include/process.h`.

A `ProcessTask` destroys the frame of its coroutine, and a move takes the frame to another task.
That is right when the coroutine suspends at its end (`sound_of_suspends_finally`). The promise type
says `suspend_never` there, so that the frame is gone when the body returns, while the task still
has its handle: everything goes well exactly as long as no body returns (`sound_iff`).

A body returns with `return_value`. It does not throw: `unhandled_exception` ends the program. The
promise type declares `return_void` as well, which the language forbids next to `return_value`; the
rules are those for a promise type without it.
-/

namespace ModernOS.Process.Task

open Transition Ownership Coroutine

/-- The suspensions of `promise_type`. -/
def promiseType : Policy := ⟨.never, .never⟩

structure ProcessTask where
  /-- `none` for a null handle. -/
  handle : Option ℕ
  deriving DecidableEq, Repr

namespace ProcessTask

variable {T : Type*} (task : ProcessTask) (h : Heap T)

/-- `done`. -/
def done : Bool × Heap T :=
  match task.handle with
  | some n => h.isDone n
  | none => (false, h)

/-- `resume`. -/
def resume (policy : Policy) : Heap T :=
  match task.handle with
  | some n =>
      if (h.isDone n).1 then (h.isDone n).2 else (h.isDone n).2.resume policy n
  | none => h

/-- `get_result`. -/
def getResult : Option T × Heap T :=
  match task.handle with
  | some n =>
      if (h.isDone n).1 then (h.isDone n).2.promise n else (none, (h.isDone n).2)
  | none => (none, h)

/-- `if (handle) handle.destroy();` -/
def destroyHandle : Heap T :=
  match task.handle with
  | some n => h.destroy n
  | none => h

end ProcessTask

structure State (ι T : Type*) where
  tasks : ι → Option ProcessTask
  heap : Heap T
  /-- What `get_result` has answered, and what the coroutine of the task had returned. -/
  answers : List (Option T × Option T)

/-- What is done with tasks. -/
inductive Op (ι T : Type*) where
  | call (i : ι) (body : Body T)
  | resume (i : ι)
  | done (i : ι)
  | getResult (i : ι)
  | moveConstruct (target source : ι)
  | moveAssign (target source : ι)
  | destroy (i : ι)

variable {ι T : Type*} [DecidableEq ι]

/-- The handle of the source goes to the target. -/
def moveTo (s : State ι T) (target source : ι) : State ι T :=
  { s with
    tasks := Function.update (Function.update s.tasks target (s.tasks source)) source
      (some ⟨none⟩) }

/-- The frame of the task is destroyed. -/
def destroyFrame (s : State ι T) (i : ι) : State ι T :=
  match s.tasks i with
  | some task => { s with heap := task.destroyHandle s.heap }
  | none => s

def step (policy : Policy) (s : State ι T) : Op ι T → State ι T
  | .call i body =>
      { s with
        tasks := Function.update s.tasks i (some ⟨some s.heap.created⟩)
        heap := s.heap.create policy body }
  | .resume i =>
      match s.tasks i with
      | some task => { s with heap := task.resume s.heap policy }
      | none => s
  | .done i =>
      match s.tasks i with
      | some task => { s with heap := (task.done s.heap).2 }
      | none => s
  | .getResult i =>
      match s.tasks i with
      | some task =>
          { s with
            heap := (task.getResult s.heap).2
            answers :=
              ((task.getResult s.heap).1, task.handle.bind s.heap.returned) :: s.answers }
      | none => s
  | .moveConstruct target source => moveTo s target source
  | .moveAssign target source =>
      -- `if (this != &other)`
      if target = source then s else moveTo (destroyFrame s target) target source
  | .destroy i =>
      let s' := destroyFrame s i
      { s' with tasks := Function.update s'.tasks i none }

/-- No task exists. -/
def initial : State ι T := ⟨fun _ => none, .empty, []⟩

/-- The operation is on tasks that exist. -/
def Allowed (s : State ι T) : Op ι T → Prop
  | .call i _ => s.tasks i = none
  | .moveConstruct target source => s.tasks target = none ∧ s.tasks source ≠ none
  | .moveAssign target source => s.tasks target ≠ none ∧ s.tasks source ≠ none
  | .resume i | .done i | .getResult i | .destroy i => s.tasks i ≠ none

/-- The frame that a task has. -/
def heldBy (s : State ι T) : ι → Option ℕ := (fun object => object.bind (·.handle)) ∘ s.tasks

/-- Nothing undefined has been done on a frame; a result that was asked for after completion is the
value the coroutine has returned; and if no task is left, each frame has been destroyed once. -/
structure Sound (s : State ι T) : Prop where
  noFaults : s.heap.faults = []
  answers : ∀ answer ∈ s.answers, answer.2 ≠ none → answer.1 = answer.2
  destroyedOnce : (∀ i, s.tasks i = none) → ∀ n < s.heap.created, s.heap.destroyed.count n = 1

/-- The part of a body that the operation runs returns. -/
def Returns (policy : Policy) (s : State ι T) : Op ι T → Prop
  | .call _ body => policy.initialSuspend = .never ∧ body 0 ≠ none
  | .resume i => ∃ n, heldBy s i = some n ∧ s.heap.Returns n
  | _ => False

/-- The tasks have the frames that exist, each of them once. -/
structure Inv (s : State ι T) : Prop where
  heap : s.heap.Tracked
  owners : OwnsExactly (heldBy s) s.heap.live
  answers : ∀ answer ∈ s.answers, answer.2 ≠ none → answer.1 = answer.2

/-- Something undefined has been done, or a task has a frame that is gone. -/
def Broken (s : State ι T) : Prop :=
  s.heap.faults ≠ [] ∨ ∃ i n, heldBy s i = some n ∧ n < s.heap.created ∧ n ∉ s.heap.live

section Tasks

variable {s : State ι T} {policy : Policy}

omit [DecidableEq ι] in
theorem inv_initial : Inv (initial : State ι T) where
  heap := Heap.tracked_empty
  owners := by
    have none : (Heap.empty : Heap T).live = ∅ :=
      Set.eq_empty_of_forall_notMem fun _ alive => alive rfl
    exact none.symm ▸ ownsExactly_empty
  answers _ given := absurd given List.not_mem_nil

theorem heldBy_update {tasks : ι → Option ProcessTask} {i : ι} {object : Option ProcessTask}
    {heap : Heap T} {answers : List (Option T × Option T)} :
    heldBy ⟨Function.update tasks i object, heap, answers⟩ =
      Function.update (heldBy ⟨tasks, heap, answers⟩) i (object.bind (·.handle)) :=
  Function.comp_update ..

omit [DecidableEq ι] in
theorem heldBy_eq {i : ι} {object : Option ProcessTask} (here : s.tasks i = object) :
    heldBy s i = object.bind (·.handle) := congrArg (Option.bind · _) here

theorem heldBy_moveTo (target source : ι) :
    heldBy (moveTo s target source) =
      Function.update (Function.update (heldBy s) target (heldBy s source)) source none := by
  rw [moveTo, heldBy_update, heldBy_update]
  rfl

omit [DecidableEq ι] in
theorem Inv.sound (inv : Inv s) : Sound s where
  noFaults := inv.heap.noFaults
  answers := inv.answers
  destroyedOnce gone n before := by
    refine inv.heap.count_destroyed before fun alive => ?_
    obtain ⟨i, held, -⟩ := inv.owners.existsUnique alive
    rw [heldBy_eq (gone i)] at held
    cases held

/-! ### Steps that keep the frames -/

omit [DecidableEq ι] in
/-- The frame of a task exists. -/
theorem Inv.frame (inv : Inv s) {i : ι} {n : ℕ} (held : heldBy s i = some n) :
    ∃ f, s.heap.frames n = some f :=
  Option.ne_none_iff_exists'.mp (inv.owners.mem held)

theorem Inv.call (inv : Inv s) {i : ι} {body : Body T} (vacant : s.tasks i = none)
    (kept : policy.finalSuspend = .always ∨ ¬ Returns policy s (.call i body)) :
    Inv (step policy s (.call i body)) := by
  have keeps : policy.initialSuspend = .always ∨ Heap.Keeps policy (.new body) := by
    rcases kept with final | silent
    · exact .inr (.inl final)
    · cases initial : policy.initialSuspend with
      | always => exact .inl rfl
      | never => exact .inr (.inr (not_not.mp fun returns => silent ⟨initial, returns⟩))
  obtain ⟨tracked, live⟩ := inv.heap.create keeps
  refine ⟨tracked, ?_, inv.answers⟩
  have held : heldBy (step policy s (.call i body)) =
      Function.update (heldBy s) i (some s.heap.created) := heldBy_update
  have new : s.heap.created ∉ s.heap.live := fun alive => (inv.heap.lt_created alive).false
  have owners := inv.owners.give (heldBy_eq vacant) new
  rw [← held, ← live] at owners
  exact owners

omit [DecidableEq ι] in
theorem Inv.isDone (inv : Inv s) {i : ι} {n : ℕ} (held : heldBy s i = some n) :
    (s.heap.isDone n).2 = s.heap := by
  obtain ⟨f, here⟩ := inv.frame held
  rw [Heap.isDone, here]

omit [DecidableEq ι] in
theorem Inv.done (inv : Inv s) {i : ι} {task : ProcessTask} (live : s.tasks i = some task) :
    (task.done s.heap).2 = s.heap := by
  unfold ProcessTask.done
  split
  · rename_i n handle
    exact inv.isDone ((heldBy_eq live).trans handle)
  · rfl

omit [DecidableEq ι] in
/-- A task whose coroutine is not done resumes it. -/
theorem Inv.resume (inv : Inv s) {i : ι} {task : ProcessTask} (live : s.tasks i = some task)
    (kept : policy.finalSuspend = .always ∨ ¬ Returns policy s (.resume i)) :
    (task.resume s.heap policy).Tracked ∧ (task.resume s.heap policy).live = s.heap.live := by
  unfold ProcessTask.resume
  split
  · rename_i n handle
    have held : heldBy s i = some n := (heldBy_eq live).trans handle
    obtain ⟨f, here⟩ := inv.frame held
    have answer : s.heap.isDone n = (f.atFinal, s.heap) := by rw [Heap.isDone, here]
    rw [answer]
    cases running : f.atFinal with
    | true => exact ⟨inv.heap, rfl⟩
    | false =>
        refine inv.heap.resume here running ?_
        rcases kept with final | silent
        · exact .inl final
        · exact .inr (not_not.mp fun returns => silent ⟨n, held, f, here, running, returns⟩)
  · exact ⟨inv.heap, rfl⟩

omit [DecidableEq ι] in
/-- The result of a task is what its coroutine has returned. -/
theorem Inv.getResult (inv : Inv s) {i : ι} {task : ProcessTask} (live : s.tasks i = some task) :
    (task.getResult s.heap).2 = s.heap ∧
      (task.handle.bind s.heap.returned ≠ none →
        (task.getResult s.heap).1 = task.handle.bind s.heap.returned) := by
  unfold ProcessTask.getResult
  split
  · rename_i n handle
    obtain ⟨f, here⟩ := inv.frame ((heldBy_eq live).trans handle)
    obtain ⟨result, final⟩ := inv.heap.result n f here
    have answer : s.heap.isDone n = (f.atFinal, s.heap) := by rw [Heap.isDone, here]
    have promise : s.heap.promise n = (f.result, s.heap) := by rw [Heap.promise, here]
    rw [answer, handle, Option.bind_some, ← result, final]
    cases value : f.result with
    | none => exact ⟨rfl, fun returned => absurd rfl returned⟩
    | some _ =>
        rw [value] at promise
        exact ⟨congrArg Prod.snd promise, fun _ => congrArg Prod.fst promise⟩
  · rename_i handle
    rw [handle]
    exact ⟨rfl, fun returned => absurd rfl returned⟩

omit [DecidableEq ι] in
/-- The frame of a task is destroyed. -/
theorem Inv.destroyHandle (inv : Inv s) {i : ι} {task : ProcessTask}
    (live : s.tasks i = some task) :
    (task.destroyHandle s.heap).Tracked ∧
      (task.destroyHandle s.heap).live = {n ∈ s.heap.live | heldBy s i ≠ some n} := by
  unfold ProcessTask.destroyHandle
  split
  · rename_i n handle
    have held : heldBy s i = some n := (heldBy_eq live).trans handle
    refine ⟨inv.heap.destroy (inv.owners.mem held), ?_⟩
    rw [Heap.live_destroy, held]
    simp [eq_comm]
  · rename_i handle
    have held : heldBy s i = none := (heldBy_eq live).trans handle
    simp [inv.heap, held]

theorem step_inv (inv : Inv s) {op : Op ι T} (allowed : Allowed s op)
    (kept : policy.finalSuspend = .always ∨ ¬ Returns policy s op) : Inv (step policy s op) := by
  cases op with
  | call i body => exact inv.call allowed kept
  | resume i =>
      obtain ⟨task, live⟩ := Option.ne_none_iff_exists'.mp allowed
      obtain ⟨tracked, same⟩ := inv.resume live kept
      rw [step, live]
      exact ⟨tracked, same.symm ▸ inv.owners, inv.answers⟩
  | done i =>
      obtain ⟨task, live⟩ := Option.ne_none_iff_exists'.mp allowed
      rw [step, live]
      show Inv ⟨s.tasks, (task.done s.heap).2, s.answers⟩
      rw [inv.done live]
      exact inv
  | getResult i =>
      obtain ⟨task, live⟩ := Option.ne_none_iff_exists'.mp allowed
      obtain ⟨same, right⟩ := inv.getResult live
      rw [step, live]
      show Inv ⟨s.tasks, (task.getResult s.heap).2, _ :: s.answers⟩
      rw [same]
      exact ⟨inv.heap, inv.owners, List.forall_mem_cons.mpr ⟨right, inv.answers⟩⟩
  | moveConstruct target source =>
      obtain ⟨vacant, live⟩ := allowed
      have other := ne_of_vacant vacant live
      refine ⟨inv.heap, ?_, inv.answers⟩
      rw [step, heldBy_moveTo]
      exact inv.owners.move_to_vacant other (heldBy_eq vacant)
  | moveAssign target source =>
      rw [step]
      split
      · exact inv
      · rename_i other
        obtain ⟨task, live⟩ := Option.ne_none_iff_exists'.mp allowed.1
        obtain ⟨tracked, left⟩ := inv.destroyHandle live
        rw [destroyFrame, live]
        refine ⟨tracked, ?_, inv.answers⟩
        rw [heldBy_moveTo]
        exact left.symm ▸ inv.owners.move other
  | destroy i =>
      obtain ⟨task, live⟩ := Option.ne_none_iff_exists'.mp allowed
      obtain ⟨tracked, left⟩ := inv.destroyHandle live
      rw [step, destroyFrame, live]
      refine ⟨tracked, ?_, inv.answers⟩
      rw [heldBy_update]
      exact left.symm ▸ inv.owners.drop i

/-- With a final suspension everything goes well, whatever the bodies do. -/
theorem sound_of_suspends_finally (final : policy.finalSuspend = .always) {ops : List (Op ι T)}
    (allowed : EveryStep (step policy) Allowed initial ops) :
    Sound (run (step policy) initial ops) := by
  have preserved (s : State ι T) (op : Op ι T) (inv : Inv s) (allowed : Allowed s op) :
      Inv (step policy s op) := step_inv inv allowed (.inl final)
  exact (run_invariant_of_everyStep preserved inv_initial allowed).sound

/-! ### Steps that lose a frame -/

section Later

variable (task : ProcessTask) (h : Heap T)

theorem later_done : Heap.Later h (task.done h).2 := by
  unfold ProcessTask.done
  split
  · exact Heap.later_isDone _
  · rfl

theorem later_resume (policy : Policy) : Heap.Later h (task.resume h policy) := by
  unfold ProcessTask.resume
  split
  · split
    · exact Heap.later_isDone _
    · exact (Heap.later_isDone _).trans (Heap.later_resume _)
  · rfl

theorem later_getResult : Heap.Later h (task.getResult h).2 := by
  unfold ProcessTask.getResult
  split
  · split
    · exact (Heap.later_isDone _).trans (Heap.later_promise _)
    · exact Heap.later_isDone _
  · rfl

theorem later_destroyHandle : Heap.Later h (task.destroyHandle h) := by
  unfold ProcessTask.destroyHandle
  split
  · exact Heap.later_destroy _
  · rfl

end Later

omit [DecidableEq ι] in
theorem later_destroyFrame (i : ι) : Heap.Later s.heap (destroyFrame s i).heap := by
  unfold destroyFrame
  split
  · exact later_destroyHandle ..
  · rfl

theorem later_step (op : Op ι T) : Heap.Later s.heap (step policy s op).heap := by
  cases op with
  | call i body => exact Heap.later_create body
  | resume i =>
      rw [step]
      split
      · exact later_resume ..
      · rfl
  | done i =>
      rw [step]
      split
      · exact later_done ..
      · rfl
  | getResult i =>
      rw [step]
      split
      · exact later_getResult ..
      · rfl
  | moveConstruct target source => exact .refl s.heap
  | moveAssign target source =>
      rw [step]
      split
      · rfl
      · exact later_destroyFrame target
  | destroy i => exact later_destroyFrame i

omit [DecidableEq ι] in
/-- A frame that is gone is destroyed again. -/
theorem faults_destroyFrame {i : ι} {n : ℕ} (held : heldBy s i = some n) (gone : n ∉ s.heap.live) :
    (destroyFrame s i).heap.faults ≠ [] := by
  obtain ⟨task, live, handle⟩ := Option.bind_eq_some_iff.mp held
  rw [destroyFrame, live]
  show (task.destroyHandle s.heap).faults ≠ []
  rw [ProcessTask.destroyHandle, handle]
  exact Heap.faults_destroy gone

omit [DecidableEq ι] in
theorem heldBy_destroyFrame (i : ι) : heldBy (destroyFrame s i) = heldBy s := by
  unfold destroyFrame
  split <;> rfl

/-- A move leaves a handle in one of the two tasks, unless the target has had it. -/
theorem held_moveTo {i target source : ι} {n : ℕ} (held : heldBy s i = some n)
    (other : target ≠ source) (kept : i ≠ target) :
    ∃ j, heldBy (moveTo s target source) j = some n := by
  rw [heldBy_moveTo]
  rcases eq_or_ne i source with rfl | elsewhere
  · refine ⟨target, ?_⟩
    rw [Function.update_of_ne other, Function.update_self, held]
  · refine ⟨i, ?_⟩
    rw [Function.update_of_ne elsewhere, Function.update_of_ne kept, held]

/-- The task that has a frame has it still or another one has it, unless the step destroys it. -/
theorem step_broken {op : Op ι T} (broken : Broken s) (allowed : Allowed s op) :
    Broken (step policy s op) := by
  have later : Heap.Later s.heap (step policy s op).heap := later_step op
  rcases broken with fault | ⟨i, n, held, before, gone⟩
  · exact .inl (later.faults fault)
  have stays {j : ι} (has : heldBy (step policy s op) j = some n) : Broken (step policy s op) :=
    .inr ⟨j, n, has, before.trans_le later.created, later.gone n before gone⟩
  cases op with
  | call j body =>
      have other : i ≠ j := by
        rintro rfl
        rw [heldBy_eq allowed] at held
        cases held
      refine stays (j := i) ?_
      have after : heldBy (step policy s (.call j body)) =
          Function.update (heldBy s) j (some s.heap.created) := heldBy_update
      rw [after, Function.update_of_ne other, held]
  | resume j | done j | getResult j =>
      refine stays (j := i) ?_
      rw [step]
      split <;> exact held
  | moveConstruct target source =>
      obtain ⟨vacant, live⟩ := allowed
      have kept : i ≠ target := by
        rintro rfl
        rw [heldBy_eq vacant] at held
        cases held
      have other := ne_of_vacant vacant live
      obtain ⟨j, has⟩ := held_moveTo held other kept
      exact stays has
  | moveAssign target source =>
      by_cases self : target = source
      · refine stays (j := i) ?_
        rw [step, if_pos self]
        exact held
      · rcases eq_or_ne i target with rfl | kept
        · refine .inl ?_
          rw [step, if_neg self]
          exact faults_destroyFrame held gone
        · have has : heldBy (destroyFrame s target) i = some n := by
            rw [heldBy_destroyFrame, held]
          obtain ⟨j, has⟩ := held_moveTo has self kept
          refine stays (j := j) ?_
          rw [step, if_neg self]
          exact has
  | destroy j =>
      rcases eq_or_ne i j with rfl | other
      · exact .inl (faults_destroyFrame held gone)
      · refine stays (j := i) ?_
        have after : heldBy (step policy s (.destroy j)) =
            Function.update (heldBy (destroyFrame s j)) j none := heldBy_update
        rw [after, Function.update_of_ne other, heldBy_destroyFrame, held]

omit [DecidableEq ι] in
/-- A coroutine that can return is not done, and its task resumes it. -/
theorem resume_of_returns {task : ProcessTask} {n : ℕ} (handle : task.handle = some n)
    {h : Heap T} (returns : h.Returns n) : task.resume h policy = h.resume policy n := by
  obtain ⟨f, here, running, -⟩ := returns
  have answer : h.isDone n = (false, h) := by rw [Heap.isDone, here, ← running]
  rw [ProcessTask.resume, handle]
  simp [answer]

/-- A body that returns leaves its task without a frame. -/
theorem broken_of_returns (final : policy.finalSuspend = .never) (inv : Inv s) {op : Op ι T}
    (allowed : Allowed s op) (returns : Returns policy s op) : Broken (step policy s op) := by
  cases op with
  | call i body =>
      obtain ⟨initial, returns⟩ := returns
      refine .inr ⟨i, s.heap.created, ?_, Heap.not_live_create initial final returns⟩
      have after : heldBy (step policy s (.call i body)) =
          Function.update (heldBy s) i (some s.heap.created) := heldBy_update
      rw [after, Function.update_self]
  | resume i =>
      obtain ⟨n, held, returns⟩ := returns
      obtain ⟨task, live, handle⟩ := Option.bind_eq_some_iff.mp held
      have before := inv.heap.lt_created (inv.owners.mem held)
      have later : Heap.Later s.heap (step policy s (.resume i)).heap := later_step (.resume i)
      refine .inr ⟨i, n, ?_, before.trans_le later.created, ?_⟩
      · rw [step, live]
        exact held
      · rw [step, live]
        show n ∉ (task.resume s.heap policy).live
        rw [resume_of_returns handle returns]
        exact Heap.not_live_resume final returns
  | done | getResult | moveConstruct | moveAssign | destroy => exact returns.elim

end Tasks

/-- In every run in which no body returns, everything goes well in every state; and a run that ends
without a task goes well only then. -/
theorem sound_iff {ops : List (Op ι T)}
    (allowed : EveryStep (step promiseType) Allowed initial ops) :
    (EveryStep (step promiseType) (fun s op => ¬ Returns promiseType s op) initial ops →
        ∀ pre, pre <+: ops → Sound (run (step promiseType) initial pre)) ∧
      ((∀ i, (run (step promiseType) initial ops).tasks i = none) →
        (∀ pre, pre <+: ops → Sound (run (step promiseType) initial pre)) →
        EveryStep (step promiseType) (fun s op => ¬ Returns promiseType s op) initial ops) := by
  constructor
  · rintro silent pre ⟨post, rfl⟩
    have preserved (s : State ι T) (op : Op ι T) (inv : Inv s)
        (guard : Allowed s op ∧ ¬ Returns promiseType s op) : Inv (step promiseType s op) :=
      step_inv inv guard.1 (.inr guard.2)
    have along := everyStep_and.mpr ⟨allowed, silent⟩
    exact (run_invariant_of_everyStep preserved inv_initial (everyStep_append.mp along).1).sound
  · intro gone sound
    have either := everyStep_or_run (B := Broken)
      (fun s op inv allowed silent => step_inv inv allowed (.inr silent))
      (fun s op inv allowed returns => broken_of_returns rfl inv allowed (not_not.mp returns))
      (fun s op broken allowed => step_broken broken allowed) inv_initial allowed
    rcases either with silent | fault | ⟨i, n, held, -⟩
    · exact silent
    · exact absurd (sound ops List.prefix_rfl).noFaults fault
    · rw [heldBy_eq (gone i)] at held
      cases held

/-- A coroutine that returns at once is called, and its task is destroyed: the frame is destroyed
twice. -/
theorem not_sound_of_return :
    EveryStep (step promiseType) Allowed (initial : State Unit ℕ)
        [.call () fun _ => some 7, .destroy ()] ∧
      ¬ ∀ pre, pre <+: [.call () fun _ => some 7, .destroy ()] →
        Sound (run (step promiseType) (initial : State Unit ℕ) pre) := by
  constructor
  · simp [EveryStep, Allowed, step, initial]
  · intro sound
    exact absurd (sound _ List.prefix_rfl).noFaults (by decide)

/-- A coroutine that never returns is resumed by two tasks. -/
def generator : List (Op ℕ ℕ) :=
  [.call 0 fun _ => none, .resume 0, .moveConstruct 1 0, .resume 1, .done 0, .getResult 1,
    .call 2 fun _ => none, .moveAssign 2 1, .destroy 0, .destroy 1, .destroy 2]

theorem sound_generator :
    Sound (run (step promiseType) initial generator) ∧
      (run (step promiseType) initial generator).heap.created = 2 := by
  have allowed : EveryStep (step promiseType) Allowed initial generator := by
    simp [generator, EveryStep, Allowed, step, initial, moveTo, destroyFrame]
  have sound := (sound_iff allowed).1 (by
    simp [generator, EveryStep, Returns, step, initial, moveTo, heldBy, promiseType, Heap.Returns,
      Heap.create, Heap.allocate, Heap.runPart, Heap.empty, Heap.resume, Heap.isDone, Frame.new,
      ProcessTask.resume])
  exact ⟨sound generator List.prefix_rfl, by decide⟩

end ModernOS.Process.Task
