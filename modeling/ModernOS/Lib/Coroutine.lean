import Mathlib.Data.List.Nodup
import Mathlib.Data.Set.Insert
import Mathlib.Logic.Function.Basic

/-!
Coroutine frames, by the rules of C++20.

A body runs in parts, from one suspension to the next, and need not have a last one. Whether a
coroutine suspends before its first part and after its last one is said by its promise type
(`Policy`). A frame is destroyed by `destroy`, or when its body runs off its end without a final
suspension. The heap counts the frames and logs which have been destroyed and on which something
has been done that is undefined: anything on a frame that does not exist, and `resume` at the final
suspension.

`Tracked` is what the rules keep as long as nothing undefined is done: each frame exists or has
been destroyed once, and its promise has the value that the body has returned.
-/

namespace Coroutine

/-- `std::suspend_always` and `std::suspend_never`. -/
inductive Suspension where
  | always
  | never
  deriving DecidableEq, Repr

/-- What the promise type says of its suspensions. -/
structure Policy where
  initialSuspend : Suspension
  finalSuspend : Suspension

variable {T : Type*}

/-- The parts of a body: `none` for one that suspends, and the value that is returned for one that
runs off the end. -/
abbrev Body (T : Type*) := ℕ → Option T

structure Frame (T : Type*) where
  body : Body T
  /-- The number of the next part. -/
  part : ℕ
  /-- The member `result` of the promise. -/
  result : Option T
  /-- The coroutine is at its final suspension. -/
  atFinal : Bool

/-- A frame as it is created. -/
def Frame.new (body : Body T) : Frame T := ⟨body, 0, none, false⟩

structure Heap (T : Type*) where
  frames : ℕ → Option (Frame T)
  created : ℕ
  destroyed : List ℕ
  faults : List ℕ
  /-- What the bodies have returned. -/
  returned : ℕ → Option T

namespace Heap

def empty : Heap T := ⟨fun _ => none, 0, [], [], fun _ => none⟩

/-- The frames that exist. -/
def live (h : Heap T) : Set ℕ := {n | h.frames n ≠ none}

/-- Something undefined is done on a frame. -/
def fault (h : Heap T) (n : ℕ) : Heap T := { h with faults := n :: h.faults }

/-- The next part of the body of a frame. -/
def runPart (policy : Policy) (h : Heap T) (n : ℕ) (f : Frame T) : Heap T :=
  match f.body f.part with
  | none => { h with frames := Function.update h.frames n (some { f with part := f.part + 1 }) }
  | some value =>
      let h' := { h with returned := Function.update h.returned n (some value) }
      match policy.finalSuspend with
      | .always =>
          { h' with
            frames := Function.update h.frames n
              (some { f with result := some value, atFinal := true }) }
      | .never =>
          { h' with
            frames := Function.update h.frames n none
            destroyed := n :: h.destroyed }

/-- The heap with a new frame. -/
def allocate (h : Heap T) (body : Body T) : Heap T :=
  { h with
    frames := Function.update h.frames h.created (some (.new body))
    created := h.created + 1 }

/-- A call of a coroutine creates a frame; without an initial suspension its first part runs. -/
def create (policy : Policy) (h : Heap T) (body : Body T) : Heap T :=
  match policy.initialSuspend with
  | .always => h.allocate body
  | .never => runPart policy (h.allocate body) h.created (.new body)

/-- `done`. -/
def isDone (h : Heap T) (n : ℕ) : Bool × Heap T :=
  match h.frames n with
  | some f => (f.atFinal, h)
  | none => (false, h.fault n)

/-- `resume`. -/
def resume (policy : Policy) (h : Heap T) (n : ℕ) : Heap T :=
  match h.frames n with
  | some f => if f.atFinal then h.fault n else runPart policy h n f
  | none => h.fault n

/-- The member `result` of the promise. -/
def promise (h : Heap T) (n : ℕ) : Option T × Heap T :=
  match h.frames n with
  | some f => (f.result, h)
  | none => (none, h.fault n)

/-- `destroy`. -/
def destroy (h : Heap T) (n : ℕ) : Heap T :=
  match h.frames n with
  | some _ => { h with frames := Function.update h.frames n none, destroyed := n :: h.destroyed }
  | none => { h with destroyed := n :: h.destroyed, faults := n :: h.faults }

/-- The next part of the frame runs to its end. -/
def Returns (h : Heap T) (n : ℕ) : Prop :=
  ∃ f, h.frames n = some f ∧ f.atFinal = false ∧ f.body f.part ≠ none

/-! ### What the rules keep -/

/-- Each frame exists or has been destroyed once, and its promise has what its body has
returned; nothing undefined has been done. -/
structure Tracked (h : Heap T) : Prop where
  fresh : ∀ n, h.created ≤ n → h.frames n = none ∧ h.returned n = none
  gone : ∀ n, n ∈ h.destroyed ↔ n < h.created ∧ h.frames n = none
  nodup : h.destroyed.Nodup
  result : ∀ n f, h.frames n = some f → f.result = h.returned n ∧ f.atFinal = f.result.isSome
  noFaults : h.faults = []

theorem tracked_empty : Tracked (empty : Heap T) where
  fresh _ _ := ⟨rfl, rfl⟩
  gone n := iff_of_false List.not_mem_nil fun held => Nat.not_lt_zero n held.1
  nodup := List.nodup_nil
  result _ _ here := by cases here
  noFaults := rfl

variable {policy : Policy} {h : Heap T} {n : ℕ} {f : Frame T}

theorem Tracked.lt_created (tracked : Tracked h) (here : n ∈ h.live) : n < h.created := by
  by_contra above
  exact here (tracked.fresh n (not_lt.mp above)).1

/-- A frame that is not live has been destroyed once. -/
theorem Tracked.count_destroyed (tracked : Tracked h) (before : n < h.created)
    (gone : n ∉ h.live) : h.destroyed.count n = 1 :=
  List.count_eq_one_of_mem tracked.nodup
    ((tracked.gone n).mpr ⟨before, not_not.mp gone⟩)

/-- The frame of a live coroutine is changed. -/
theorem Tracked.update (tracked : Tracked h) (here : n ∈ h.live) {returned : Option T}
    (result : f.result = returned ∧ f.atFinal = f.result.isSome) :
    Tracked { h with
      frames := Function.update h.frames n (some f)
      returned := Function.update h.returned n returned } where
  fresh m above := by
    have apart : m ≠ n := ((tracked.lt_created here).trans_le above).ne'
    simpa [apart] using tracked.fresh m above
  gone m := by
    rw [tracked.gone m]
    by_cases same : m = n
    · rw [same]
      exact iff_of_false (fun held => here held.2) fun held => by simp at held
    · simp [same]
  nodup := tracked.nodup
  result m g live := by
    by_cases same : m = n
    · subst same
      simp only [Function.update_self, Option.some.injEq] at live ⊢
      exact live ▸ result
    · simp only [ne_eq, same, not_false_eq_true, Function.update_of_ne] at live ⊢
      exact tracked.result m g live
  noFaults := tracked.noFaults

theorem live_update (here : n ∈ h.live) {returned : ℕ → Option T} :
    live { h with frames := Function.update h.frames n (some f), returned := returned } =
      h.live := by
  ext m
  by_cases same : m = n
  · rw [same]
    exact iff_of_true (by simp [live]) here
  · simp [live, same]

/-- A part that does not lose its frame: it suspends, or there is a final suspension. -/
def Keeps (policy : Policy) (f : Frame T) : Prop :=
  policy.finalSuspend = .always ∨ f.body f.part = none

theorem Tracked.runPart (tracked : Tracked h) (here : h.frames n = some f)
    (keeps : Keeps policy f) :
    Tracked (runPart policy h n f) ∧ live (Heap.runPart policy h n f) = h.live := by
  have alive : n ∈ h.live := by simp [live, here]
  obtain ⟨result, final⟩ := tracked.result n f here
  unfold Heap.runPart
  cases part : f.body f.part with
  | none =>
      have kept := tracked.update alive (f := { f with part := f.part + 1 }) ⟨result, final⟩
      rw [Function.update_eq_self] at kept
      exact ⟨kept, live_update alive⟩
  | some value =>
      have suspends : policy.finalSuspend = .always := by
        rcases keeps with suspends | suspends
        · exact suspends
        · rw [part] at suspends
          cases suspends
      rw [suspends]
      exact ⟨tracked.update alive ⟨rfl, rfl⟩, live_update alive⟩

@[simp] theorem allocate_frames (body : Body T) :
    (h.allocate body).frames h.created = some (.new body) := Function.update_self ..

theorem live_allocate (body : Body T) : (h.allocate body).live = insert h.created h.live := by
  ext m
  by_cases same : m = h.created <;> simp [live, allocate, same]

theorem Tracked.allocate (tracked : Tracked h) (body : Body T) : Tracked (h.allocate body) where
  fresh m above := by
    have apart : m ≠ h.created := (Nat.lt_of_succ_le above).ne'
    simpa [Heap.allocate, apart] using tracked.fresh m (Nat.le_of_succ_le above)
  gone m := by
    show m ∈ h.destroyed ↔ m < h.created + 1 ∧ Function.update h.frames h.created _ m = none
    rw [tracked.gone m]
    by_cases same : m = h.created
    · simp [same]
    · have apart : m < h.created + 1 ↔ m < h.created := by omega
      rw [Function.update_of_ne same, apart]
  nodup := tracked.nodup
  result m g live := by
    by_cases same : m = h.created
    · subst same
      rw [allocate_frames] at live
      cases live
      exact ⟨(tracked.fresh h.created le_rfl).2.symm, rfl⟩
    · exact tracked.result m g ((Function.update_of_ne same ..).symm.trans live)
  noFaults := tracked.noFaults

/-- A call of a coroutine whose first part, if it runs, does not lose the frame. -/
theorem Tracked.create (tracked : Tracked h) {body : Body T}
    (keeps : policy.initialSuspend = .always ∨ Keeps policy (.new body)) :
    Tracked (create policy h body) ∧
      live (Heap.create policy h body) = insert h.created h.live := by
  have new := tracked.allocate body
  rw [← live_allocate body]
  cases initial : policy.initialSuspend with
  | always =>
      rw [Heap.create, initial]
      exact ⟨new, rfl⟩
  | never =>
      rw [initial] at keeps
      rw [Heap.create, initial]
      exact new.runPart (allocate_frames body) (keeps.resolve_left (by simp))

/-- A coroutine that is not done is resumed, and the part does not lose the frame. -/
theorem Tracked.resume (tracked : Tracked h) (here : h.frames n = some f)
    (running : f.atFinal = false) (keeps : Keeps policy f) :
    Tracked (resume policy h n) ∧ live (Heap.resume policy h n) = h.live := by
  rw [Heap.resume, here]
  simp only [running, Bool.false_eq_true, if_false]
  exact tracked.runPart here keeps

theorem live_destroy (n : ℕ) : (h.destroy n).live = {m ∈ h.live | m ≠ n} := by
  ext m
  unfold destroy
  split
  · by_cases same : m = n <;> simp [live, same]
  · rename_i gone
    refine (and_iff_left_of_imp ?_).symm
    rintro alive rfl
    exact alive gone

theorem Tracked.destroy (tracked : Tracked h) (here : n ∈ h.live) : Tracked (h.destroy n) := by
  obtain ⟨f, frame⟩ := Option.ne_none_iff_exists'.mp here
  rw [Heap.destroy, frame]
  constructor
  · intro m above
    have apart : m ≠ n := ((tracked.lt_created here).trans_le above).ne'
    simpa [apart] using tracked.fresh m above
  · intro m
    by_cases same : m = n
    · simp [same, tracked.lt_created here]
    · simp [same, tracked.gone m]
  · exact List.nodup_cons.mpr ⟨fun before => here ((tracked.gone n).mp before).2, tracked.nodup⟩
  · intro m g live
    rcases eq_or_ne m n with rfl | same
    · simp at live
    · exact tracked.result m g ((Function.update_of_ne same ..).symm.trans live)
  · exact tracked.noFaults

/-! ### What is lost -/

/-- Frames that are gone stay so, and nothing undefined is undone. -/
structure Later (h h' : Heap T) : Prop where
  created : h.created ≤ h'.created
  gone : ∀ n < h.created, n ∉ h.live → n ∉ h'.live
  faults : h.faults ≠ [] → h'.faults ≠ []

@[refl] theorem Later.refl (h : Heap T) : Later h h := ⟨le_rfl, fun _ _ => id, id⟩

theorem Later.trans {h h' h'' : Heap T} (first : Later h h') (second : Later h' h'') :
    Later h h'' where
  created := first.created.trans second.created
  gone n before gone :=
    second.gone n (before.trans_le first.created) (first.gone n before gone)
  faults fault := second.faults (first.faults fault)

theorem later_fault (h : Heap T) (n : ℕ) : Later h (h.fault n) :=
  ⟨le_rfl, fun _ _ => id, fun _ => List.cons_ne_nil _ _⟩

theorem later_runPart (here : h.frames n = some f) : Later h (runPart policy h n f) := by
  have kept (m : ℕ) (gone : m ∉ h.live) (g : Option (Frame T)) :
      Function.update h.frames n g m = none := by
    have apart : m ≠ n := by
      rintro rfl
      exact gone (by simp [live, here])
    rw [Function.update_of_ne apart]
    exact not_not.mp gone
  unfold runPart
  split
  · exact ⟨le_rfl, fun m _ gone alive => alive (kept m gone _), id⟩
  · split
    · exact ⟨le_rfl, fun m _ gone alive => alive (kept m gone _), id⟩
    · exact ⟨le_rfl, fun m _ gone alive => alive (kept m gone _), id⟩

theorem later_create (body : Body T) : Later h (create policy h body) := by
  have allocated : Later h (h.allocate body) := by
    refine ⟨Nat.le_succ _, fun n before gone alive => ?_, id⟩
    rw [live_allocate] at alive
    exact alive.elim before.ne gone
  unfold create
  split
  · exact allocated
  · exact allocated.trans (later_runPart (allocate_frames body))

theorem later_isDone (n : ℕ) : Later h (h.isDone n).2 := by
  unfold isDone
  split
  · rfl
  · exact later_fault h n

theorem later_resume (n : ℕ) : Later h (resume policy h n) := by
  unfold resume
  split
  · rename_i f here
    split
    · exact later_fault h n
    · exact later_runPart here
  · exact later_fault h n

theorem later_promise (n : ℕ) : Later h (h.promise n).2 := by
  unfold promise
  split
  · rfl
  · exact later_fault h n

theorem later_destroy (n : ℕ) : Later h (h.destroy n) := by
  refine ⟨?_, fun m _ gone alive => ?_, fun fault => ?_⟩
  · unfold destroy
    split <;> exact le_rfl
  · rw [live_destroy] at alive
    exact gone alive.1
  · unfold destroy
    split
    · exact fault
    · exact List.cons_ne_nil _ _

theorem faults_destroy (gone : n ∉ h.live) : (h.destroy n).faults ≠ [] := by
  have none : h.frames n = none := not_not.mp gone
  rw [destroy, none]
  exact List.cons_ne_nil _ _

/-- Without a final suspension, a part that returns loses its frame. -/
theorem not_live_runPart (final : policy.finalSuspend = .never) (returns : f.body f.part ≠ none) :
    n ∉ (runPart policy h n f).live := by
  obtain ⟨value, part⟩ := Option.ne_none_iff_exists'.mp returns
  rw [runPart, part, final]
  simp [live]

/-- A coroutine that does not suspend at first is called, and its first part returns. -/
theorem not_live_create (initial : policy.initialSuspend = .never)
    (final : policy.finalSuspend = .never) {body : Body T} (returns : body 0 ≠ none) :
    h.created < (create policy h body).created ∧ h.created ∉ (create policy h body).live := by
  rw [create, initial]
  have later : Later (h.allocate body) (runPart policy (h.allocate body) h.created (.new body)) :=
    later_runPart (allocate_frames body)
  exact ⟨later.created, not_live_runPart final returns⟩

theorem not_live_resume (final : policy.finalSuspend = .never) (returns : h.Returns n) :
    n ∉ (resume policy h n).live := by
  obtain ⟨f, here, running, returns⟩ := returns
  rw [resume, here]
  simp only [running, Bool.false_eq_true, if_false]
  exact not_live_runPart final returns

end Heap

end Coroutine
