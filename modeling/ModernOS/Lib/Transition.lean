import Mathlib.Data.List.Infix

/-!
Deterministic systems driven by a list of operations.

A system is a step function `σ → ι → σ`; a *run* folds it over a list of
operations. Three things are said about runs here:

* an invariant of every step is an invariant of every run (`run_invariant`), and
  an invariant that needs a guard on the step holds along every run whose steps
  meet the guard (`run_invariant_of_everyStep`);
* `EveryStep` says that a relation between a state and the next operation holds
  at each step of a run, and `everyStep_iff_forall` reads it off the prefixes;
* `everyStep_congr` turns a per-step equivalence that holds under an invariant
  into an equivalence about whole runs. This is the form in which the exact
  condition for a run property is proved. Where a bad state need not show at once,
  `everyStep_or_run` says that the run ends in one.
-/

namespace Transition

variable {σ ι : Type*} {step : σ → ι → σ}

/-- The state after the operations `ops`. -/
def run (step : σ → ι → σ) (s : σ) (ops : List ι) : σ := ops.foldl step s

@[simp] theorem run_nil (s : σ) : run step s [] = s := rfl

@[simp] theorem run_cons (s : σ) (o : ι) (os : List ι) :
    run step s (o :: os) = run step (step s o) os := rfl

@[simp] theorem run_append (s : σ) (xs ys : List ι) :
    run step s (xs ++ ys) = run step (run step s xs) ys := List.foldl_append

/-- Operations that are made of smaller ones. -/
theorem run_flatMap {κ : Type*} (parts : κ → List ι) (s : σ) (ops : List κ) :
    run step s (ops.flatMap parts) = run (fun s o => run step s (parts o)) s ops :=
  List.foldl_flatMap

/-- Operations that stand for others. -/
theorem run_comap {κ : Type*} (g : κ → ι) (s : σ) (ops : List κ) :
    run step s (ops.map g) = run (fun s o => step s (g o)) s ops := List.foldl_map

/-- A run depends only on what the steps do. -/
theorem run_congr {step' : σ → ι → σ} (same : ∀ s o, step s o = step' s o) (s : σ)
    (ops : List ι) : run step s ops = run step' s ops := by
  rw [funext₂ same]

/-- A system that another one follows through `f`. -/
theorem run_map {σ' : Type*} {step' : σ' → ι → σ'} {f : σ' → σ}
    (follows : ∀ s o, f (step' s o) = step (f s) o) (s : σ') (ops : List ι) :
    f (run step' s ops) = run step (f s) ops :=
  (List.foldl_hom f fun s o => (follows s o).symm).symm

/-- Two systems that are driven by the same operations. -/
theorem run_prod {τ : Type*} {step' : τ → ι → τ} (s : σ) (t : τ) (ops : List ι) :
    run (fun p o => (step p.1 o, step' p.2 o)) (s, t) ops = (run step s ops, run step' t ops) := by
  induction ops generalizing s t with
  | nil => rfl
  | cons o os ih => exact ih (step s o) (step' t o)

/-- An invariant of every step is an invariant of every run. -/
theorem run_invariant {I : σ → Prop} (preserved : ∀ s o, I s → I (step s o)) {s : σ} (init : I s)
    (ops : List ι) : I (run step s ops) := by
  induction ops generalizing s with
  | nil => exact init
  | cons o os ih => exact ih (preserved s o init)

/-- `P` relates the state and the next operation at every step of the run. -/
def EveryStep (step : σ → ι → σ) (P : σ → ι → Prop) : σ → List ι → Prop
  | _, [] => True
  | s, o :: os => P s o ∧ EveryStep step P (step s o) os

theorem everyStep_append {P : σ → ι → Prop} {s : σ} {xs ys : List ι} :
    EveryStep step P s (xs ++ ys) ↔
      EveryStep step P s xs ∧ EveryStep step P (run step s xs) ys := by
  induction xs generalizing s with
  | nil => simp [EveryStep]
  | cons o os ih => simp [EveryStep, ih, and_assoc]

theorem everyStep_and {P Q : σ → ι → Prop} {s : σ} {ops : List ι} :
    EveryStep step (fun s o => P s o ∧ Q s o) s ops ↔
      EveryStep step P s ops ∧ EveryStep step Q s ops := by
  induction ops generalizing s with
  | nil => simp [EveryStep]
  | cons o os ih =>
      rw [EveryStep, EveryStep, EveryStep, ih]
      exact and_and_and_comm

/-- `EveryStep` read off the prefixes of the run: `P` relates the state after each
proper prefix to the operation that follows it. -/
theorem everyStep_iff_forall {P : σ → ι → Prop} {s : σ} {ops : List ι} :
    EveryStep step P s ops ↔
      ∀ pre o, pre ++ [o] <+: ops → P (run step s pre) o := by
  constructor
  · rintro along pre o ⟨post, rfl⟩
    rw [List.append_assoc, everyStep_append] at along
    exact along.2.1
  · intro each
    induction ops generalizing s with
    | nil => trivial
    | cons o os ih =>
        refine ⟨each [] o ⟨os, rfl⟩, ih fun pre o' sub => ?_⟩
        exact each (o :: pre) o' (List.prefix_cons_inj o |>.mpr sub)

/-- A run of a system that another one follows through `f` meets a property of the
followed states exactly when the followed run does. -/
theorem everyStep_map {σ' : Type*} {step' : σ' → ι → σ'} {f : σ' → σ}
    (follows : ∀ s o, f (step' s o) = step (f s) o) {P : σ → ι → Prop} {s : σ'} {ops : List ι} :
    EveryStep step' (fun s o => P (f s) o) s ops ↔ EveryStep step P (f s) ops := by
  induction ops generalizing s with
  | nil => exact Iff.rfl
  | cons o os ih =>
      rw [EveryStep, EveryStep, ih, follows]

theorem everyStep_comap {κ : Type*} (g : κ → ι) {P : σ → ι → Prop} {s : σ} {ops : List κ} :
    EveryStep step P s (ops.map g) ↔
      EveryStep (fun s o => step s (g o)) (fun s o => P s (g o)) s ops := by
  induction ops generalizing s with
  | nil => exact Iff.rfl
  | cons o os ih => exact and_congr_right fun _ => ih

/-- A state property holds in every state of a run exactly when it holds at its
start and each step leads to it. -/
theorem everyState_iff {P : σ → Prop} {s : σ} {ops : List ι} :
    (∀ pre, pre <+: ops → P (run step s pre)) ↔
      P s ∧ EveryStep step (fun s o => P (step s o)) s ops := by
  rw [everyStep_iff_forall]
  constructor
  · intro each
    exact ⟨each [] List.nil_prefix, fun pre o sub => by simpa using each _ sub⟩
  · rintro ⟨start, each⟩ pre sub
    rcases List.eq_nil_or_concat pre with rfl | ⟨front, o, rfl⟩
    · exact start
    · simpa using each front o (by simpa using sub)

/-- An invariant that needs the guard `G` on its steps holds at the end of every run
whose steps meet the guard. -/
theorem run_invariant_of_everyStep {I : σ → Prop} {G : σ → ι → Prop}
    (preserved : ∀ s o, I s → G s o → I (step s o)) {s : σ} (init : I s) {ops : List ι}
    (along : EveryStep step G s ops) : I (run step s ops) := by
  induction ops generalizing s with
  | nil => exact init
  | cons o os ih => exact ih (preserved s o init along.1) along.2

/-- What an invariant of every step guarantees at a step is met along every run. -/
theorem everyStep_of_invariant {I : σ → Prop} {P : σ → ι → Prop}
    (preserved : ∀ s o, I s → I (step s o)) (holds : ∀ s o, I s → P s o) {s : σ} (init : I s)
    (ops : List ι) : EveryStep step P s ops := by
  induction ops generalizing s with
  | nil => trivial
  | cons o os ih => exact ⟨holds s o init, ih (preserved s o init)⟩

/-- Under an invariant that the guard `G` preserves, a step property equivalent to `G`
holds along a run exactly when `G` does. -/
theorem everyStep_congr {I : σ → Prop} {P G : σ → ι → Prop}
    (preserved : ∀ s o, I s → G s o → I (step s o)) (equiv : ∀ s o, I s → (P s o ↔ G s o))
    {s : σ} (init : I s) (ops : List ι) :
    EveryStep step P s ops ↔ EveryStep step G s ops := by
  induction ops generalizing s with
  | nil => exact Iff.rfl
  | cons o os ih =>
      refine and_congr_right_iff.mpr ?_ |>.trans (and_congr_left' (equiv s o init))
      intro holds
      exact ih (preserved s o init ((equiv s o init).mp holds))

/-- If the first step that fails the guard leads to a state that is bad and nothing mends, then the
guard holds along the run or the run ends in a bad state. -/
theorem everyStep_or_run {I B : σ → Prop} {A G : σ → ι → Prop}
    (preserved : ∀ s o, I s → A s o → G s o → I (step s o))
    (breaks : ∀ s o, I s → A s o → ¬ G s o → B (step s o))
    (stays : ∀ s o, B s → A s o → B (step s o)) {s : σ} (init : I s) {ops : List ι}
    (along : EveryStep step A s ops) : EveryStep step G s ops ∨ B (run step s ops) := by
  induction ops generalizing s with
  | nil => exact .inl trivial
  | cons o os ih =>
      obtain ⟨allowed, rest⟩ := along
      by_cases guard : G s o
      · exact (ih (preserved s o init allowed guard) rest).imp_left fun guards => ⟨guard, guards⟩
      · exact .inr (run_invariant_of_everyStep stays (breaks s o init allowed guard) rest)

end Transition
