import ModernOS.FileSystem.Mounts
import ModernOS.Memory.Allocator

/-!
How often a path is mounted.

`mount` looks for a free slot only, and stores the first 31 characters of the path. So a path is
mounted as often as it is asked for, and `unmount` takes away one mounting, in the lowest slot
(`DetachesLowest`). A path is mounted at most once along a run exactly when no `mount` of the run
that finds a free slot names a path that is mounted, up to its first 31 characters
(`mountedOnce_iff`).
-/

namespace ModernOS.FileSystem

open SlotTable CString Transition

/-- Slot `i` is occupied, and its field `path` holds `p`. -/
def MountedAt (s : State) (p : CString) (i : Slot) : Prop :=
  (s.mountPoints i).mounted = true ∧ Holds (s.mountPoints i).path p

/-- No path is in two occupied slots, and unmounting a path that is mounted succeeds and leaves
nothing mounted there. -/
structure MountedOnce (s : State) : Prop where
  once : ∀ p i j, MountedAt s p i → MountedAt s p j → i = j
  detaches : ∀ p i, MountedAt s p i →
    ∃ s', unmount p s = some (true, s') ∧ ∀ j, ¬ MountedAt s' p j

/-- Unmounting a path that is mounted empties the lowest slot with the path, and no other. -/
def DetachesLowest (s : State) : Prop :=
  ∀ p, (∃ i, MountedAt s p i) →
    ∃ i s', unmount p s = some (true, s') ∧ MountedAt s p i ∧ (∀ j < i, ¬ MountedAt s p j) ∧
      ∀ q j, MountedAt s' q j ↔ MountedAt s q j ∧ j ≠ i

/-- The call is not a `mount` that finds a free slot for a path that is mounted. -/
def Call.AddsNew (s : State) : Call → Prop
  | .mount _ mountPoint =>
      (∃ i, MountedAt s (mountPoint.truncate 31) i) → ∀ i, (s.mountPoints i).mounted = true
  | _ => True

/-! ### On the abstract table -/

namespace Mounts

variable (a : Mounts)

/-- The path is mounted in slot `i`. -/
def At (p : CString) (i : Slot) : Prop := (a i).map Mounting.path = some p

/-- No path is mounted in two slots. -/
def Once : Prop := ∀ p i j, a.At p i → a.At p j → i = j

def AddsNew : Call → Prop
  | .mount _ mountPoint => (∃ i, a.At (mountPoint.truncate 31) i) → ∀ i, a i ≠ none
  | _ => True

instance (p : CString) (i : Slot) : Decidable (a.At p i) :=
  inferInstanceAs (Decidable (_ = _))

variable {a}

theorem at_update {i j : Slot} {e : Option Mounting} {p : CString} :
    At (Function.update a i e) p j ↔ if j = i then e.map Mounting.path = some p else a.At p j := by
  rw [At, Function.update_apply]
  split <;> exact Iff.rfl

theorem not_at_of_empty {i : Slot} (empty : a i = none) (p : CString) : ¬ a.At p i := by
  rw [At, empty]
  exact nofun

theorem unmount_of_at {p : CString} (mounted : ∃ i, a.At p i) :
    ∃ i, a.unmount p = (true, Function.update a i none) ∧ a.At p i ∧ ∀ j < i, ¬ a.At p j := by
  rw [unmount]
  cases found : firstSlot (fun e : Option Mounting => e.map Mounting.path = some p) a with
  | none =>
      obtain ⟨i, here⟩ := mounted
      exact absurd here (firstSlot_eq_none.mp found i)
  | some i => exact ⟨i, rfl, firstSlot_eq_some.mp found⟩

/-- A mounting in an empty slot keeps paths apart exactly when its path is mounted nowhere. -/
theorem once_update_iff (once : a.Once) {i : Slot} (empty : a i = none) (m : Mounting) :
    Once (Function.update a i (some m)) ↔ ¬ ∃ j, a.At m.path j := by
  constructor
  · rintro once' ⟨j, mounted⟩
    have apart : j ≠ i := fun same => not_at_of_empty empty m.path (same ▸ mounted)
    refine apart (once' m.path j i (at_update.mpr ?_) (at_update.mpr ?_))
    · rwa [if_neg apart]
    · rw [if_pos rfl]
      rfl
  · intro fresh p j k hj hk
    rw [at_update] at hj hk
    split at hj <;> split at hk
    · rename_i hj' hk'
      exact hj'.trans hk'.symm
    · obtain rfl : m.path = p := Option.some.inj hj
      exact absurd ⟨k, hk⟩ fresh
    · obtain rfl : m.path = p := Option.some.inj hk
      exact absurd ⟨j, hj⟩ fresh
    · exact once p j k hj hk

/-- Emptying a slot keeps paths apart. -/
theorem Once.empty (once : a.Once) (i : Slot) : Once (Function.update a i none) := by
  intro p j k hj hk
  rw [at_update] at hj hk
  split at hj
  · cases hj
  · split at hk
    · cases hk
    · exact once p j k hj hk

/-- From a table with every path mounted once, a call leads to such a table exactly when it
adds no path that is mounted. -/
theorem once_step_iff (once : a.Once) (c : Call) : (a.step c).Once ↔ a.AddsNew c := by
  cases c with
  | init => exact iff_of_true (fun p i j hi _ => nomatch hi) trivial
  | mount device mountPoint =>
      show (a.mount device mountPoint).2.Once ↔ (_ → _)
      rw [mount]
      cases found : firstSlot (fun e : Option Mounting => e = none) a with
      | none => exact iff_of_true once fun _ => firstSlot_eq_none.mp found
      | some i =>
          have empty : a i = none := holds_of_firstSlot found
          rw [once_update_iff once empty]
          constructor
          · intro fresh mounted
            exact absurd mounted fresh
          · intro new mounted
            exact new mounted i empty
  | unmount mountPoint =>
      refine iff_of_true ?_ trivial
      show (a.unmount mountPoint).2.Once
      rw [unmount]
      split
      · exact once
      · exact once.empty _

end Mounts

/-! ### On the concrete table -/

section Represents

variable {s : State} {a : Mounts} (rel : Represents s.mountPoints a)

include rel

theorem Represents.mountedAt_iff (p : CString) (i : Slot) : MountedAt s p i ↔ a.At p i := by
  rw [MountedAt, rel.mounted i, Mounts.At]
  cases held : a i with
  | none => exact iff_of_false (fun mounted => nomatch mounted.1) nofun
  | some m =>
      have path := (rel.holds i m held).2
      constructor
      · rintro ⟨-, here⟩
        exact congrArg some (path.unique here)
      · intro same
        exact ⟨rfl, Option.some.inj same ▸ path⟩

theorem Represents.addsNew_iff (c : Call) : c.AddsNew s ↔ a.AddsNew c := by
  cases c with
  | mount device mountPoint =>
      have full (i : Slot) : (s.mountPoints i).mounted = true ↔ a i ≠ none := by
        rw [rel.mounted i, Option.isSome_iff_ne_none]
      simp only [Call.AddsNew, Mounts.AddsNew, rel.mountedAt_iff, full]
  | init => exact Iff.rfl
  | unmount mountPoint => exact Iff.rfl

theorem Represents.detachesLowest : DetachesLowest s := by
  intro p mounted
  simp only [rel.mountedAt_iff] at mounted ⊢
  obtain ⟨i, emptied, here, lowest⟩ := Mounts.unmount_of_at mounted
  obtain ⟨s', unmounted, rel', -⟩ := rel.unmount p
  rw [emptied] at unmounted rel'
  refine ⟨i, s', unmounted, here, lowest, fun q j => ?_⟩
  rw [rel'.mountedAt_iff, Mounts.at_update]
  split
  · rename_i same
    exact iff_of_false nofun fun mounted => mounted.2 same
  · rename_i apart
    exact (and_iff_left apart).symm

theorem Represents.mountedOnce_iff_once : MountedOnce s ↔ a.Once := by
  constructor
  · intro mounted p i j hi hj
    exact mounted.once p i j ((rel.mountedAt_iff p i).mpr hi) ((rel.mountedAt_iff p j).mpr hj)
  · intro once
    have once' (p : CString) (i j : Slot) (hi : MountedAt s p i) (hj : MountedAt s p j) : i = j :=
      once p i j ((rel.mountedAt_iff p i).mp hi) ((rel.mountedAt_iff p j).mp hj)
    refine ⟨once', fun p i mounted => ?_⟩
    obtain ⟨j, s', unmounted, here, -, others⟩ := rel.detachesLowest p ⟨i, mounted⟩
    refine ⟨s', unmounted, fun k still => ?_⟩
    obtain ⟨before, apart⟩ := (others p k).mp still
    exact apart (once' p k j before here)

end Represents

/-- A state that is defined, represents an abstract table, and has every path once. -/
def RepresentsOnce (s : Option State) : Prop :=
  ∃ t ∈ s, ∃ a, Represents t.mountPoints a ∧ a.Once

/-- From such a state, a call leads to a state with every path mounted once exactly when it adds
no path that is mounted. -/
theorem mountedOnce_step_iff {s : Option State} (inv : RepresentsOnce s) (c : Call) :
    ((∃ t ∈ step s c, MountedOnce t) ↔ ∃ t ∈ s, c.AddsNew t) ∧
    ((∃ t ∈ s, c.AddsNew t) → RepresentsOnce (step s c)) := by
  obtain ⟨t, rfl, a, rel, once⟩ := inv
  obtain ⟨t', called, rel', -⟩ := rel.call c
  have stepped : step (some t) c = some t' := by
    rw [step, Option.bind_some, called]
    rfl
  simp only [RepresentsOnce, stepped, Option.mem_some_iff, exists_eq_left']
  rw [rel'.mountedOnce_iff_once, Mounts.once_step_iff once, rel.addsNew_iff]
  exact ⟨Iff.rfl, fun new => ⟨_, rel', (Mounts.once_step_iff once c).mpr new⟩⟩

/-- **A path is mounted at most once** in every state of a run exactly when no call of the run
mounts a path that is mounted into a free slot; and in every state, unmounting takes away one
mounting of a path. -/
theorem mountedOnce_iff (memory : Memory.State) (calls : List Call) :
    ((∀ pre, pre <+: calls → ∃ s ∈ run step (some (static memory)) pre, MountedOnce s) ↔
      EveryStep step (fun s c => ∃ t ∈ s, c.AddsNew t) (some (static memory)) calls) ∧
    ∃ s ∈ run step (some (static memory)) calls, DetachesLowest s := by
  have start : RepresentsOnce (some (static memory)) :=
    ⟨_, rfl, _, represents_static memory, fun p i j hi _ => nomatch hi⟩
  have once : ∃ s ∈ some (static memory), MountedOnce s := by
    obtain ⟨t, mem, a, rel, once⟩ := start
    exact ⟨t, mem, rel.mountedOnce_iff_once.mpr once⟩
  constructor
  · rw [everyState_iff (P := fun s => ∃ t ∈ s, MountedOnce t), and_iff_right once]
    exact everyStep_congr (I := RepresentsOnce) (fun s c inv => (mountedOnce_step_iff inv c).2)
      (fun s c inv => (mountedOnce_step_iff inv c).1) start calls
  · obtain ⟨s, reached, rel⟩ := represents_run memory calls
    exact ⟨s, reached, rel.detachesLowest⟩

/-- The path `/`. -/
def root : CString := ⟨[0x2F#8], by decide⟩

/-- A path that is mounted twice is in two slots. -/
theorem mountedOnce_fails :
    ¬ ∀ memory calls, ∃ s ∈ run step (some (static memory)) calls, MountedOnce s := by
  intro all
  obtain ⟨s, reached, once⟩ := all (Memory.freeMemory 0) [.init, .mount root root, .mount root root]
  obtain ⟨t, reached', rel⟩ := represents_run (Memory.freeMemory 0)
    [.init, .mount root root, .mount root root]
  obtain rfl : t = s := Option.some.inj (reached'.symm.trans reached)
  have same := rel.mountedOnce_iff_once.mp once root 0 1 (by decide +kernel) (by decide +kernel)
  exact absurd same (by decide)

end ModernOS.FileSystem
