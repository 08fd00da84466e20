import ModernOS.FileSystem.MountedOnce

/-!
Whether `unmount` undoes `mount`.

`mount` stores the first 31 characters of the path, and `unmount` compares the whole path and
stops at the lowest slot that has it. So a mount is undone exactly when the path is stored whole,
and no slot below the new one has it (`unmountUndoes_iff`).
-/

namespace ModernOS.FileSystem

open SlotTable CString Transition

/-- The fields `device` and `path` of slot `i`, if it is occupied. -/
def stored (s : State) (i : Slot) : Option ((Fin 32 → BitVec 8) × (Fin 32 → BitVec 8)) :=
  if (s.mountPoints i).mounted then some ((s.mountPoints i).device, (s.mountPoints i).path)
  else none

/-- If the mount succeeds, unmounting the path next succeeds, and the occupied slots and what they
store are as before. -/
def Undone (s : State) (device path : CString) : Prop :=
  (mount device path s).1 = true →
    ∃ s', unmount path (mount device path s).2 = some (true, s') ∧ stored s' = stored s

/-- If there is a free slot, the path has at most 31 characters, and no slot below holds it. -/
def Undoable (s : State) (path : CString) : Prop :=
  ∀ i, firstSlot (fun m : MountPoint => m.mounted = false) s.mountPoints = some i →
    path.chars.length ≤ 31 ∧ ∀ j < i, ¬ MountedAt s path j

theorem truncate_eq_self_iff {n : ℕ} {p : CString} :
    p.truncate n = p ↔ p.chars.length ≤ n := by
  rw [CString.ext_iff, truncate]
  exact List.take_eq_self_iff p.chars

/-! ### On the abstract table -/

namespace Mounts

variable {a : Mounts}

/-- Unmounting a path just mounted in slot `i` empties that slot exactly when it is the lowest one
with the path. -/
theorem unmount_update_iff {i : Slot} (empty : a i = none) (m : Mounting) (p : CString) :
    Mounts.unmount (Function.update a i (some m)) p = (true, a) ↔
      m.path = p ∧ ∀ j < i, ¬ a.At p j := by
  have here : At (Function.update a i (some m)) p i ↔ m.path = p := by
    rw [at_update, if_pos rfl, Option.map_some, Option.some_inj]
  have below {j : Slot} (earlier : j < i) : At (Function.update a i (some m)) p j ↔ a.At p j := by
    rw [at_update, if_neg earlier.ne]
  constructor
  · intro undone
    have mounted : ∃ k, At (Function.update a i (some m)) p k := by
      by_contra none
      have fails := (unmount_fails_iff _ p).mpr fun k same => none ⟨k, same⟩
      rw [undone] at fails
      cases fails
    obtain ⟨k, emptied, at_k, lowest⟩ := unmount_of_at mounted
    have taken : i = k := by
      by_contra other
      have kept := congrFun (Prod.mk.inj (emptied.symm.trans undone)).2 i
      rw [Function.update_of_ne other, Function.update_self, empty] at kept
      cases kept
    subst taken
    exact ⟨here.mp at_k, fun j earlier at_j => lowest j earlier ((below earlier).mpr at_j)⟩
  · rintro ⟨same, none⟩
    have found : firstSlot (fun e : Option Mounting => e.map Mounting.path = some p)
        (Function.update a i (some m)) = some i :=
      firstSlot_eq_some.mpr ⟨here.mpr same, fun j earlier at_j =>
        none j earlier ((below earlier).mp at_j)⟩
    rw [Mounts.unmount, found]
    dsimp only
    rw [Function.update_idem, ← empty, Function.update_eq_self]

end Mounts

/-! ### On the concrete table -/

section Represents

variable {s s' : State} {a a' : Mounts}

/-- What the slots store is what the abstract table has. -/
theorem Represents.stored_eq_iff (rel : Represents s.mountPoints a)
    (rel' : Represents s'.mountPoints a') : stored s' = stored s ↔ a' = a := by
  rw [funext_iff, funext_iff]
  refine forall_congr' fun i => ?_
  rw [stored, stored, rel.mounted i, rel'.mounted i]
  cases held : a i with
  | none =>
      cases held' : a' i with
      | none => exact iff_of_true rfl rfl
      | some m' => exact iff_of_false nofun nofun
  | some m =>
      cases held' : a' i with
      | none => exact iff_of_false nofun nofun
      | some m' =>
          obtain ⟨device, path⟩ := rel.holds i m held
          obtain ⟨device', path'⟩ := rel'.holds i m' held'
          simp only [Option.isSome_some, if_true, Option.some_inj, Prod.mk.injEq]
          constructor
          · rintro ⟨same, same'⟩
            obtain ⟨d, p⟩ := m
            obtain rfl : m'.device = d := device'.unique (same ▸ device)
            obtain rfl : m'.path = p := path'.unique (same' ▸ path)
            rfl
          · rintro rfl
            exact ⟨funext fun j => (device'.chars j).trans (device.chars j).symm,
              funext fun j => (path'.chars j).trans (path.chars j).symm⟩

theorem Represents.undone_iff (rel : Represents s.mountPoints a) (device path : CString) :
    Undone s device path ↔ Undoable s path := by
  obtain ⟨returns, rel₁⟩ := rel.mount device path
  obtain ⟨s₂, unmounted, rel₂, -⟩ := rel₁.unmount path
  have undone : Undone s device path ↔ ((a.mount device path).1 = true →
      (a.mount device path).2.unmount path = (true, a)) := by
    rw [Undone, returns, unmounted, Prod.ext_iff]
    refine imp_congr_right fun _ => ?_
    constructor
    · rintro ⟨s', same, kept⟩
      obtain ⟨success, rfl⟩ := Prod.mk.inj (Option.some.inj same)
      exact ⟨success, (rel.stored_eq_iff rel₂).mp kept⟩
    · rintro ⟨success, kept⟩
      exact ⟨s₂, by rw [success], (rel.stored_eq_iff rel₂).mpr kept⟩
  rw [undone, Undoable, rel.firstFree, Mounts.mount]
  cases found : firstSlot (fun e : Option Mounting => e = none) a with
  | none =>
      exact iff_of_true (fun success => absurd success Bool.false_ne_true)
        fun i full => absurd full.symm (Option.some_ne_none i)
  | some i =>
      have empty : a i = none := holds_of_firstSlot found
      simp only [true_imp_iff, Option.some.injEq, forall_eq', rel.mountedAt_iff]
      rw [Mounts.unmount_update_iff empty, truncate_eq_self_iff]

end Represents

/-- **`unmount` undoes `mount`**, in every state of a run and for every path, exactly when the path
has at most 31 characters and is in no slot below the one that `mount` takes. -/
theorem unmountUndoes_iff (memory : Memory.State) (calls : List Call) (device path : CString) :
    ∃ s ∈ run step (some (static memory)) calls, (Undone s device path ↔ Undoable s path) := by
  obtain ⟨s, reached, rel⟩ := represents_run memory calls
  exact ⟨s, reached, rel.undone_iff device path⟩

/-- A path of 32 characters. -/
def longPath : CString := ⟨List.replicate 32 0x61#8, by decide⟩

/-- A path of 32 characters cannot be unmounted, although no call of the run has it. -/
theorem unmountUndoes_fails :
    ¬ ∀ memory calls device path, (∀ d, Call.mount d path ∉ calls) →
      ∃ s ∈ run step (some (static memory)) calls, Undone s device path := by
  intro undoes
  obtain ⟨s, reached, undone⟩ := undoes (Memory.freeMemory 0) [.init] root longPath (by simp)
  obtain ⟨t, reached', rel⟩ := represents_run (Memory.freeMemory 0) [.init]
  obtain rfl : t = s := Option.some.inj (reached'.symm.trans reached)
  have free : firstSlot (fun m : MountPoint => m.mounted = false) t.mountPoints = some 0 := by
    rw [rel.firstFree]
    decide +kernel
  exact absurd ((rel.undone_iff root longPath).mp undone 0 free).1 (by decide)

end ModernOS.FileSystem
