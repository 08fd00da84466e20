import ModernOS.FileSystem.Model
import ModernOS.Lib.Transition

/-!
The mount table as a map from slots to mountings.

`Mounts` is the abstract table: a slot is empty, or holds the names of a device and of a path,
cut off at 31 characters. The concrete table represents it (`Represents`): the names fill their
fields up to a NUL and nothing else is left in them, because `strncpy` pads with NUL up to
byte 30 and no operation writes byte 31. So every call does to the abstract table what it
should, and `strcmp` stays inside the fields (`mounts_refine`).
-/

namespace ModernOS.FileSystem

open SlotTable CString Transition

/-- A call that reaches the mount table. -/
inductive Call where
  | init
  | mount (device mountPoint : CString)
  | unmount (mountPoint : CString)
  deriving DecidableEq

/-- What a call returns, nothing for `init`, and the state it leaves. -/
def call (s : State) : Call → Option (Option Bool × State)
  | .init => some (none, init s)
  | .mount device mountPoint => some ((mount device mountPoint s).map some id)
  | .unmount mountPoint => (unmount mountPoint s).map fun r => r.map some id

/-- The state after a call, if it is defined. -/
def step (s : Option State) (c : Call) : Option State := s.bind fun s => (call s c).map Prod.snd

/-! ### The abstract table -/

/-- What a mounted slot holds. -/
structure Mounting where
  device : CString
  path : CString
  deriving DecidableEq

abbrev Mounts := Slot → Option Mounting

namespace Mounts

variable (a : Mounts)

/-- Mount in the lowest empty slot. -/
def mount (device path : CString) : Bool × Mounts :=
  match firstSlot (fun e : Option Mounting => e = none) a with
  | none => (false, a)
  | some i => (true, Function.update a i (some ⟨device.truncate 31, path.truncate 31⟩))

/-- Empty the lowest slot with the given path. -/
def unmount (path : CString) : Bool × Mounts :=
  match firstSlot (fun e : Option Mounting => e.map Mounting.path = some path) a with
  | none => (false, a)
  | some i => (true, Function.update a i none)

def call : Call → Option Bool × Mounts
  | .init => (none, fun _ => none)
  | .mount device mountPoint => (a.mount device mountPoint).map some id
  | .unmount mountPoint => (a.unmount mountPoint).map some id

/-- The abstract table after a call. -/
def step (c : Call) : Mounts := (a.call c).2

/-- Mounting fails exactly when all slots are full. -/
theorem mount_fails_iff (device path : CString) :
    (a.mount device path).1 = false ↔ ∀ i, a i ≠ none := by
  rw [mount]
  cases found : firstSlot (fun e : Option Mounting => e = none) a with
  | none => exact iff_of_true rfl (firstSlot_eq_none.mp found)
  | some i => exact iff_of_false Bool.noConfusion fun full => full i (holds_of_firstSlot found)

/-- Unmounting fails exactly when no slot has the path. -/
theorem unmount_fails_iff (path : CString) :
    (a.unmount path).1 = false ↔ ∀ i, (a i).map Mounting.path ≠ some path := by
  rw [unmount]
  cases found : firstSlot (fun e : Option Mounting => e.map Mounting.path = some path) a with
  | none => exact iff_of_true rfl (firstSlot_eq_none.mp found)
  | some i => exact iff_of_false Bool.noConfusion fun full => full i (holds_of_firstSlot found)

end Mounts

/-! ### The concrete table represents it -/

/-- The occupied slots hold the names of the abstract table, and the last byte of every field is
NUL. -/
structure Represents (t : Slot → MountPoint) (a : Mounts) : Prop where
  ends : ∀ i, (t i).device 31 = 0#8 ∧ (t i).path 31 = 0#8
  mounted : ∀ i, (t i).mounted = (a i).isSome
  holds : ∀ i m, a i = some m → Holds (t i).device m.device ∧ Holds (t i).path m.path

theorem represents_static (memory : Memory.State) :
    Represents (static memory).mountPoints fun _ => none where
  ends _ := ⟨rfl, rfl⟩
  mounted _ := rfl
  holds i m none := by cases none

section Represents

variable {s : State} {a : Mounts} (rel : Represents s.mountPoints a)

include rel

theorem Represents.init : Represents (init s).mountPoints fun _ => none where
  ends := rel.ends
  mounted _ := rfl
  holds i m none := by cases none

/-- A free slot is an empty one. -/
theorem Represents.firstFree :
    firstSlot (fun m : MountPoint => m.mounted = false) s.mountPoints =
      firstSlot (fun e : Option Mounting => e = none) a := by
  have free (i : Slot) : (s.mountPoints i).mounted = false ↔ a i = none := by
    rw [rel.mounted i, Option.isSome_eq_false_iff, Option.isNone_iff_eq_none]
  cases found : firstSlot (fun e : Option Mounting => e = none) a with
  | none => exact firstSlot_eq_none.mpr fun i mem => firstSlot_eq_none.mp found i ((free i).mp mem)
  | some i =>
      obtain ⟨here, lowest⟩ := firstSlot_eq_some.mp found
      exact firstSlot_eq_some.mpr ⟨(free i).mpr here, fun j below mem =>
        lowest j below ((free j).mp mem)⟩

/-- One slot is rewritten in both tables. -/
theorem Represents.update (i : Slot) {m : MountPoint} {e : Option Mounting}
    (ends : m.device 31 = 0#8 ∧ m.path 31 = 0#8) (mounted : m.mounted = e.isSome)
    (holds : ∀ x, e = some x → Holds m.device x.device ∧ Holds m.path x.path) :
    Represents (Function.update s.mountPoints i m) (Function.update a i e) := by
  refine ⟨fun j => ?_, fun j => ?_, fun j x held => ?_⟩
  all_goals by_cases same : j = i
  · rw [same, Function.update_self]
    exact ends
  · rw [Function.update_of_ne same]
    exact rel.ends j
  · rw [same, Function.update_self, Function.update_self]
    exact mounted
  · rw [Function.update_of_ne same, Function.update_of_ne same]
    exact rel.mounted j
  · rw [same, Function.update_self] at held ⊢
    exact holds x held
  · rw [Function.update_of_ne same] at held ⊢
    exact rel.holds j x held

theorem Represents.mount (device mountPoint : CString) :
    (mount device mountPoint s).1 = (a.mount device mountPoint).1 ∧
    Represents (mount device mountPoint s).2.mountPoints (a.mount device mountPoint).2 := by
  rw [FileSystem.mount, Mounts.mount, rel.firstFree]
  cases firstSlot (fun e : Option Mounting => e = none) a with
  | none => exact ⟨rfl, rel⟩
  | some i =>
      obtain ⟨device_ends, path_ends⟩ := rel.ends i
      -- Only byte 31 is left to what the field held before.
      have last {j : Fin 32} (past : 31 ≤ j.val) : j = 31 := by omega
      refine ⟨rfl, rel.update i ⟨?_, ?_⟩ rfl ?_⟩
      · exact (strncpy_of_le _ device le_rfl).trans device_ends
      · exact (strncpy_of_le _ mountPoint le_rfl).trans path_ends
      · rintro _ ⟨⟩
        exact ⟨holds_strncpy (by decide) (fun j past => last past ▸ device_ends) device,
          holds_strncpy (by decide) (fun j past => last past ▸ path_ends) mountPoint⟩

/-- The condition of `unmount` is defined, and tells whether the slot has the path. -/
theorem Represents.pathMatches (mountPoint : CString) (i : Slot) :
    pathMatches mountPoint s i = some (decide ((a i).map Mounting.path = some mountPoint)) := by
  rw [FileSystem.pathMatches, rel.mounted i]
  cases held : a i with
  | none => rfl
  | some m =>
      obtain ⟨z, compared, zero⟩ := strcmp_holds (rel.holds i m held).2 mountPoint
      rw [compared]
      simp only [Option.isSome_some, if_true, Option.map_some, zero, Option.some.injEq]

theorem Represents.unmount (mountPoint : CString) :
    ∃ s', unmount mountPoint s = some ((a.unmount mountPoint).1, s') ∧
      Represents s'.mountPoints (a.unmount mountPoint).2 ∧
      ((a.unmount mountPoint).1 = false → s' = s) := by
  rw [FileSystem.unmount, Mounts.unmount, findM?_eq_firstSlot
    (P := fun e : Option Mounting => e.map Mounting.path = some mountPoint) (t := a)
    (rel.pathMatches mountPoint)]
  cases firstSlot (fun e : Option Mounting => e.map Mounting.path = some mountPoint) a with
  | none => exact ⟨s, rfl, rel, fun _ => rfl⟩
  | some i => exact ⟨_, rfl, rel.update i (rel.ends i) rfl nofun, nofun⟩

/-- A call is defined, returns what it should, and does to the abstract table what it should;
one that fails changes nothing at all. -/
theorem Represents.call (c : Call) :
    ∃ s', call s c = some ((a.call c).1, s') ∧ Represents s'.mountPoints (a.step c) ∧
      ((a.call c).1 = some false → s' = s) := by
  cases c with
  | init => exact ⟨_, rfl, rel.init, nofun⟩
  | mount device mountPoint =>
      obtain ⟨returns, rel'⟩ := rel.mount device mountPoint
      refine ⟨_, congrArg (fun b => some (some b, _)) returns, rel', fun failed => ?_⟩
      replace failed := returns.trans (Option.some.inj failed)
      revert failed
      rw [FileSystem.mount]
      split
      · exact fun _ => rfl
      · exact nofun
  | unmount mountPoint =>
      obtain ⟨s', defined, rel', unchanged⟩ := rel.unmount mountPoint
      refine ⟨s', ?_, rel', fun failed => unchanged (Option.some.inj failed)⟩
      rw [FileSystem.call, defined]
      rfl

end Represents

/-! ### Runs -/

/-- After the calls of a run: the state is defined and represents the abstract table. -/
theorem represents_run (memory : Memory.State) (calls : List Call) :
    ∃ s, run step (some (static memory)) calls = some s ∧
      Represents s.mountPoints (run Mounts.step (fun _ => none) calls) := by
  have preserved (p : Option State × Mounts) (c : Call)
      (inv : ∃ s, p.1 = some s ∧ Represents s.mountPoints p.2) :
      ∃ s, step p.1 c = some s ∧ Represents s.mountPoints (p.2.step c) := by
    obtain ⟨s, defined, rel⟩ := inv
    obtain ⟨s', called, rel', -⟩ := rel.call c
    exact ⟨s', by rw [defined, step, Option.bind_some, called]; rfl, rel'⟩
  have along := @run_invariant (Option State × Mounts) Call (fun p c => (step p.1 c, p.2.step c)) _
    preserved (some (static memory), fun _ => none) ⟨_, rfl, represents_static memory⟩ calls
  rwa [run_prod] at along

/-- What the concrete table does is what the abstract one says. -/
structure Agrees (s : State) (a : Mounts) : Prop where
  represents : Represents s.mountPoints a
  /-- Every call is defined, so that `strcmp` stays inside the fields, and returns what it
  should. -/
  returns : ∀ c, (call s c).map Prod.fst = some (a.call c).1
  mount_fails : ∀ device mountPoint,
    call s (.mount device mountPoint) = some (some false, s) ↔ ∀ i, a i ≠ none
  unmount_fails : ∀ mountPoint,
    call s (.unmount mountPoint) = some (some false, s) ↔
      ∀ i, (a i).map Mounting.path ≠ some mountPoint
  /-- A call that fails changes nothing. -/
  unchanged : ∀ c s', call s c = some (some false, s') → s' = s

theorem Represents.agrees {s : State} {a : Mounts} (rel : Represents s.mountPoints a) :
    Agrees s a := by
  have fails_iff (c : Call) :
      FileSystem.call s c = some (some false, s) ↔ (a.call c).1 = some false := by
    obtain ⟨s', called, -, unchanged⟩ := rel.call c
    rw [called, Option.some.injEq, Prod.mk.injEq]
    exact ⟨And.left, fun failed => ⟨failed, unchanged failed⟩⟩
  refine ⟨rel, fun c => ?_, fun device mountPoint => ?_, fun mountPoint => ?_,
    fun c s' failed => ?_⟩
  · obtain ⟨s', called, -⟩ := rel.call c
    rw [called]
    rfl
  · rw [fails_iff, ← a.mount_fails_iff device mountPoint]
    exact Option.some_inj
  · rw [fails_iff, ← a.unmount_fails_iff mountPoint]
    exact Option.some_inj
  · obtain ⟨_, called, -, unchanged⟩ := rel.call c
    rw [called, Option.some.injEq, Prod.mk.injEq] at failed
    exact failed.2 ▸ unchanged failed.1

/-- **The mount table is a map from slots to mountings**: after every run of `init`, `mount` and
`unmount` from the static variables, with any strings. -/
theorem mounts_refine (memory : Memory.State) (calls : List Call) :
    ∃ s, run step (some (static memory)) calls = some s ∧
      Agrees s (run Mounts.step (fun _ => none) calls) := by
  obtain ⟨s, reached, rel⟩ := represents_run memory calls
  exact ⟨s, reached, rel.agrees⟩

end ModernOS.FileSystem
