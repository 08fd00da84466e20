import ModernOS.Lib.Ownership
import ModernOS.Lib.Transition
import Mathlib.Data.List.Nodup

/-!
The handles of `include/filesystem.h`.

A `FileHandle` that is open holds a descriptor, and its destructor closes it; a move takes the
descriptor to another handle, and a move assignment closes what its target holds first. Each
descriptor that is not closed has one open handle, which knows its path, mode and position, and
each is closed once (`heldOnce_closedOnce`).

`close`, `read`, `write` and `seek` are declared and not defined. `close` is a parameter, from a
handle to what it makes of the members; it has no handle twice, so that a function is enough. Of
the others only the position counts that they leave.
-/

namespace ModernOS.FileSystem.Handle

open Transition Ownership

abbrev FileDescriptor := BitVec 32

abbrev INVALID_FD : FileDescriptor := -1#32

/-- The characters of a `std::string`. -/
abbrev Path := List (BitVec 8)

/-- `AccessMode`, an enumeration over `uint8_t`. -/
structure AccessMode where
  code : BitVec 8
  deriving DecidableEq, Repr

/-- What a handle knows about its file. -/
structure File where
  path : Path
  mode : AccessMode
  position : BitVec 64
  deriving DecidableEq, Repr

structure FileHandle where
  fd : FileDescriptor
  path : Path
  mode : AccessMode
  position : BitVec 64
  isOpen : Bool
  deriving DecidableEq, Repr

namespace FileHandle

/-- The constructor. -/
def make (fd : FileDescriptor) (path : Path) (mode : AccessMode) : FileHandle :=
  ⟨fd, path, mode, 0#64, true⟩

/-- What a move leaves behind, with the path that `std::move` leaves. -/
def moved (handle : FileHandle) (left : Path) : FileHandle :=
  { handle with fd := INVALID_FD, path := left, isOpen := false }

def file (handle : FileHandle) : File := ⟨handle.path, handle.mode, handle.position⟩

/-- The descriptor of the handle, if it is open. -/
def held (handle : FileHandle) : Option FileDescriptor :=
  if handle.isOpen then some handle.fd else none

end FileHandle

/-- The handles that exist; the file of each descriptor that a handle has been made of; and the
descriptors that `close` has been called with. -/
structure State (ι : Type*) where
  objects : ι → Option FileHandle
  files : FileDescriptor → Option File
  closed : List FileDescriptor

/-- What is done with handles. -/
inductive Op (ι : Type*) where
  | construct (i : ι) (fd : FileDescriptor) (path : Path) (mode : AccessMode)
  | moveConstruct (target source : ι) (left : Path)
  | moveAssign (target source : ι) (left : Path)
  /-- A `read`, `write` or `seek`. -/
  | access (i : ι) (position : BitVec 64)
  | close (i : ι)
  | destroy (i : ι)

variable {ι : Type*} [DecidableEq ι]

/-- The target gets the members of the source. -/
def moveTo (s : State ι) (target source : ι) (left : Path) : State ι :=
  match s.objects source with
  | some other =>
      { s with
        objects :=
          Function.update (Function.update s.objects target (some other)) source
            (some (other.moved left)) }
  | none => s

section Close

variable (close : FileHandle → FileHandle)

/-- A call of `close`. -/
def callClose (s : State ι) (i : ι) : State ι :=
  match s.objects i with
  | some handle =>
      { s with
        objects := Function.update s.objects i (some (close handle))
        closed := handle.fd :: s.closed }
  | none => s

/-- `if (is_open_.load()) close();` -/
def closeIfOpen (s : State ι) (i : ι) : State ι :=
  if (s.objects i).any (·.isOpen) then callClose close s i else s

def step (s : State ι) : Op ι → State ι
  | .construct i fd path mode =>
      { s with
        objects := Function.update s.objects i (some (.make fd path mode))
        files := Function.update s.files fd (some (FileHandle.make fd path mode).file) }
  | .moveConstruct target source left => moveTo s target source left
  | .moveAssign target source left =>
      -- `if (this != &other)`
      if target = source then s else moveTo (closeIfOpen close s target) target source left
  | .access i position =>
      match s.objects i with
      | some handle =>
          { s with
            objects := Function.update s.objects i (some { handle with position := position })
            files := Function.update s.files handle.fd
              (some { handle.file with position := position }) }
      | none => s
  | .close i => callClose close s i
  | .destroy i =>
      let s' := closeIfOpen close s i
      { s' with objects := Function.update s'.objects i none }

end Close

/-- No handle exists. -/
def initial : State ι := ⟨fun _ => none, fun _ => none, []⟩

/-- The operation is on handles that exist, `close` and the accesses on open ones, and a handle is
made of a descriptor that is new. -/
def Allowed (s : State ι) : Op ι → Prop
  | .construct i fd _ _ => s.objects i = none ∧ s.files fd = none
  | .moveConstruct target source _ => s.objects target = none ∧ s.objects source ≠ none
  | .moveAssign target source _ => s.objects target ≠ none ∧ s.objects source ≠ none
  | .access i _ | .close i => (s.objects i).any (·.isOpen)
  | .destroy i => s.objects i ≠ none

/-- The descriptor that a handle is open on. -/
def heldBy (s : State ι) : ι → Option FileDescriptor :=
  (fun object => object.bind (·.held)) ∘ s.objects

/-- A descriptor that has not been closed is held by exactly one open handle, which knows its
file. -/
def HeldOnce (s : State ι) : Prop :=
  ∀ fd file, s.files fd = some file → fd ∉ s.closed →
    (∃! i, heldBy s i = some fd) ∧
      ∀ i, heldBy s i = some fd → (s.objects i).map (·.file) = some file

/-- `close` has run once with each descriptor, and with nothing else. -/
def ClosedOnce (s : State ι) : Prop :=
  ∀ fd, s.closed.count fd = if (s.files fd).isSome then 1 else 0

/-- The descriptors that have not been closed. -/
def unclosed (s : State ι) : Set FileDescriptor := {fd | s.files fd ≠ none ∧ fd ∉ s.closed}

/-- Each open handle knows the file of its descriptor. -/
def Knows (objects : ι → Option FileHandle) (files : FileDescriptor → Option File) : Prop :=
  ∀ i handle, objects i = some handle → handle.isOpen → files handle.fd = some handle.file

/-- The open handles hold the descriptors that have not been closed, each of them once, and know
their files; none has been closed twice. -/
structure Inv (s : State ι) : Prop where
  owners : OwnsExactly (heldBy s) (unclosed s)
  knows : Knows s.objects s.files
  opened : ∀ fd ∈ s.closed, s.files fd ≠ none
  nodup : s.closed.Nodup

section Knows

variable {objects : ι → Option FileHandle} {files : FileDescriptor → Option File}

theorem Knows.update (knows : Knows objects files) {i : ι} {object : Option FileHandle}
    (here : ∀ handle, object = some handle → handle.isOpen →
      files handle.fd = some handle.file) : Knows (Function.update objects i object) files := by
  intro j handle live isOpen
  rcases update_eq_some_iff.mp live with ⟨-, same⟩ | ⟨-, before⟩
  · exact here handle same isOpen
  · exact knows j handle before isOpen

omit [DecidableEq ι] in
/-- The file of a descriptor is changed that no handle is open on. -/
theorem Knows.update_files (knows : Knows objects files) {fd : FileDescriptor}
    {file : Option File} (free : ∀ i handle, objects i = some handle → handle.isOpen →
      handle.fd ≠ fd) : Knows objects (Function.update files fd file) := by
  intro j handle live isOpen
  rw [Function.update_of_ne (free j handle live isOpen)]
  exact knows j handle live isOpen

end Knows

section Step

variable {s : State ι}

omit [DecidableEq ι] in
theorem inv_initial : Inv (initial : State ι) where
  owners := by
    have none : unclosed (initial : State ι) = ∅ :=
      Set.eq_empty_of_forall_notMem fun _ held => held.1 rfl
    rw [none]
    exact ownsExactly_empty
  knows _ _ live := by cases live
  opened _ ended := absurd ended List.not_mem_nil
  nodup := List.nodup_nil

theorem heldBy_update {objects : ι → Option FileHandle} {i : ι} {object : Option FileHandle}
    {files : FileDescriptor → Option File} {closed : List FileDescriptor} :
    heldBy ⟨Function.update objects i object, files, closed⟩ =
      Function.update (heldBy ⟨objects, files, closed⟩) i (object.bind (·.held)) :=
  Function.comp_update ..

omit [DecidableEq ι] in
theorem heldBy_eq {i : ι} {object : Option FileHandle} (here : s.objects i = object) :
    heldBy s i = object.bind (·.held) := congrArg (Option.bind · _) here

omit [DecidableEq ι] in
theorem heldBy_of_open {i : ι} {handle : FileHandle} (live : s.objects i = some handle)
    (isOpen : handle.isOpen) : heldBy s i = some handle.fd := by
  rw [heldBy_eq live]
  exact if_pos isOpen

omit [DecidableEq ι] in
theorem heldBy_eq_some_iff {i : ι} {fd : FileDescriptor} :
    heldBy s i = some fd ↔
      ∃ handle, s.objects i = some handle ∧ handle.isOpen ∧ handle.fd = fd := by
  simp [heldBy, FileHandle.held, Option.bind_eq_some_iff]

omit [DecidableEq ι] in
theorem Inv.heldOnce (inv : Inv s) : HeldOnce s := by
  intro fd file known alive
  have valid : s.files fd ≠ none := by simp [known]
  refine ⟨inv.owners.existsUnique ⟨valid, alive⟩, fun i held => ?_⟩
  obtain ⟨handle, live, isOpen, rfl⟩ := heldBy_eq_some_iff.mp held
  rw [live, ← known, inv.knows i handle live isOpen]
  rfl

omit [DecidableEq ι] in
/-- Once no handle is left, there is no descriptor that has not been closed. -/
theorem Inv.closedOnce (inv : Inv s) (gone : ∀ i, s.objects i = none) : ClosedOnce s := by
  intro fd
  cases known : s.files fd with
  | none =>
      have never : fd ∉ s.closed := fun ended => inv.opened fd ended known
      exact List.count_eq_zero.mpr never
  | some file =>
      refine List.count_eq_one_of_mem inv.nodup (by_contra fun alive => ?_)
      have valid : s.files fd ≠ none := by simp [known]
      obtain ⟨i, held, -⟩ := inv.owners.existsUnique ⟨valid, alive⟩
      rw [heldBy_eq (gone i)] at held
      cases held

/-- A new handle gets a new descriptor. -/
theorem Inv.construct {close : FileHandle → FileHandle} (inv : Inv s) {i : ι}
    {fd : FileDescriptor} {path : Path} {mode : AccessMode}
    (allowed : Allowed s (.construct i fd path mode)) :
    Inv (step close s (.construct i fd path mode)) := by
  obtain ⟨vacant, new⟩ := allowed
  have alive : fd ∉ s.closed := fun ended => inv.opened fd ended new
  have held : heldBy (step close s (.construct i fd path mode)) =
      Function.update (heldBy s) i (some fd) := heldBy_update
  have left : unclosed (step close s (.construct i fd path mode)) = insert fd (unclosed s) := by
    ext fd'
    by_cases same : fd' = fd <;> simp [unclosed, step, Function.update_apply, same, alive]
  refine ⟨?_, ?_, fun fd' ended => ?_, inv.nodup⟩
  · rw [held, left]
    exact inv.owners.give (heldBy_eq vacant) fun before => before.1 new
  · refine Knows.update (inv.knows.update_files ?_) ?_
    · rintro j handle live isOpen rfl
      have known := inv.knows j handle live isOpen
      rw [new] at known
      cases known
    · rintro handle ⟨⟩ -
      exact Function.update_self ..
  · by_cases same : fd' = fd
    · exact absurd (same ▸ ended) alive
    · show Function.update s.files fd _ fd' ≠ none
      rw [Function.update_of_ne same]
      exact inv.opened fd' ended

/-- The state after an access to an open handle. -/
theorem access_of_live {close : FileHandle → FileHandle} {i : ι} {handle : FileHandle}
    (live : s.objects i = some handle) (position : BitVec 64) :
    step close s (.access i position) =
      ⟨Function.update s.objects i (some { handle with position := position }),
        Function.update s.files handle.fd (some { handle.file with position := position }),
        s.closed⟩ := by
  rw [step, live]

/-- A handle is left at another position. -/
theorem Inv.access {close : FileHandle → FileHandle} (inv : Inv s) {i : ι} {position : BitVec 64}
    (allowed : Allowed s (.access i position)) : Inv (step close s (.access i position)) := by
  obtain ⟨handle, live, isOpen⟩ := (Option.any_eq_true _ _).mp allowed
  have known := inv.knows i handle live isOpen
  have here := heldBy_of_open live isOpen
  have valid (fd : FileDescriptor) (file : File) :
      Function.update s.files handle.fd (some file) fd ≠ none ↔ s.files fd ≠ none := by
    by_cases same : fd = handle.fd <;> simp [same, known]
  rw [access_of_live live]
  refine ⟨?_, ?_, fun fd ended => (valid fd _).mpr (inv.opened fd ended), inv.nodup⟩
  · have held : (some { handle with position := position }).bind (·.held) = heldBy s i :=
      here ▸ if_pos isOpen
    have left : unclosed ⟨s.objects, Function.update s.files handle.fd
        (some { handle.file with position := position }), s.closed⟩ = unclosed s :=
      Set.ext fun fd => and_congr_left' (valid fd _)
    rw [heldBy_update, held]
    exact left ▸ (Function.update_eq_self i (heldBy s)).symm ▸ inv.owners
  · intro j other live' isOpen'
    rcases update_eq_some_iff.mp live' with ⟨-, ⟨⟩⟩ | ⟨elsewhere, before⟩
    · exact Function.update_self ..
    · -- No other handle is open on the descriptor
      have apart : other.fd ≠ handle.fd := by
        intro same
        have unique := inv.owners.existsUnique (inv.owners.mem here)
        exact elsewhere (unique.unique (same ▸ heldBy_of_open before isOpen') here)
      show Function.update s.files handle.fd _ other.fd = some other.file
      rw [Function.update_of_ne apart]
      exact inv.knows j other before isOpen'

/-- A handle that holds nothing takes over the descriptor of another one. -/
theorem Inv.move (inv : Inv s) {target source : ι} (other : target ≠ source)
    (live : s.objects source ≠ none) (vacant : heldBy s target = none) {left : Path} :
    Inv (moveTo s target source left) := by
  obtain ⟨handle, here⟩ := Option.ne_none_iff_exists'.mp live
  have gone : (some (handle.moved left)).bind (·.held) = none := rfl
  rw [moveTo, here]
  refine ⟨?_, Knows.update (inv.knows.update ?_) ?_, inv.opened, inv.nodup⟩
  · rw [heldBy_update, heldBy_update, gone, ← heldBy_eq here]
    exact inv.owners.move_to_vacant other vacant
  · rintro _ ⟨⟩ isOpen
    exact inv.knows source handle here isOpen
  · rintro _ ⟨⟩ isOpen
    cases isOpen

/-- A handle that holds nothing is destroyed. -/
theorem Inv.remove (inv : Inv s) {i : ι} (vacant : heldBy s i = none) :
    Inv { s with objects := Function.update s.objects i none } := by
  refine ⟨?_, inv.knows.update fun _ live => ?_, inv.opened, inv.nodup⟩
  · have same : Function.update (heldBy s) i none = heldBy s := by
      rw [← vacant, Function.update_eq_self]
    rw [heldBy_update, Option.bind_none]
    exact same.symm ▸ inv.owners
  · cases live

variable {close : FileHandle → FileHandle}

theorem callClose_of_live {i : ι} {handle : FileHandle} (live : s.objects i = some handle) :
    callClose close s i =
      ⟨Function.update s.objects i (some (close handle)), s.files, handle.fd :: s.closed⟩ := by
  rw [callClose, live]

theorem callClose_objects_of_ne {i j : ι} (other : j ≠ i) :
    (callClose close s i).objects j = s.objects j := by
  unfold callClose
  split
  · exact Function.update_of_ne other ..
  · rfl

theorem closeIfOpen_objects_of_ne {i j : ι} (other : j ≠ i) :
    (closeIfOpen close s i).objects j = s.objects j := by
  unfold closeIfOpen
  split
  · exact callClose_objects_of_ne other
  · rfl

section Closes

variable (closes : ∀ handle, (close handle).isOpen = false)

include closes

theorem heldBy_callClose (i : ι) : heldBy (callClose close s i) i = none := by
  cases live : s.objects i with
  | none => rw [callClose, live, heldBy_eq live]; rfl
  | some handle =>
      rw [callClose_of_live live, heldBy_update, Function.update_self]
      exact if_neg (by simp [closes])

/-- An open handle is closed. -/
theorem Inv.close_open (inv : Inv s) {i : ι} (isOpen : (s.objects i).any (·.isOpen)) :
    Inv (callClose close s i) := by
  obtain ⟨handle, live, isOpen⟩ := (Option.any_eq_true _ _).mp isOpen
  have here := heldBy_of_open live isOpen
  have alive := inv.owners.mem here
  rw [callClose_of_live live]
  refine ⟨?_, inv.knows.update fun _ same isOpen' => ?_, fun fd ended => ?_, ?_⟩
  · have nothing : (some (close handle)).bind (·.held) = none := if_neg (by simp [closes])
    have left : unclosed ⟨Function.update s.objects i (some (close handle)), s.files,
        handle.fd :: s.closed⟩ = {fd ∈ unclosed s | heldBy s i ≠ some fd} := by
      ext fd
      simp [unclosed, here, and_assoc, and_comm, eq_comm]
    rw [heldBy_update, nothing, left]
    exact inv.owners.drop i
  · cases same
    rw [closes] at isOpen'
    cases isOpen'
  · rcases List.mem_cons.mp ended with rfl | before
    · exact alive.1
    · exact inv.opened fd before
  · exact List.nodup_cons.mpr ⟨alive.2, inv.nodup⟩

theorem Inv.closeIfOpen (inv : Inv s) (i : ι) : Inv (closeIfOpen close s i) := by
  unfold Handle.closeIfOpen
  split
  · rename_i isOpen
    exact inv.close_open closes isOpen
  · exact inv

theorem heldBy_closeIfOpen (i : ι) : heldBy (closeIfOpen close s i) i = none := by
  unfold closeIfOpen
  split
  · exact heldBy_callClose closes i
  · rename_i notOpen
    cases held : heldBy s i with
    | none => rfl
    | some fd =>
        obtain ⟨handle, live, isOpen, -⟩ := heldBy_eq_some_iff.mp held
        exact absurd ((Option.any_eq_true _ _).mpr ⟨handle, live, isOpen⟩) notOpen

theorem step_inv (inv : Inv s) {op : Op ι} (allowed : Allowed s op) : Inv (step close s op) := by
  cases op with
  | construct i fd path mode => exact inv.construct allowed
  | moveConstruct target source left =>
      obtain ⟨vacant, live⟩ := allowed
      have other := ne_of_vacant vacant live
      exact inv.move other live (heldBy_eq vacant)
  | moveAssign target source left =>
      rw [step]
      split
      · exact inv
      · rename_i other
        refine (inv.closeIfOpen closes target).move other ?_ (heldBy_closeIfOpen closes target)
        rw [closeIfOpen_objects_of_ne (Ne.symm other)]
        exact allowed.2
  | access i position => exact inv.access allowed
  | close i => exact inv.close_open closes allowed
  | destroy i => exact (inv.closeIfOpen closes i).remove (heldBy_closeIfOpen closes i)

end Closes

end Step

/-- The members as `close` may leave them. -/
def emptied (handle : FileHandle) : FileHandle := { handle with fd := INVALID_FD, isOpen := false }

/-- A handle at position 100 is moved to a third one and from there to the second, which closes its
own descriptor first. -/
def moves : List (Op (Fin 3)) :=
  [.construct 0 3#32 [97#8] ⟨0#8⟩, .access 0 100#64, .construct 1 4#32 [98#8] ⟨2#8⟩,
    .moveConstruct 2 0 [], .moveAssign 1 2 [], .moveAssign 1 1 [], .destroy 0, .destroy 1,
    .destroy 2]

end ModernOS.FileSystem.Handle
