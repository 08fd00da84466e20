import ModernOS.Boot.Model
import ModernOS.Lib.Transcript
import ModernOS.Lib.Ledger

/-!
What the bootloader holds of the firmware.

A call that succeeds may hand over a file, a buffer of the pool, pages or an event, which the
bootloader has to give back; `holdings` says which calls do so, and which need what they are given.
A buffer that the firmware allocates itself is to be freed as well: that of the handles, and that
of the information about a mode.
-/

namespace ModernOS.Boot

/-- What is held of the firmware. -/
inductive Resource where
  | file (file : Pointer)
  | pool (buffer : Pointer)
  | pages (address : Pointer) (pages : Size)
  | event (event : Pointer)
  deriving DecidableEq, Repr

/-- The pages at this address. -/
def Resource.isPagesAt (address : Pointer) : Resource → Bool
  | .pages address' _ => address' = address
  | _ => false

/-- What a call hands over that returns this status. -/
def handedOver (status : Status) (resource : Resource) : Multiset Resource :=
  if efiError status then 0 else {resource}

def takes : Exchange uefi → Multiset Resource
  | ⟨.locateHandleBuffer _, located⟩ => handedOver located.status (.pool located.buffer)
  | ⟨.queryMode .., queried⟩ => handedOver queried.status (.pool queried.buffer)
  | ⟨.openVolume _, root⟩ => handedOver root.status (.file root.pointer)
  | ⟨.openFile .., file⟩ => handedOver file.status (.file file.pointer)
  | ⟨.allocatePool _, pool⟩ => handedOver pool.status (.pool pool.pointer)
  | ⟨.allocatePages pages _, memory⟩ => handedOver memory.status (.pages memory.pointer pages)
  | ⟨.createTimerEvent, timer⟩ => handedOver timer.status (.event timer.pointer)
  | _ => 0

def frees : Exchange uefi → Multiset Resource
  | ⟨.close file, _⟩ => {.file file}
  | ⟨.freePool buffer, _⟩ => {.pool buffer}
  | ⟨.freePages address pages, _⟩ => {.pages address pages}
  | ⟨.closeEvent event, _⟩ => {.event event}
  | _ => 0

/-- What a call works on. A file is read into the pages at the buffer. -/
def needs : Exchange uefi → List (Resource → Bool)
  | ⟨.openFile root _, _⟩ => [(· = .file root)]
  | ⟨.getInfo file _ buffer, _⟩ => [(· = .file file), (· = .pool buffer)]
  | ⟨.read file _ buffer, _⟩ => [(· = .file file), Resource.isPagesAt buffer]
  | ⟨.getMemoryMap _ (some buffer), _⟩ => [(· = .pool buffer)]
  | ⟨.setTimer event _, _⟩ | ⟨.waitForKeyOr event, _⟩ => [(· = .event event)]
  | _ => []

/-- The accounts of what is held of the firmware. -/
def holdings : Accounts (Exchange uefi) Resource where
  needs := needs
  frees := frees
  takes := takes

/-! ### The ledger, call by call -/

theorem handedOver_of_error {status : Status} (failed : efiError status) (resource : Resource) :
    handedOver status resource = 0 := if_pos failed

theorem handedOver_of_success {status : Status} (succeeded : ¬ efiError status)
    (resource : Resource) : handedOver status resource = {resource} := if_neg succeeded

section Ledger

variable {t : Transcript uefi} {held : Multiset Resource}

/-- A call that takes nothing, gives nothing back and works on nothing. -/
theorem after_other {e : Exchange uefi} (none : needs e = []) (kept : frees e = 0)
    (idle : takes e = 0) : holdings.after (e :: t) held = holdings.after t held := by
  have nothing : ∀ need ∈ holdings.needs e, ∃ r ∈ held, need r := by
    rw [show holdings.needs e = [] from none]
    exact fun need mem => absurd mem List.not_mem_nil
  rw [Accounts.after_use nothing kept, show holdings.takes e = 0 from idle, zero_add]

/-- What is held can be worked on. -/
theorem works_on {resource : Resource} (mem : resource ∈ held) :
    ∃ r ∈ held, decide (r = resource) = true := ⟨resource, mem, decide_eq_true rfl⟩

/-- A call that works on something that is held, and gives nothing back. -/
theorem after_work {e : Exchange uefi} {need : Resource → Bool} (one : needs e = [need])
    (kept : frees e = 0) (works : ∃ r ∈ held, need r) :
    holdings.after (e :: t) held = holdings.after t (takes e + held) := by
  refine Accounts.after_use ?_ kept
  rw [show holdings.needs e = [need] from one]
  exact List.forall_mem_singleton.mpr works

/-- A call that works on two things, takes nothing and gives nothing back. -/
theorem after_work_on_two {e : Exchange uefi} {need need' : Resource → Bool}
    (two : needs e = [need, need']) (kept : frees e = 0) (idle : takes e = 0)
    (works : ∃ r ∈ held, need r) (works' : ∃ r ∈ held, need' r) :
    holdings.after (e :: t) held = holdings.after t held := by
  have ready : ∀ n ∈ holdings.needs e, ∃ r ∈ held, n r := by
    rw [show holdings.needs e = [need, need'] from two]
    exact List.forall_mem_cons.mpr ⟨works, List.forall_mem_singleton.mpr works'⟩
  rw [Accounts.after_use ready kept, show holdings.takes e = 0 from idle, zero_add]

theorem after_print {format : String} {arguments : List Argument} {r : Unit} :
    holdings.after (⟨.print format arguments, r⟩ :: t) held = holdings.after t held :=
  after_other rfl rfl rfl

theorem after_handleProtocol {handle : Pointer} {protocol : Protocol} {opened : Acquired} :
    holdings.after (⟨.handleProtocol handle protocol, opened⟩ :: t) held = holdings.after t held :=
  after_other rfl rfl rfl

theorem after_graphicsMode {gop : Pointer} {mode : GraphicsMode} :
    holdings.after (⟨.graphicsMode gop, mode⟩ :: t) held = holdings.after t held :=
  after_other rfl rfl rfl

theorem after_setMode {gop : Pointer} {mode : BitVec 32} {set : Completed} :
    holdings.after (⟨.setMode gop mode, set⟩ :: t) held = holdings.after t held :=
  after_other rfl rfl rfl

theorem after_locateHandleBuffer {protocol : Protocol} {located : HandleBuffer} :
    holdings.after (⟨.locateHandleBuffer protocol, located⟩ :: t) held =
      holdings.after t (handedOver located.status (.pool located.buffer) + held) :=
  Accounts.after_use (fun _ mem => absurd mem List.not_mem_nil) rfl

theorem after_queryMode {gop : Pointer} {mode : BitVec 32} {queried : QueriedMode} :
    holdings.after (⟨.queryMode gop mode, queried⟩ :: t) held =
      holdings.after t (handedOver queried.status (.pool queried.buffer) + held) :=
  Accounts.after_use (fun _ mem => absurd mem List.not_mem_nil) rfl

theorem after_openVolume {filesystem : Pointer} {root : Acquired} :
    holdings.after (⟨.openVolume filesystem, root⟩ :: t) held =
      holdings.after t (handedOver root.status (.file root.pointer) + held) :=
  Accounts.after_use (fun _ mem => absurd mem List.not_mem_nil) rfl

theorem after_openFile {root : Pointer} {name : String} {file : Acquired}
    (volume : .file root ∈ held) :
    holdings.after (⟨.openFile root name, file⟩ :: t) held =
      holdings.after t (handedOver file.status (.file file.pointer) + held) :=
  after_work rfl rfl (works_on volume)

theorem after_allocatePool {size : Size} {pool : Acquired} :
    holdings.after (⟨.allocatePool size, pool⟩ :: t) held =
      holdings.after t (handedOver pool.status (.pool pool.pointer) + held) :=
  Accounts.after_use (fun _ mem => absurd mem List.not_mem_nil) rfl

theorem after_getInfo {file buffer : Pointer} {size : Size} {info : Counted}
    (opened : .file file ∈ held) (allocated : .pool buffer ∈ held) :
    holdings.after (⟨.getInfo file size buffer, info⟩ :: t) held = holdings.after t held :=
  after_work_on_two rfl rfl rfl (works_on opened) (works_on allocated)

theorem after_allocatePages {pages : Size} {address : Pointer} {memory : Acquired} :
    holdings.after (⟨.allocatePages pages address, memory⟩ :: t) held =
      holdings.after t (handedOver memory.status (.pages memory.pointer pages) + held) :=
  Accounts.after_use (fun _ mem => absurd mem List.not_mem_nil) rfl

theorem after_read {file buffer : Pointer} {size : Size} {done : Counted}
    (opened : .file file ∈ held) (placed : ∃ pages, .pages buffer pages ∈ held) :
    holdings.after (⟨.read file size buffer, done⟩ :: t) held = holdings.after t held := by
  obtain ⟨pages, mem⟩ := placed
  have works : ∃ r ∈ held, Resource.isPagesAt buffer r := ⟨_, mem, decide_eq_true rfl⟩
  exact after_work_on_two rfl rfl rfl (works_on opened) works

theorem after_close {file : Pointer} {closed : Completed} (opened : .file file ∈ held) :
    holdings.after (⟨.close file, closed⟩ :: t) held =
      holdings.after t (held.erase (.file file)) :=
  Accounts.after_free rfl rfl rfl opened

theorem after_freePool {buffer : Pointer} {freed : Completed} (allocated : .pool buffer ∈ held) :
    holdings.after (⟨.freePool buffer, freed⟩ :: t) held =
      holdings.after t (held.erase (.pool buffer)) :=
  Accounts.after_free rfl rfl rfl allocated

theorem after_freePages {address : Pointer} {pages : Size} {freed : Completed}
    (allocated : .pages address pages ∈ held) :
    holdings.after (⟨.freePages address pages, freed⟩ :: t) held =
      holdings.after t (held.erase (.pages address pages)) :=
  Accounts.after_free rfl rfl rfl allocated

theorem after_getMemoryMap {size : Size} {buffer : Pointer} {map : MemoryMap}
    (allocated : .pool buffer ∈ held) :
    holdings.after (⟨.getMemoryMap size (some buffer), map⟩ :: t) held = holdings.after t held :=
  (after_work rfl rfl (works_on allocated)).trans (congrArg _ (zero_add held))

theorem after_createTimerEvent {timer : Acquired} :
    holdings.after (⟨.createTimerEvent, timer⟩ :: t) held =
      holdings.after t (handedOver timer.status (.event timer.pointer) + held) :=
  Accounts.after_use (fun _ mem => absurd mem List.not_mem_nil) rfl

theorem after_setTimer {event : Pointer} {time : Size} {set : Completed}
    (created : .event event ∈ held) :
    holdings.after (⟨.setTimer event time, set⟩ :: t) held = holdings.after t held :=
  (after_work rfl rfl (works_on created)).trans (congrArg _ (zero_add held))

theorem after_waitForKeyOr {event : Pointer} {waited : Counted} (created : .event event ∈ held) :
    holdings.after (⟨.waitForKeyOr event, waited⟩ :: t) held = holdings.after t held :=
  (after_work rfl rfl (works_on created)).trans (congrArg _ (zero_add held))

theorem after_readKeyStroke {read : Completed} :
    holdings.after (⟨.readKeyStroke, read⟩ :: t) held = holdings.after t held :=
  after_other rfl rfl rfl

theorem after_closeEvent {event : Pointer} {closed : Completed} (created : .event event ∈ held) :
    holdings.after (⟨.closeEvent event, closed⟩ :: t) held =
      holdings.after t (held.erase (.event event)) :=
  Accounts.after_free rfl rfl rfl created

end Ledger

end ModernOS.Boot
