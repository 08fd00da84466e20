import ModernOS.Process.Model

/-!
What a call can do to the process table.

`Event` lists the ways a call moves the table: a creation takes a slot, a
termination ends one, a switch dispatches one, or nothing happens. `View` is the
abstract table: the state of each slot, the counter and the current process.
`event` computes the event of a call from the state it is made in, and
`view_step` says that the call moves the view as its event does. The results
about runs use the events; none of them unfolds a function of the file again.
-/

namespace ModernOS.ProcessTable

open SlotTable

variable {μ : Type}

/-- The state of each slot. -/
def Table.states (k : Table μ) (i : Slot) : ProcessState := (k.processes i).state

/-- The abstract process table. -/
@[ext] structure View where
  states : Slot → ProcessState
  processCount : Word
  currentProcess : Option Slot

def Table.view (k : Table μ) : View := ⟨k.states, k.processCount, k.currentProcess⟩

/-- How a call moves the table. `taken i counted` is a creation that takes slot `i`;
`counted` is false when it fails afterwards, for want of memory. -/
inductive Event where
  | idle
  | taken (i : Slot) (counted : Bool)
  | ended (i : Slot)
  | dispatched (i : Slot)
  deriving DecidableEq, Repr

/-- The states after the outgoing process has been made ready. -/
def View.yielded (v : View) (i : Slot) : ProcessState :=
  if v.currentProcess = some i then .ready else v.states i

/-- The effect of an event on the abstract table. -/
def View.apply (v : View) : Event → View
  | .idle => v
  | .taken i counted =>
      { v with
        states := Function.update v.states i .ready
        processCount := if counted then v.processCount + 1#32 else v.processCount }
  | .ended i =>
      { v with
        states := Function.update v.states i .terminated
        processCount := v.processCount - 1#32 }
  | .dispatched i =>
      { v with states := Function.update v.yielded i .running, currentProcess := some i }

/-- When an event can happen: a creation takes a free slot while the counter is below the
limit, a switch dispatches a ready one. -/
def Event.Enabled (v : View) : Event → Prop
  | .idle => True
  | .taken i _ => v.states i = .terminated ∧ v.processCount.toNat < MAX_PROCESSES
  | .ended _ => True
  | .dispatched i => v.states i = .ready

section Apply

variable (v : View) (i j : Slot)

@[simp] theorem View.apply_taken_states (counted : Bool) :
    (v.apply (.taken i counted)).states j = if j = i then .ready else v.states j :=
  Function.update_apply ..

@[simp] theorem View.apply_ended_states :
    (v.apply (.ended i)).states j = if j = i then .terminated else v.states j :=
  Function.update_apply ..

@[simp] theorem View.apply_dispatched_states :
    (v.apply (.dispatched i)).states j = if j = i then .running else v.yielded j :=
  Function.update_apply ..

@[simp] theorem View.apply_taken_processCount (counted : Bool) :
    (v.apply (.taken i counted)).processCount =
      if counted then v.processCount + 1#32 else v.processCount := rfl

@[simp] theorem View.apply_ended_processCount :
    (v.apply (.ended i)).processCount = v.processCount - 1#32 := rfl

@[simp] theorem View.apply_dispatched_processCount :
    (v.apply (.dispatched i)).processCount = v.processCount := rfl

/-- Making the current process ready is rewriting its state. -/
theorem View.yielded_eq_update {c : Slot} (current : v.currentProcess = some c) :
    v.yielded = Function.update v.states c .ready := by
  funext k
  rw [View.yielded, current, Function.update_apply]
  simp only [Option.some.injEq, eq_comm]

theorem View.yielded_eq_states (none : v.currentProcess = none) : v.yielded = v.states := by
  funext k
  rw [View.yielded, none]
  rfl

end Apply

/-- The slot a creation takes. -/
def takenSlot (k : Table μ) : Option Slot :=
  if MAX_PROCESSES ≤ k.processCount.toNat then none
  else firstSlot (fun p => p.state = .terminated) k.processes

/-- The slot `schedule` dispatches. -/
def nextSlot (k : Table μ) : Option Slot :=
  if k.processCount = 0#32 then none
  else firstSlot (fun p => p.state = .ready) k.processes

theorem takenSlot_eq_some {k : Table μ} {i : Slot} :
    takenSlot k = some i ↔ ¬ MAX_PROCESSES ≤ k.processCount.toNat ∧
      firstSlot (fun p => p.state = .terminated) k.processes = some i :=
  Option.ite_none_left_eq_some

theorem nextSlot_eq_some {k : Table μ} {n : Slot} :
    nextSlot k = some n ↔ k.processCount ≠ 0#32 ∧
      firstSlot (fun p => p.state = .ready) k.processes = some n :=
  Option.ite_none_left_eq_some

theorem exists_takenSlot {k : Table μ} :
    (∃ i, takenSlot k = some i) ↔
      k.processCount.toNat < MAX_PROCESSES ∧ ∃ i, k.states i = .terminated := by
  simp only [takenSlot_eq_some, exists_and_left, exists_firstSlot, not_le]
  rfl

theorem exists_nextSlot {k : Table μ} :
    (∃ i, nextSlot k = some i) ↔ k.processCount ≠ 0#32 ∧ ∃ i, k.states i = .ready := by
  simp only [nextSlot_eq_some, exists_and_left, exists_firstSlot]
  rfl

/-- The event of a creation. -/
def creation (M : PageAllocator μ) (k : Table μ) : Event :=
  match takenSlot k with
  | none => .idle
  | some i => .taken i (decide ((M.allocatePage k.memory).1 ≠ 0#32))

/-- The event of `terminate_process`. -/
def termination (pid : Word) (k : Table μ) : Event :=
  match getProcess pid k with
  | none => .idle
  | some i => .ended i

/-- The event of a call. -/
def event (M : PageAllocator μ) (k : Table μ) : Op → Event
  | .createProcess _ => creation M k
  | .terminateProcess pid => termination pid k
  | .schedule _ =>
      match nextSlot k with
      | none => .idle
      | some i => .dispatched i
  | .sysExit _ =>
      match k.currentProcess with
      | none => .idle
      | some c => termination (k.processes c).pid k
  | .sysFork =>
      match k.currentProcess with
      | none => .idle
      | some _ => creation M k

/-! ### Rewriting one record -/

section Modify

variable (k : Table μ) (i : Slot) (f : Process → Process)

@[simp] theorem Table.modify_processes_self : (k.modify i f).processes i = f (k.processes i) :=
  Function.update_self ..

theorem Table.modify_processes_of_ne {j : Slot} (apart : j ≠ i) :
    (k.modify i f).processes j = k.processes j := Function.update_of_ne apart ..

@[simp] theorem Table.modify_processCount : (k.modify i f).processCount = k.processCount := rfl

@[simp] theorem Table.modify_currentProcess :
    (k.modify i f).currentProcess = k.currentProcess := rfl

@[simp] theorem Table.modify_nextPid : (k.modify i f).nextPid = k.nextPid := rfl

@[simp] theorem Table.modify_memory : (k.modify i f).memory = k.memory := rfl

theorem Table.modify_states :
    (k.modify i f).states = Function.update k.states i (f (k.processes i)).state := by
  funext j
  by_cases same : j = i
  · subst same
    simp [Table.states]
  · simp [Table.states, Table.modify_processes_of_ne _ _ _ same, Function.update_of_ne same]

end Modify

/-! ### Memory of a process -/

/-- `k'` is `k` up to the memory module's state and the sizes of the processes. -/
structure SameButMemory (k k' : Table μ) : Prop where
  processes : ∀ i, k'.processes i = { k.processes i with memorySize := (k'.processes i).memorySize }
  processCount : k'.processCount = k.processCount
  nextPid : k'.nextPid = k.nextPid
  currentProcess : k'.currentProcess = k.currentProcess

theorem SameButMemory.states {k k' : Table μ} (same : SameButMemory k k') :
    k'.states = k.states := by
  funext i
  rw [Table.states, same.processes i, Table.states]

theorem allocateProcessMemory_frame (M : PageAllocator μ) (pid size : Word) (k : Table μ) :
    SameButMemory k (allocateProcessMemory M pid size k).2 := by
  unfold allocateProcessMemory
  split
  · exact ⟨fun _ => rfl, rfl, rfl, rfl⟩
  · rename_i proc _
    dsimp only
    split
    · exact ⟨fun _ => rfl, rfl, rfl, rfl⟩
    · refine ⟨fun i => ?_, rfl, rfl, rfl⟩
      by_cases same : i = proc
      · subst same
        simp
      · simp [Table.modify_processes_of_ne _ _ _ same]

/-- The pid of a slot names some slot. -/
theorem exists_getProcess (k : Table μ) (i : Slot) :
    ∃ j, getProcess (k.processes i).pid k = some j := by
  unfold getProcess
  exact exists_firstSlot.mpr ⟨i, rfl⟩

/-- For the pid of a slot, the allocation succeeds exactly when the allocator
answers with a page. -/
theorem allocateProcessMemory_fst (M : PageAllocator μ) (size : Word) (k : Table μ) (i : Slot) :
    (allocateProcessMemory M (k.processes i).pid size k).1 =
      decide ((M.allocatePage k.memory).1 ≠ 0#32) := by
  obtain ⟨j, found⟩ := exists_getProcess k i
  unfold allocateProcessMemory
  simp only [found]
  split
  · rename_i null
    simp [null]
  · rename_i page
    simp [page]

/-! ### One lemma for each call -/

section Stages

variable (entryPoint : Word) (i : Slot) (k : Table μ)

theorem initProcess_states :
    (initProcess entryPoint i k).states = Function.update k.states i .ready :=
  Table.modify_states ..

@[simp] theorem initProcess_self :
    (initProcess entryPoint i k).processes i =
      { k.processes i with
        pid := k.nextPid
        state := .ready
        eip := entryPoint
        memorySize := 4#32 * 1024#32 * 1024#32 } :=
  Table.modify_processes_self ..

theorem initProcess_of_ne {entryPoint : Word} {i j : Slot} {k : Table μ} (other : j ≠ i) :
    (initProcess entryPoint i k).processes j = k.processes j :=
  Table.modify_processes_of_ne _ _ _ other

/-- Setting up the stack leaves the identity of every process alone. -/
theorem setUpStack_kept (j : Slot) :
    ((setUpStack i k).processes j).state = (k.processes j).state ∧
    ((setUpStack i k).processes j).pid = (k.processes j).pid ∧
    ((setUpStack i k).processes j).eip = (k.processes j).eip := by
  unfold setUpStack
  by_cases same : j = i
  · subst same
    simp
  · simp [Table.modify_processes_of_ne _ _ _ same]

theorem setUpStack_states : (setUpStack i k).states = k.states :=
  funext fun j => (setUpStack_kept i k j).1

end Stages

/-- What a creation that takes slot `i` does: it returns `r` and leaves `k'`. -/
structure Created (M : PageAllocator μ) (entryPoint : Word) (k : Table μ) (i : Slot) (r : Word)
    (k' : Table μ) : Prop where
  states : k'.states = Function.update k.states i .ready
  pid : ∀ j, (k'.processes j).pid = ((initProcess entryPoint i k).processes j).pid
  eip : ∀ j, (k'.processes j).eip = ((initProcess entryPoint i k).processes j).eip
  nextPid : k'.nextPid = k.nextPid + 1#32
  currentProcess : k'.currentProcess = k.currentProcess
  outcome : if (M.allocatePage k.memory).1 ≠ 0#32
    then r = k.nextPid ∧ k'.processCount = k.processCount + 1#32
    else r = 0#32 ∧ k'.processCount = k.processCount

section Created

variable {M : PageAllocator μ} {entryPoint : Word} {k k' : Table μ} {i : Slot} {r : Word}
  (created : Created M entryPoint k i r k')

include created

theorem Created.pid_self : (k'.processes i).pid = k.nextPid := by
  rw [created.pid, initProcess_self]

theorem Created.pid_of_ne {j : Slot} (other : j ≠ i) :
    (k'.processes j).pid = (k.processes j).pid := by
  rw [created.pid, initProcess_of_ne other]

theorem Created.eip_self : (k'.processes i).eip = entryPoint := by
  rw [created.eip, initProcess_self]

theorem Created.eip_of_ne {j : Slot} (other : j ≠ i) :
    (k'.processes j).eip = (k.processes j).eip := by
  rw [created.eip, initProcess_of_ne other]

theorem Created.states_self : k'.states i = .ready := by
  rw [created.states, Function.update_self]

theorem Created.states_of_ne {j : Slot} (other : j ≠ i) : k'.states j = k.states j := by
  rw [created.states, Function.update_of_ne other]

/-- The pid 0 is returned for want of memory, or as the pid of the new process. -/
theorem Created.returns_zero_iff :
    r = 0#32 ↔ (M.allocatePage k.memory).1 = 0#32 ∨ k.nextPid = 0#32 := by
  have outcome := created.outcome
  split at outcome
  · rename_i page
    rw [outcome.1]
    exact (or_iff_right page).symm
  · rename_i null
    exact iff_of_true outcome.1 (Or.inl (not_not.mp null))

theorem Created.returns_ne_zero_iff :
    r ≠ 0#32 ↔ (M.allocatePage k.memory).1 ≠ 0#32 ∧ k.nextPid ≠ 0#32 :=
  (not_congr created.returns_zero_iff).trans not_or

end Created

theorem createProcess_of_none (M : PageAllocator μ) (entryPoint : Word) {k : Table μ}
    (full : takenSlot k = none) : createProcess M entryPoint k = (0#32, k) := by
  unfold takenSlot at full
  unfold createProcess
  split at full
  · rename_i limit
    rw [if_pos limit]
  · rename_i limit
    rw [if_neg limit, full]

/-- The memory that a creation asks for, for slot `i`. -/
def askMemory (M : PageAllocator μ) (entryPoint : Word) (i : Slot) (k : Table μ) :
    Bool × Table μ :=
  allocateProcessMemory M k.nextPid 0x400000#32 (initProcess entryPoint i k)

/-- A creation that takes slot `i`: the record is initialised, then memory is asked for, and the
stack is set up if it is granted. -/
theorem createProcess_eq (M : PageAllocator μ) (entryPoint : Word) {k : Table μ} {i : Slot}
    (taken : takenSlot k = some i) :
    createProcess M entryPoint k =
      if (askMemory M entryPoint i k).1 then
        (((setUpStack i (askMemory M entryPoint i k).2).processes i).pid,
          setUpStack i (askMemory M entryPoint i k).2)
      else (0#32, (askMemory M entryPoint i k).2) := by
  obtain ⟨limit, free⟩ := takenSlot_eq_some.mp taken
  have asked : allocateProcessMemory M ((initProcess entryPoint i k).processes i).pid
      ((initProcess entryPoint i k).processes i).memorySize (initProcess entryPoint i k) =
        askMemory M entryPoint i k := by
    rw [initProcess_self]
    rfl
  simp only [createProcess, if_neg limit, free, asked]
  generalize askMemory M entryPoint i k = answer
  obtain ⟨granted, k₂⟩ := answer
  cases granted with
  | false => rfl
  | true => rfl

theorem createProcess_of_some (M : PageAllocator μ) (entryPoint : Word) {k : Table μ} {i : Slot}
    (taken : takenSlot k = some i) :
    Created M entryPoint k i (createProcess M entryPoint k).1 (createProcess M entryPoint k).2 := by
  have pid_self : ((initProcess entryPoint i k).processes i).pid = k.nextPid := by
    rw [initProcess_self]
  have fst : (askMemory M entryPoint i k).1 = decide ((M.allocatePage k.memory).1 ≠ 0#32) := by
    rw [askMemory, ← pid_self]
    exact allocateProcessMemory_fst M 0x400000#32 (initProcess entryPoint i k) i
  have frame : SameButMemory (initProcess entryPoint i k) (askMemory M entryPoint i k).2 :=
    allocateProcessMemory_frame M k.nextPid 0x400000#32 (initProcess entryPoint i k)
  have states := frame.states.trans (initProcess_states entryPoint i k)
  have pid : ∀ j, ((askMemory M entryPoint i k).2.processes j).pid =
      ((initProcess entryPoint i k).processes j).pid := fun j => by rw [frame.processes j]
  have eip : ∀ j, ((askMemory M entryPoint i k).2.processes j).eip =
      ((initProcess entryPoint i k).processes j).eip := fun j => by rw [frame.processes j]
  rw [createProcess_eq M entryPoint taken, fst]
  by_cases page : (M.allocatePage k.memory).1 = 0#32
  · rw [decide_eq_false (not_not.mpr page), if_neg Bool.false_ne_true]
    exact {
      states := states
      pid := pid
      eip := eip
      nextPid := frame.nextPid
      currentProcess := frame.currentProcess
      outcome := by
        rw [if_neg (not_not.mpr page)]
        exact ⟨rfl, frame.processCount⟩ }
  · rw [decide_eq_true page, if_pos rfl]
    exact {
      states := (setUpStack_states i _).trans states
      pid := fun j => (setUpStack_kept i _ j).2.1.trans (pid j)
      eip := fun j => (setUpStack_kept i _ j).2.2.trans (eip j)
      nextPid := frame.nextPid
      currentProcess := frame.currentProcess
      outcome := by
        rw [if_pos page]
        refine ⟨?_, congrArg (· + 1#32) frame.processCount⟩
        exact ((setUpStack_kept i _ i).2.1.trans (pid i)).trans pid_self }

/-- When a creation returns a pid other than 0. -/
theorem createProcess_ne_zero_iff {M : PageAllocator μ} {entryPoint : Word} {k : Table μ} :
    (createProcess M entryPoint k).1 ≠ 0#32 ↔
      (∃ i, takenSlot k = some i) ∧ (M.allocatePage k.memory).1 ≠ 0#32 ∧ k.nextPid ≠ 0#32 := by
  cases taken : takenSlot k with
  | none =>
      rw [createProcess_of_none M entryPoint taken]
      exact iff_of_false (fun null => null rfl) fun found => nomatch found.1
  | some i =>
      rw [and_iff_right ⟨i, rfl⟩]
      exact (createProcess_of_some M entryPoint taken).returns_ne_zero_iff

/-- A creation that returns a pid has set up both stack registers. -/
theorem createProcess_stack {M : PageAllocator μ} {entryPoint : Word} {k : Table μ} {i : Slot}
    (taken : takenSlot k = some i) (success : (createProcess M entryPoint k).1 ≠ 0#32) :
    ((createProcess M entryPoint k).2.processes i).esp =
        ((createProcess M entryPoint k).2.processes i).stackTop ∧
    ((createProcess M entryPoint k).2.processes i).ebp =
        ((createProcess M entryPoint k).2.processes i).stackTop := by
  rw [createProcess_eq M entryPoint taken] at success ⊢
  split at success
  · rename_i granted
    rw [if_pos granted]
    simp [setUpStack]
  · exact absurd rfl success

theorem terminateProcess_of_some {pid : Word} {k : Table μ} {i : Slot}
    (found : getProcess pid k = some i) :
    terminateProcess pid k =
      (true, { k.modify i (fun p => { p with state := .terminated }) with
        processCount := k.processCount - 1#32 }) := by
  unfold terminateProcess
  rw [found]
  rfl

theorem terminateProcess_view (pid : Word) (k : Table μ) :
    (terminateProcess pid k).2.view = k.view.apply (termination pid k) := by
  unfold termination
  cases found : getProcess pid k with
  | none =>
      unfold terminateProcess
      rw [found]
      rfl
  | some i =>
      rw [terminateProcess_of_some found]
      exact congrArg (View.mk · (k.processCount - 1#32) k.currentProcess)
        (Table.modify_states k i fun p => { p with state := .terminated })

/-- A termination changes nothing of a record but its state. -/
theorem terminateProcess_processes (pid : Word) (k : Table μ) (j : Slot) :
    (terminateProcess pid k).2.processes j =
      { k.processes j with state := (terminateProcess pid k).2.states j } := by
  cases found : getProcess pid k with
  | none =>
      rw [terminateProcess, found]
      rfl
  | some i =>
      rw [terminateProcess_of_some found]
      show (k.modify i fun p => { p with state := .terminated }).processes j =
        { k.processes j with
          state := (k.modify i fun p => { p with state := .terminated }).states j }
      by_cases same : j = i
      · subst same
        simp [Table.states]
      · simp [Table.modify_processes_of_ne _ _ _ same, Table.states]

theorem handOver_processes (n : Slot) (k : Table μ) (j : Slot) :
    (handOver n k).processes j =
      { k.processes j with state := if j = n then .running else k.view.yielded j } := by
  obtain ⟨processes, processCount, nextPid, currentProcess, memory⟩ := k
  unfold handOver View.yielded
  by_cases same : j = n
  · subst same
    cases currentProcess with
    | none => simp
    | some c => by_cases own : j = c <;> simp [Table.modify, own]
  · cases currentProcess with
    | none => simp [Table.modify, same, Table.view, Table.states]
    | some c =>
        by_cases own : j = c
        · subst own
          simp [Table.modify, same, Table.view]
        · simp [Table.modify, same, own, Ne.symm own, Table.view, Table.states]

theorem handOver_frame (n : Slot) (k : Table μ) :
    (handOver n k).processCount = k.processCount ∧ (handOver n k).nextPid = k.nextPid ∧
    (handOver n k).currentProcess = some n ∧ (handOver n k).memory = k.memory := by
  unfold handOver
  cases k.currentProcess <;> exact ⟨rfl, rfl, rfl, rfl⟩

/-- `switch_context` stores the stack registers in the record of the current process,
and then loads those of `n`. -/
theorem switchContext_of_current {n c : Slot} {cpu : Cpu} {k : Table μ}
    (current : k.currentProcess = some c) :
    switchContext (some n) cpu k =
      let k' := k.modify c fun p => { p with esp := cpu.esp, ebp := cpu.ebp }
      (k', ⟨(k'.processes n).esp, (k'.processes n).ebp, (k'.processes n).eip⟩) := by
  unfold switchContext
  simp only [current]

/-- What a call of `schedule` that dispatches slot `n` does. The stack registers go
to the record of `n` itself: `current_process` already points to it when
`switch_context` saves them, and the values loaded are the ones just saved. -/
structure Switched (cpu : Cpu) (k : Table μ) (n : Slot) (k' : Table μ) (cpu' : Cpu) : Prop where
  processes : ∀ j, k'.processes j =
    { k.processes j with
      state := if j = n then .running else k.view.yielded j
      esp := if j = n then cpu.esp else (k.processes j).esp
      ebp := if j = n then cpu.ebp else (k.processes j).ebp }
  processCount : k'.processCount = k.processCount
  nextPid : k'.nextPid = k.nextPid
  currentProcess : k'.currentProcess = some n
  memory : k'.memory = k.memory
  registers : cpu' = ⟨cpu.esp, cpu.ebp, (k.processes n).eip⟩

theorem Switched.states {cpu cpu' : Cpu} {k k' : Table μ} {n : Slot}
    (switched : Switched cpu k n k' cpu') (j : Slot) :
    k'.states j = if j = n then .running else k.view.yielded j :=
  congrArg Process.state (switched.processes j)

theorem schedule_of_none (cpu : Cpu) {k : Table μ} (none : nextSlot k = none) :
    schedule cpu k = (k, cpu) := by
  unfold nextSlot at none
  unfold schedule
  split at none
  · rename_i empty
    rw [if_pos empty]
  · rename_i count
    rw [if_neg count, none]

theorem schedule_of_some (cpu : Cpu) {k : Table μ} {n : Slot} (next : nextSlot k = some n) :
    Switched cpu k n (schedule cpu k).1 (schedule cpu k).2 := by
  obtain ⟨count, ready⟩ := nextSlot_eq_some.mp next
  obtain ⟨processCount, nextPid, currentProcess, memory⟩ := handOver_frame n k
  have switched : schedule cpu k = switchContext (some n) cpu (handOver n k) := by
    unfold schedule
    rw [if_neg count, ready]
  rw [switched, switchContext_of_current currentProcess]
  refine ⟨fun j => ?_, processCount, nextPid, currentProcess, memory, ?_⟩
  · by_cases same : j = n
    · subst same
      simp [handOver_processes]
    · simp [Table.modify_processes_of_ne _ _ _ same, handOver_processes, same]
  · simp [handOver_processes]

/-! ### The abstract table follows the events -/

theorem createProcess_view (M : PageAllocator μ) (entryPoint : Word) (k : Table μ) :
    (createProcess M entryPoint k).2.view = k.view.apply (creation M k) := by
  unfold creation
  cases taken : takenSlot k with
  | none =>
      rw [createProcess_of_none M entryPoint taken]
      rfl
  | some i =>
      have created := createProcess_of_some M entryPoint taken
      have outcome := created.outcome
      refine View.ext created.states ?_ created.currentProcess
      show _ = if decide _ = true then _ else _
      simp only [decide_eq_true_eq]
      split at outcome
      · rename_i page
        rw [if_pos page]
        exact outcome.2
      · rename_i null
        rw [if_neg null]
        exact outcome.2

theorem schedule_view (M : PageAllocator μ) (cpu : Cpu) (k : Table μ) :
    (schedule cpu k).1.view = k.view.apply (event M k (.schedule cpu)) := by
  unfold event
  cases next : nextSlot k with
  | none =>
      rw [schedule_of_none cpu next]
      rfl
  | some n =>
      have switched := schedule_of_some cpu next
      refine View.ext (funext fun j => ?_) switched.processCount switched.currentProcess
      exact (switched.states j).trans (View.apply_dispatched_states k.view n j).symm

theorem sysFork_snd (M : PageAllocator μ) {k : Table μ} {c : Slot}
    (current : k.currentProcess = some c) :
    (sysFork M k).2 = (createProcess M 0#32 k).2 := by
  unfold sysFork
  rw [current]
  dsimp only
  split <;> rfl

/-- Every call moves the abstract table as its event does. -/
theorem view_step (M : PageAllocator μ) (k : Table μ) (op : Op) :
    (step M k op).view = k.view.apply (event M k op) := by
  cases op with
  | createProcess entryPoint => exact createProcess_view M entryPoint k
  | terminateProcess pid => exact terminateProcess_view pid k
  | schedule cpu => exact schedule_view M cpu k
  | sysExit status =>
      unfold step event sysExit
      cases current : k.currentProcess with
      | none => rfl
      | some c => exact terminateProcess_view (k.processes c).pid k
  | sysFork =>
      unfold step event
      cases current : k.currentProcess with
      | none =>
          unfold sysFork
          rw [current]
          rfl
      | some c =>
          show (sysFork M k).2.view = _
          rw [sysFork_snd M current]
          exact createProcess_view M 0#32 k

/-! ### When a call causes an event -/

/-- The call dispatches slot `i`. -/
def Op.Dispatches (k : Table μ) (i : Slot) : Op → Prop
  | .schedule _ => nextSlot k = some i
  | _ => False

theorem creation_ne_dispatched (M : PageAllocator μ) (k : Table μ) (i : Slot) :
    creation M k ≠ .dispatched i := by
  unfold creation
  cases takenSlot k <;> simp

theorem termination_ne_dispatched (pid : Word) (k : Table μ) (i : Slot) :
    termination pid k ≠ .dispatched i := by
  unfold termination
  cases getProcess pid k <;> simp

theorem event_eq_dispatched {M : PageAllocator μ} {k : Table μ} {op : Op} {i : Slot} :
    event M k op = .dispatched i ↔ op.Dispatches k i := by
  cases op with
  | createProcess entryPoint => exact iff_of_false (creation_ne_dispatched M k i) id
  | terminateProcess pid => exact iff_of_false (termination_ne_dispatched pid k i) id
  | schedule cpu =>
      unfold event Op.Dispatches
      cases nextSlot k <;> simp
  | sysExit status =>
      refine iff_of_false ?_ id
      unfold event
      cases k.currentProcess with
      | none => simp
      | some c => exact termination_ne_dispatched _ k i
  | sysFork =>
      refine iff_of_false ?_ id
      unfold event
      cases k.currentProcess with
      | none => simp
      | some c => exact creation_ne_dispatched M k i

theorem creation_enabled (M : PageAllocator μ) (k : Table μ) : (creation M k).Enabled k.view := by
  unfold creation
  cases taken : takenSlot k with
  | none => trivial
  | some i =>
      obtain ⟨limit, free⟩ := takenSlot_eq_some.mp taken
      exact ⟨holds_of_firstSlot free, Nat.lt_of_not_le limit⟩

theorem termination_enabled (pid : Word) (k : Table μ) :
    (termination pid k).Enabled k.view := by
  unfold termination
  cases getProcess pid k <;> trivial

/-- A dispatched slot is ready. -/
theorem ready_of_nextSlot {k : Table μ} {n : Slot} (next : nextSlot k = some n) :
    k.states n = .ready :=
  holds_of_firstSlot (nextSlot_eq_some.mp next).2

/-- No ready slot lies below the dispatched one. -/
theorem nextSlot_le {k : Table μ} {n i : Slot} (next : nextSlot k = some n)
    (ready : k.states i = .ready) : n ≤ i :=
  firstSlot_le (nextSlot_eq_some.mp next).2 ready

/-- The event of a call can happen. -/
theorem event_enabled (M : PageAllocator μ) (k : Table μ) (op : Op) :
    (event M k op).Enabled k.view := by
  cases op with
  | createProcess entryPoint => exact creation_enabled M k
  | terminateProcess pid => exact termination_enabled pid k
  | schedule cpu =>
      unfold event
      cases next : nextSlot k with
      | none => trivial
      | some n => exact ready_of_nextSlot next
  | sysExit status =>
      unfold event
      cases k.currentProcess with
      | none => trivial
      | some c => exact termination_enabled _ k
  | sysFork =>
      unfold event
      cases k.currentProcess with
      | none => trivial
      | some _ => exact creation_enabled M k

end ModernOS.ProcessTable
