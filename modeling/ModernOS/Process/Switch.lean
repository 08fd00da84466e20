import ModernOS.Lib.Transition
import ModernOS.Process.Events

/-!
Context switches, seen by the processes they interrupt.

`schedule` writes `current_process` before it calls `switch_context`, and
`switch_context` saves the stack registers through `current_process`. The registers
of the outgoing process are therefore stored in the record of the incoming one,
loaded from it again, and lost; no code stores a resume address.
`schedule_keepsContexts_iff` says exactly when this goes unnoticed: the records of
both processes hold the stack registers that the processor has at the call, and the
record of the outgoing one also the address at which it is to go on.
-/

namespace ModernOS.ProcessTable

open Transition

variable {μ : Type}

/-- The registers that a record holds for its process. -/
def Process.context (p : Process) : Cpu := ⟨p.esp, p.ebp, p.eip⟩

/-- The switch from the current process `a` to `b` keeps the contexts of both: `a` is
stored as the processor has it, `b` is loaded as its record has it. -/
structure KeepsContexts (cpu : Cpu) (k : Table μ) (a b : Slot) : Prop where
  saved : ((schedule cpu k).1.processes a).context = cpu
  loaded : (schedule cpu k).2 = (k.processes b).context

/-- The records of `a` and `b` hold what a switch between them fails to store and load. -/
structure ContextsAgree (cpu : Cpu) (k : Table μ) (a b : Slot) : Prop where
  outgoing : (k.processes a).context = cpu
  esp : (k.processes b).esp = cpu.esp
  ebp : (k.processes b).ebp = cpu.ebp

/-- What a switch leaves in a record: the stack registers of the processor go to the
incoming process, nothing goes to the others. -/
theorem Switched.context {cpu cpu' : Cpu} {k k' : Table μ} {n : Slot}
    (switched : Switched cpu k n k' cpu') (j : Slot) :
    (k'.processes j).context =
      if j = n then ⟨cpu.esp, cpu.ebp, (k.processes n).eip⟩ else (k.processes j).context := by
  rw [switched.processes j]
  split
  · rename_i same
    simp [Process.context, same]
  · rfl

theorem Switched.keepsContexts_iff {cpu : Cpu} {k : Table μ} {a b : Slot}
    (switched : Switched cpu k b (schedule cpu k).1 (schedule cpu k).2) :
    KeepsContexts cpu k a b ↔ ContextsAgree cpu k a b := by
  have context := switched.context a
  have registers := switched.registers
  constructor
  · rintro ⟨saved, loaded⟩
    obtain ⟨esp, ebp, _⟩ := Cpu.mk.inj (registers.symm.trans loaded)
    refine ⟨?_, esp.symm, ebp.symm⟩
    rw [context] at saved
    split at saved
    · rename_i same
      rw [same, ← saved, Process.context, ← esp, ← ebp]
    · exact saved
  · rintro ⟨outgoing, esp, ebp⟩
    refine ⟨?_, ?_⟩
    · rw [context]
      split
      · rename_i same
        rw [← outgoing, same]
        rfl
      · exact outgoing
    · rw [registers, Process.context, esp, ebp]

/-! ### Sequences of switches -/

/-- The table after a call of `schedule`. -/
def afterSwitch (k : Table μ) (cpu : Cpu) : Table μ := (schedule cpu k).1

/-- If the call switches from one process to another, their contexts agree. -/
def SwitchAgrees (k : Table μ) (cpu : Cpu) : Prop :=
  ∀ a b, k.currentProcess = some a → nextSlot k = some b → ContextsAgree cpu k a b

theorem switchAgrees_of {k : Table μ} {cpu : Cpu} {a b : Slot} (current : k.currentProcess = some a)
    (next : nextSlot k = some b) (agree : ContextsAgree cpu k a b) : SwitchAgrees k cpu := by
  intro a' b' current' next'
  obtain rfl : a = a' := Option.some.inj (current.symm.trans current')
  obtain rfl : b = b' := Option.some.inj (next.symm.trans next')
  exact agree

/-- A process that is switched out during the calls `cpus` and dispatched again by a later
one goes on with the registers it was switched out with. -/
def ResumesContexts (k : Table μ) (cpus : List Cpu) : Prop :=
  ∀ before out between again after p n, cpus = before ++ out :: between ++ again :: after →
    let k₁ := run afterSwitch k before
    let k₂ := run afterSwitch k (before ++ out :: between)
    k₁.currentProcess = some p → nextSlot k₁ = some n → n ≠ p →
    (∀ sub x, sub ++ [x] <+: between →
      nextSlot (run afterSwitch k (before ++ out :: sub)) ≠ some p) →
    nextSlot k₂ = some p → (schedule again k₂).2 = out

/-- There is a current process, and every record holds the context it holds in `k₀`. -/
structure ContextsFixed (k₀ k : Table μ) : Prop where
  current : ∃ c, k.currentProcess = some c
  fixed : ∀ i, (k.processes i).context = (k₀.processes i).context

/-- A switch between agreeing contexts changes no record's context. -/
theorem contextsFixed_afterSwitch {k₀ k : Table μ} {cpu : Cpu} (inv : ContextsFixed k₀ k)
    (agrees : SwitchAgrees k cpu) : ContextsFixed k₀ (afterSwitch k cpu) := by
  unfold afterSwitch
  cases next : nextSlot k with
  | none =>
      rw [schedule_of_none cpu next]
      exact inv
  | some n =>
      have switched := schedule_of_some cpu next
      obtain ⟨c, current⟩ := inv.current
      obtain ⟨_, esp, ebp⟩ := agrees c n current next
      refine ⟨⟨n, switched.currentProcess⟩, fun i => ?_⟩
      rw [switched.context i, ← inv.fixed i]
      split
      · rename_i same
        rw [same, Process.context, esp, ebp]
      · rfl

theorem resumesContexts_of_agrees {k : Table μ} {cpus : List Cpu}
    (agrees : EveryStep afterSwitch SwitchAgrees k cpus) : ResumesContexts k cpus := by
  rintro before out between again after p n rfl k₁ k₂ current next - - resumed
  rw [everyStep_append, everyStep_append] at agrees
  obtain ⟨⟨-, atOut, along⟩, atAgain, -⟩ := agrees
  have fixed : ContextsFixed k₁ k₂ := by
    show ContextsFixed k₁ (run afterSwitch k (before ++ out :: between))
    rw [run_append, run_cons]
    exact run_invariant_of_everyStep (fun _ _ => contextsFixed_afterSwitch)
      (contextsFixed_afterSwitch ⟨⟨p, current⟩, fun _ => rfl⟩ atOut) along
  obtain ⟨c, current₂⟩ := fixed.current
  obtain ⟨-, esp, ebp⟩ := atAgain c p current₂ resumed
  calc (schedule again k₂).2 = ⟨again.esp, again.ebp, (k₂.processes p).eip⟩ :=
        (schedule_of_some again resumed).registers
    _ = (k₂.processes p).context := by rw [Process.context, esp, ebp]
    _ = (k₁.processes p).context := fixed.fixed p
    _ = out := (atOut p n current next).outgoing

/-- **A switch keeps the contexts of both processes exactly when their records already
agree with the processor**, and along calls that all meet this condition a process goes on
with the registers it was switched out with. -/
theorem schedule_keepsContexts_iff :
    (∀ (k : Table μ) cpu a b, k.currentProcess = some a → nextSlot k = some b →
      (KeepsContexts cpu k a b ↔ ContextsAgree cpu k a b)) ∧
    ∀ (k : Table μ) cpus, EveryStep afterSwitch SwitchAgrees k cpus → ResumesContexts k cpus :=
  ⟨fun _ cpu _ _ _ next => (schedule_of_some cpu next).keepsContexts_iff,
    fun _ _ agrees => resumesContexts_of_agrees agrees⟩

/-- Two processes, the first one running; their records hold 0x9000 in both stack registers. -/
def pair : Table Unit where
  processes := fun i =>
    if i = 0 then ⟨1#32, .running, 0x100#32, 0x9000#32, 0x9000#32, 0#32, 0#32⟩
    else if i = 1 then ⟨2#32, .ready, 0x200#32, 0x9000#32, 0x9000#32, 0#32, 0#32⟩
    else { Process.zeroed with state := .terminated }
  processCount := 2#32
  nextPid := 3#32
  currentProcess := some 0
  memory := ()

/-- With the stack registers of the records in the processor, the first process comes back
as it left. -/
theorem schedule_keepsContexts_pair :
    (KeepsContexts ⟨0x9000#32, 0x9000#32, 0x100#32⟩ pair 0 1 ↔
      ContextsAgree ⟨0x9000#32, 0x9000#32, 0x100#32⟩ pair 0 1) ∧
    ResumesContexts pair [⟨0x9000#32, 0x9000#32, 0x100#32⟩, ⟨0x9000#32, 0x9000#32, 0x200#32⟩] := by
  refine ⟨schedule_keepsContexts_iff.1 pair _ 0 1 rfl (by decide +kernel),
    schedule_keepsContexts_iff.2 pair _ ⟨?_, ?_, trivial⟩⟩
  · exact switchAgrees_of (a := 0) (b := 1) rfl (by decide +kernel)
      ⟨by decide +kernel, by decide +kernel, by decide +kernel⟩
  · exact switchAgrees_of (a := 1) (b := 0) (by decide +kernel) (by decide +kernel)
      ⟨by decide +kernel, by decide +kernel, by decide +kernel⟩

/-- With other stack registers in the processor, neither is the first process stored nor the
second one loaded. -/
theorem schedule_loses_context :
    ¬ ∀ (k : Table Unit) cpu a b, k.currentProcess = some a → nextSlot k = some b →
      KeepsContexts cpu k a b := by
  intro keeps
  have kept := keeps pair ⟨0x8000#32, 0x8010#32, 0x150#32⟩ 0 1 rfl (by decide +kernel)
  exact absurd kept.loaded (by decide +kernel)

end ModernOS.ProcessTable
