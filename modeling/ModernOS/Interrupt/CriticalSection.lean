import ModernOS.Interrupt.Model
import ModernOS.Lib.Transition

/-!
`CriticalSection` of `include/interrupt.h`: a lock on a mutex and an interrupt guard.

Its members are constructed in the order of their declaration, the lock first, and
destroyed in the reverse order, the lock last. The mutex is therefore held for one step
before interrupts are disabled and for one step after they are enabled again, and an
interrupt can be delivered there. `excludes_iff` says from which initial states this
cannot happen.
-/

namespace ModernOS.Interrupt.CriticalSection

open Transition

/-- Where a piece of code stands in a critical section. -/
inductive Position where
  | outside
  /-- `lock_` is constructed. -/
  | locked
  /-- `was_enabled_` is initialised. -/
  | sampled (guard : InterruptGuard)
  /-- Interrupts are disabled: the section proper. -/
  | inside (guard : InterruptGuard)
  /-- `interrupt_guard_` is destroyed. -/
  | restored
  deriving DecidableEq, Repr

/-- The code holds the mutex. -/
def Position.Holds (p : Position) : Prop := p ≠ .outside

/-- A piece of code with the number of critical sections it has still to enter. -/
structure Context where
  position : Position
  sections : ℕ
  deriving DecidableEq, Repr

/-- The flags, the mutex, the running code, and the interrupted contexts with the interrupt
flag saved in each, latest first. -/
structure Machine where
  flags : Flags
  mutexHeld : Bool
  running : Context
  interrupted : List (Context × Bool)

/-- The running code makes a step, an interrupt arrives whose handler enters `sections`
critical sections, or the handler returns. -/
inductive Event where
  | advance
  | deliver (sections : ℕ)
  | iret

/-- One step of the running code. It waits for a mutex that is held. -/
def advance (m : Machine) : Machine :=
  match m.running with
  | ⟨.outside, 0⟩ => m
  | ⟨.outside, n + 1⟩ =>
      if m.mutexHeld then m
      else { m with mutexHeld := true, running := ⟨.locked, n + 1⟩ }
  | ⟨.locked, n⟩ =>
      { m with running := ⟨.sampled ⟨areEnabled m.flags⟩, n⟩ }
  | ⟨.sampled guard, n⟩ => { m with flags := disable m.flags, running := ⟨.inside guard, n⟩ }
  | ⟨.inside guard, n⟩ => { m with flags := guard.destruct m.flags, running := ⟨.restored, n⟩ }
  | ⟨.restored, n⟩ => { m with mutexHeld := false, running := ⟨.outside, n - 1⟩ }

def step (m : Machine) : Event → Machine
  | .advance => advance m
  | .deliver n =>
      if m.flags.intf then
        { m with
          flags := { m.flags with intf := false }
          running := ⟨.outside, n⟩
          interrupted := (m.running, m.flags.intf) :: m.interrupted }
      else m
  | .iret =>
      match m.running, m.interrupted with
      | ⟨.outside, 0⟩, (code, intf) :: rest =>
          { m with flags := { m.flags with intf := intf }, running := code, interrupted := rest }
      | _, _ => m

/-- Code that is about to enter `sections` critical sections, with the mutex free. -/
def start (flags : Flags) (sections : ℕ) : Machine := ⟨flags, false, ⟨.outside, sections⟩, []⟩

/-- An interrupt that is delivered does not interrupt code that holds the mutex. -/
def Excluded (m : Machine) : Event → Prop
  | .deliver _ => m.flags.intf = true → ¬ m.running.position.Holds
  | _ => True

/-- Interrupts are off in the variable, no guard will enable them, and only code that has no
critical section left can be interrupted. -/
structure Quiet (m : Machine) : Prop where
  disabled : m.flags.interruptsEnabled = false
  guards : ∀ guard, m.running.position = .sampled guard ∨ m.running.position = .inside guard →
    guard.wasEnabled = false
  running : m.flags.intf = true → m.running = ⟨.outside, 0⟩
  interrupted : ∀ c ∈ m.interrupted, c.1 = ⟨.outside, 0⟩

/-- Code that has a step to make runs with interrupts off. -/
theorem Quiet.intf {m : Machine} (quiet : Quiet m) (busy : m.running ≠ ⟨.outside, 0⟩) :
    m.flags.intf = false := by
  by_contra on
  exact busy (quiet.running (Bool.not_eq_false _ |>.mp on))

theorem Quiet.advance {m : Machine} (quiet : Quiet m) : Quiet (advance m) := by
  obtain ⟨⟨enabled, intf⟩, mutexHeld, ⟨position, n⟩, interrupted⟩ := m
  obtain rfl : enabled = false := quiet.disabled
  -- Only code that is done runs with interrupts on, and it makes no step.
  have off : (⟨position, n⟩ : Context) ≠ ⟨.outside, 0⟩ → intf = false := quiet.intf
  cases position with
  | outside =>
      cases n with
      | zero => exact quiet
      | succ n =>
          obtain rfl : intf = false := off (by simp)
          cases mutexHeld with
          | true => exact quiet
          | false =>
              exact ⟨rfl, by simp [CriticalSection.advance], by simp [CriticalSection.advance],
                quiet.interrupted⟩
  | locked =>
      obtain rfl : intf = false := off (by simp)
      exact ⟨rfl, by simp [CriticalSection.advance, areEnabled], by simp [CriticalSection.advance],
        quiet.interrupted⟩
  | sampled guard =>
      have unset := quiet.guards guard (Or.inl rfl)
      exact ⟨rfl, by simp [CriticalSection.advance, unset],
        by simp [CriticalSection.advance, disable], quiet.interrupted⟩
  | inside guard =>
      obtain rfl : intf = false := off (by simp)
      have unset := quiet.guards guard (Or.inr rfl)
      exact ⟨by simp [CriticalSection.advance, InterruptGuard.destruct, unset],
        by simp [CriticalSection.advance],
        by simp [CriticalSection.advance, InterruptGuard.destruct, unset], quiet.interrupted⟩
  | restored =>
      obtain rfl : intf = false := off (by simp)
      exact ⟨rfl, by simp [CriticalSection.advance], by simp [CriticalSection.advance],
        quiet.interrupted⟩

theorem Quiet.step {m : Machine} (quiet : Quiet m) (e : Event) : Quiet (step m e) := by
  cases e with
  | advance => exact quiet.advance
  | deliver n =>
      rw [CriticalSection.step]
      split
      · rename_i on
        refine ⟨quiet.disabled, by simp, by simp, fun c mem => ?_⟩
        rcases List.mem_cons.mp mem with rfl | old
        · exact quiet.running on
        · exact quiet.interrupted c old
      · exact quiet
  | iret =>
      rw [CriticalSection.step]
      split
      · rename_i code intf rest _ suspended
        have codes := quiet.interrupted
        rw [suspended] at codes
        have done : code = ⟨.outside, 0⟩ := codes _ List.mem_cons_self
        refine ⟨quiet.disabled, by simp [done], fun _ => done, fun c mem => ?_⟩
        exact codes c (List.mem_cons_of_mem _ mem)
      · exact quiet

theorem Quiet.excluded {m : Machine} (quiet : Quiet m) (e : Event) : Excluded m e := by
  cases e with
  | deliver n =>
      intro on holds
      rw [quiet.running on] at holds
      exact holds rfl
  | _ => trivial

/-- Code with no critical section, interrupted by nothing. -/
structure Idle (m : Machine) : Prop where
  intf : m.flags.intf = false
  running : m.running = ⟨.outside, 0⟩
  interrupted : m.interrupted = []

theorem Idle.step {m : Machine} (idle : Idle m) (e : Event) : Idle (step m e) := by
  cases e with
  | advance =>
      rw [CriticalSection.step, CriticalSection.advance, idle.running]
      exact idle
  | deliver n =>
      rw [CriticalSection.step, if_neg (by simp [idle.intf])]
      exact idle
  | iret =>
      rw [CriticalSection.step, idle.running, idle.interrupted]
      exact idle

theorem Idle.excluded {m : Machine} (idle : Idle m) (e : Event) : Excluded m e := by
  cases e with
  | deliver n =>
      intro on
      rw [idle.intf] at on
      cases on
  | _ => trivial

/-- Code that can be interrupted has no critical section. -/
theorem quiet_start {intf : Bool} {sections : ℕ} (none : intf = true → sections = 0) :
    Quiet (start ⟨false, intf⟩ sections) where
  disabled := rfl
  guards := fun guard at_guard => by rcases at_guard with at_guard | at_guard <;> cases at_guard
  running := fun on => congrArg (Context.mk .outside) (none on)
  interrupted := fun c mem => absurd mem List.not_mem_nil

theorem Quiet.excludes {m : Machine} (quiet : Quiet m) (events : List Event) :
    EveryStep CriticalSection.step Excluded m events :=
  everyStep_of_invariant (I := Quiet) (fun _ e quiet => quiet.step e)
    (fun _ e quiet => quiet.excluded e) quiet events

theorem Idle.excludes {m : Machine} (idle : Idle m) (events : List Event) :
    EveryStep CriticalSection.step Excluded m events :=
  everyStep_of_invariant (I := Idle) (fun _ e idle => idle.step e)
    (fun _ e idle => idle.excluded e) idle events

/-- **A critical section excludes interrupts** in every schedule if and only if it has none to
exclude: interrupts are off in the processor and in the variable, or the code has no
critical section and one of the two is off. -/
theorem excludes_iff (flags : Flags) (sections : ℕ) :
    (∀ events, EveryStep step Excluded (start flags sections) events) ↔
      flags.intf = false ∧ flags.interruptsEnabled = false ∨
      sections = 0 ∧ (flags.intf = false ∨ flags.interruptsEnabled = false) := by
  obtain ⟨enabled, intf⟩ := flags
  constructor
  · intro all
    cases sections with
    | zero =>
        refine Or.inr ⟨rfl, ?_⟩
        by_contra on
        obtain ⟨rfl, rfl⟩ : intf = true ∧ enabled = true := by simpa using on
        -- The section of a handler enables interrupts before it unlocks.
        have bad := all [.deliver 1, .advance, .advance, .advance, .advance, .deliver 0]
        exact bad.2.2.2.2.2.1 rfl (by simp [step, advance, start, Position.Holds])
    | succ n =>
        cases intf with
        | true =>
            -- The mutex is locked before interrupts are disabled.
            have bad := all [.advance, .deliver 0]
            exact absurd (bad.2.1 rfl)
              (not_not.mpr (by simp [step, advance, start, Position.Holds]))
        | false =>
            cases enabled with
            | false => exact Or.inl ⟨rfl, rfl⟩
            | true =>
                -- The guard enables interrupts that were off, before the mutex is unlocked.
                have bad := all [.advance, .advance, .advance, .advance, .deliver 0]
                exact absurd (bad.2.2.2.2.1 rfl)
                  (not_not.mpr (by simp [step, advance, start, Position.Holds]))
  · intro off events
    rcases off with ⟨rfl, rfl⟩ | ⟨rfl, rfl | rfl⟩
    · have quiet : Quiet (start ⟨false, false⟩ sections) :=
        quiet_start fun on => absurd on Bool.false_ne_true
      exact quiet.excludes events
    · exact Idle.excludes ⟨rfl, rfl, rfl⟩ events
    · exact (quiet_start fun _ => rfl).excludes events

/-- With interrupts enabled, an interrupt arrives between the lock and the guard. -/
theorem not_excluded_after_lock :
    ¬ EveryStep step Excluded (start ⟨true, true⟩ 1) [.advance, .deliver 0] := by
  intro all
  exact all.2.1 rfl (by simp [step, advance, start, Position.Holds])

end ModernOS.Interrupt.CriticalSection
