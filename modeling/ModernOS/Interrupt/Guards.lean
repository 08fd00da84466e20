import ModernOS.Interrupt.Model
import ModernOS.Lib.Transition

/-!
Nested guards.

Scopes make guards nest: a guard is destroyed before those that were constructed before it. Each
one remembers only whether interrupts were enabled when it was constructed. Inside another guard
they are not, so only the outermost guard can enable them again, and it restores the state that
the sequence started with (`guards_nest`).
-/

namespace ModernOS.Interrupt.Guards

open Transition

/-- The construction of a guard, or the destruction of the one constructed last. -/
inductive Event where
  | construct
  | destruct
  deriving DecidableEq, Repr

/-- Code with guards: a scope with a guard and its body, and the code after it. -/
inductive Block where
  | done
  | scope (body rest : Block)

/-- What a block does to guards, in order. -/
def Block.events : Block → List Event
  | .done => []
  | .scope body rest => .construct :: (body.events ++ .destruct :: rest.events)

/-- A guard, and the flags that its constructor found. -/
structure Alive where
  guard : InterruptGuard
  before : Flags
  deriving DecidableEq, Repr

/-- The flags, and the guards that are alive, the innermost one first. -/
structure State where
  flags : Flags
  alive : List Alive

def step (s : State) : Event → State
  | .construct =>
      let (guard, flags) := InterruptGuard.construct s.flags
      ⟨flags, ⟨guard, s.flags⟩ :: s.alive⟩
  | .destruct =>
      match s.alive with
      | [] => s
      | g :: outer => ⟨g.guard.destruct s.flags, outer⟩

def start (flags : Flags) : State := ⟨flags, []⟩

theorem construct_alive (s : State) :
    (step s .construct).alive = ⟨⟨areEnabled s.flags⟩, s.flags⟩ :: s.alive := rfl

theorem destruct_alive (s : State) : (step s .destruct).alive = s.alive.tail := by
  obtain ⟨flags, alive⟩ := s
  cases alive <;> rfl

/-! ### The invariant -/

/-- What interrupts are with these guards alive, when they were `initial` without any. -/
def enabledUnder (initial : Bool) : List Alive → Bool
  | [] => initial
  | _ :: _ => false

/-- Every guard remembers what it found, and found what the guards around it leave. -/
def Remembers (initial : Bool) : List Alive → Prop
  | [] => True
  | g :: outer =>
      g.guard.wasEnabled = areEnabled g.before ∧
        areEnabled g.before = enabledUnder initial outer ∧ Remembers initial outer

structure Invariant (initial : Bool) (s : State) : Prop where
  enabled : areEnabled s.flags = enabledUnder initial s.alive
  intf : s.alive ≠ [] → s.flags.intf = false
  remembers : Remembers initial s.alive

variable {initial : Bool} {s : State}

/-- Interrupts are only ever enabled where no guard is alive. -/
theorem eq_nil_of_enabledUnder {alive : List Alive} (enabled : enabledUnder initial alive = true) :
    alive = [] := by
  cases alive with
  | nil => rfl
  | cons g outer => cases enabled

theorem invariant_start (flags : Flags) : Invariant (areEnabled flags) (start flags) :=
  ⟨rfl, fun some_alive => absurd rfl some_alive, trivial⟩

theorem Invariant.step (inv : Invariant initial s) (e : Event) : Invariant initial (step s e) := by
  obtain ⟨flags, alive⟩ := s
  obtain ⟨enabled, intf, remembers⟩ := inv
  cases e with
  | construct => exact ⟨rfl, fun _ => rfl, rfl, enabled, remembers⟩
  | destruct =>
      cases alive with
      | nil => exact ⟨enabled, intf, remembers⟩
      | cons g outer =>
          obtain ⟨remembered, found, rest⟩ := remembers
          have was : g.guard.wasEnabled = enabledUnder initial outer := remembered.trans found
          -- The guard enables interrupts only when it is the outermost one.
          cases restores : g.guard.wasEnabled with
          | true =>
              have outermost := eq_nil_of_enabledUnder (was.symm.trans restores)
              have flags_eq : g.guard.destruct flags = ⟨true, true⟩ := if_pos restores
              show Invariant initial ⟨g.guard.destruct flags, outer⟩
              rw [flags_eq]
              exact ⟨restores.symm.trans was, fun some_alive => absurd outermost some_alive, rest⟩
          | false =>
              have flags_eq : g.guard.destruct flags = flags :=
                if_neg (ne_true_of_eq_false restores)
              show Invariant initial ⟨g.guard.destruct flags, outer⟩
              rw [flags_eq]
              exact ⟨enabled.trans (restores.symm.trans was),
                fun _ => intf (List.cons_ne_nil g outer), rest⟩

/-- A destruction enables interrupts exactly when the guard is the outermost one and found them
enabled. -/
theorem Invariant.destruct_enables_iff (inv : Invariant initial s) {g : Alive}
    {outer : List Alive} (alive : s.alive = g :: outer) :
    areEnabled (Guards.step s .destruct).flags = true ↔
      outer = [] ∧ areEnabled g.before = true := by
  have after := (inv.step .destruct).enabled
  have remembers := inv.remembers
  have popped : (Guards.step s .destruct).alive = outer := by
    rw [destruct_alive, alive, List.tail_cons]
  rw [alive] at remembers
  obtain ⟨-, found, -⟩ := remembers
  rw [after, popped, ← found]
  exact ⟨fun enabled => ⟨eq_nil_of_enabledUnder (found.symm.trans enabled), enabled⟩, And.right⟩

/-! ### Well-nested sequences -/

/-- A block destroys the guards that it constructs. -/
theorem alive_block (b : Block) (s : State) : (run Guards.step s b.events).alive = s.alive := by
  induction b generalizing s with
  | done => rfl
  | scope body rest inner after =>
      rw [Block.events, run_cons, run_append, run_cons, after, destruct_alive, inner,
        construct_alive, List.tail_cons]

/-- What is expected of the guards in a state of a sequence that started with the flags
`initial`. -/
structure Nest (initial : Flags) (s : State) : Prop where
  alive : s.alive ≠ [] → areEnabled s.flags = false ∧ s.flags.intf = false
  free : s.alive = [] → areEnabled s.flags = areEnabled initial
  restores : ∀ g outer, s.alive = g :: outer →
    (areEnabled (Guards.step s .destruct).flags = true ↔
      outer = [] ∧ areEnabled g.before = true)

theorem Invariant.nest {flags : Flags} (inv : Invariant (areEnabled flags) s) : Nest flags s where
  alive some_alive := by
    refine ⟨?_, inv.intf some_alive⟩
    obtain ⟨g, outer, alive⟩ := List.exists_cons_of_ne_nil some_alive
    rw [inv.enabled, alive]
    rfl
  free none_alive := by
    rw [inv.enabled, none_alive]
    rfl
  restores _ _ alive := inv.destruct_enables_iff alive

/-- **Guards nest**: at every point of a well-nested sequence interrupts are disabled when a guard
is alive and as they were at the start when none is, only the outermost guard enables them
again, and at the end no guard is alive. -/
theorem guards_nest (flags : Flags) (b : Block) :
    (∀ pre, pre <+: b.events → Nest flags (run Guards.step (start flags) pre)) ∧
      (run Guards.step (start flags) b.events).alive = [] := by
  refine ⟨fun pre _ => ?_, alive_block b (start flags)⟩
  have inv : Invariant (areEnabled flags) (run Guards.step (start flags) pre) :=
    run_invariant (fun _ e inv => inv.step e) (invariant_start flags) pre
  exact inv.nest

end ModernOS.Interrupt.Guards
