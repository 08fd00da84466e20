import ModernOS.Interrupt.Gates

/-!
Interrupts that arrive while the descriptor table is being filled.

An interrupt can arrive between any two stores of the code, so `init`, `register_handler`,
`enable` and `disable` are taken apart here into `Store`s (`run_stores` and `run_initStores`
put them together again). `init` clears all gates and then executes `sti`: from there on every
external interrupt would go through an empty gate, in every run
(`empty_gates`). Which of them are covered later is `covered_iff`.
-/

namespace ModernOS.Interrupt

open Transition

/-- A single effect of the code on the tables, the variable or the interrupt flag. -/
inductive Store where
  | handler (v : BitVec 8) (value : Word)
  | baseLow (v : BitVec 8) (value : BitVec 16)
  | selector (v : BitVec 8) (value : BitVec 16)
  | zero (v : BitVec 8) (value : BitVec 8)
  | flags (v : BitVec 8) (value : BitVec 8)
  | baseHigh (v : BitVec 8) (value : BitVec 16)
  | sti
  | cli
  | interruptsEnabled (value : Bool)
  deriving DecidableEq, Repr

/-- Change one gate. -/
def State.setGate (s : State) (v : BitVec 8) (e : IDTEntry) : State :=
  { s with idt := Function.update s.idt v e }

def store (s : State) : Store → State
  | .handler v value => { s with handlers := Function.update s.handlers v value }
  | .baseLow v value => s.setGate v { s.idt v with baseLow := value }
  | .selector v value => s.setGate v { s.idt v with selector := value }
  | .zero v value => s.setGate v { s.idt v with zero := value }
  | .flags v value => s.setGate v { s.idt v with flags := value }
  | .baseHigh v value => s.setGate v { s.idt v with baseHigh := value }
  | .sti => { s with flags := { s.flags with intf := true } }
  | .cli => { s with flags := { s.flags with intf := false } }
  | .interruptsEnabled value => { s with flags := { s.flags with interruptsEnabled := value } }

/-- The calls that follow `init`. -/
inductive Call where
  | registerHandler (v : BitVec 8) (handler : Word)
  | enable
  | disable
  deriving DecidableEq, Repr

/-- The effect of a call. -/
def call (s : State) : Call → State
  | .registerHandler v handler => registerHandler v handler s
  | .enable => { s with flags := enable s.flags }
  | .disable => { s with flags := disable s.flags }

/-- The stores to a handler and its gate, in the order of the source. -/
def entryStores (v : BitVec 8) (handler : Word) (e : IDTEntry) : List Store :=
  [ .handler v handler,
    .baseLow v e.baseLow,
    .selector v e.selector,
    .zero v e.zero,
    .flags v e.flags,
    .baseHigh v e.baseHigh ]

/-- The stores of a call. -/
def Call.stores : Call → List Store
  | .registerHandler v handler => entryStores v handler (gate handler)
  | .enable => [.sti, .interruptsEnabled true]
  | .disable => [.cli, .interruptsEnabled false]

/-- The stores of `init`: every entry is cleared, and interrupts are enabled. -/
def initStores : List Store :=
  (List.range 256).flatMap (fun i => entryStores (BitVec.ofNat 8 i) 0#32 IDTEntry.cleared) ++
    Call.stores .enable

/-! ### The stores make up the calls -/

theorem run_entryStores (s : State) (v : BitVec 8) (handler : Word) (e : IDTEntry) :
    run store s (entryStores v handler e) =
      { s with
        handlers := Function.update s.handlers v handler
        idt := Function.update s.idt v e } := by
  simp [entryStores, store, State.setGate]

theorem run_stores (s : State) (c : Call) : run store s c.stores = call s c := by
  cases c with
  | registerHandler v handler => exact run_entryStores s v handler (gate handler)
  | enable => rfl
  | disable => rfl

/-- The first rounds of the loop of `init`. -/
theorem run_clearing (s : State) {n : ℕ} (small : n ≤ 256) :
    run store s ((List.range n).flatMap fun i =>
        entryStores (BitVec.ofNat 8 i) 0#32 IDTEntry.cleared) =
      { s with
        handlers := fun v => if v.toNat < n then 0#32 else s.handlers v
        idt := fun v => if v.toNat < n then IDTEntry.cleared else s.idt v } := by
  induction n with
  | zero => rfl
  | succ n ih =>
      have entry {α : Type} (f : BitVec 8 → α) (a : α) :
          Function.update (fun v => if v.toNat < n then a else f v) (BitVec.ofNat 8 n) a =
            fun v => if v.toNat < n + 1 then a else f v := by
        funext v
        rw [Function.update_apply]
        by_cases here : v.toNat = n
        · rw [if_pos (by bv_omega), if_pos (by omega)]
        · rw [if_neg (by bv_omega)]
          exact if_congr (by omega) rfl rfl
      rw [List.range_succ, List.flatMap_append, run_append, ih (by omega), List.flatMap_singleton,
        run_entryStores, entry, entry]

theorem run_initStores (s : State) : run store s initStores = init s := by
  have all {α : Type} (f : BitVec 8 → α) (a : α) :
      (fun v : BitVec 8 => if v.toNat < 256 then a else f v) = fun _ => a :=
    funext fun v => if_pos v.isLt
  rw [initStores, run_append, run_clearing s (le_refl 256), all, all, run_stores]
  rfl

theorem run_callStores (s : State) (calls : List Call) :
    run store s (calls.flatMap Call.stores) = run call s calls := by
  rw [run_flatMap]
  exact run_congr run_stores s calls

/-! ### Arrivals -/

/-- The vectors of the external interrupts. -/
def External (v : BitVec 8) : Prop := 32 ≤ v.toNat ∧ v.toNat ≤ 47

/-- An interrupt that arrives now is not taken through an empty gate. -/
def Covered (s : State) (v : BitVec 8) : Prop :=
  s.flags.intf = true → (s.idt v).present = true

/-- After `init` none of them is covered. -/
theorem not_covered_init (s₀ : State) (v : BitVec 8) : ¬ Covered (init s₀) v := by
  intro covered
  have present : IDTEntry.cleared.present = true := covered rfl
  exact absurd present (by decide)

/-- What a call does to the interrupt flag. -/
def Call.switch : Call → Option Bool
  | .registerHandler .. => none
  | .enable => some true
  | .disable => some false

/-- What the last call that switches interrupts did. -/
def lastSwitch (calls : List Call) : Option Bool := (calls.filterMap Call.switch).getLast?

theorem lastSwitch_concat (calls : List Call) (c : Call) :
    lastSwitch (calls ++ [c]) = c.switch.or (lastSwitch calls) := by
  rw [lastSwitch, List.filterMap_append]
  cases c with
  | registerHandler v handler => exact congrArg List.getLast? (List.append_nil _)
  | enable => exact List.getLast?_concat
  | disable => exact List.getLast?_concat

theorem intf_run (s₀ : State) (calls : List Call) :
    (run call (init s₀) calls).flags.intf = (lastSwitch calls).getD true := by
  induction calls using List.reverseRecOn with
  | nil => rfl
  | append_singleton calls c ih =>
      rw [run_append, lastSwitch_concat]
      cases c with
      | registerHandler v handler => exact ih
      | enable => rfl
      | disable => rfl

theorem present_run (s₀ : State) (calls : List Call) (v : BitVec 8) :
    ((run call (init s₀) calls).idt v).present = true ↔
      ∃ handler, .registerHandler v handler ∈ calls := by
  induction calls using List.reverseRecOn with
  | nil =>
      refine iff_of_false ?_ fun ⟨handler, mem⟩ => absurd mem List.not_mem_nil
      show ¬ IDTEntry.cleared.present = true
      decide
  | append_singleton calls c ih =>
      have later (handler : Word) : .registerHandler v handler ∈ calls ++ [c] ↔
          .registerHandler v handler ∈ calls ∨ .registerHandler v handler = c := by
        rw [List.mem_append, List.mem_singleton]
      rw [run_append, exists_congr later, exists_or, ← ih]
      cases c with
      | registerHandler v' handler' =>
          by_cases same : v = v'
          · subst same
            refine iff_of_true ?_ (.inr ⟨handler', rfl⟩)
            show ((register _ (v, handler')).idt v).present = true
            rw [register_self]
            exact gate_present handler'
          · have other : (call (run call (init s₀) calls) (.registerHandler v' handler')).idt v =
                (run call (init s₀) calls).idt v :=
              (register_of_ne _ (v', handler') same).1
            rw [or_iff_left]
            · exact other ▸ Iff.rfl
            · rintro ⟨handler, equal⟩
              exact same (Call.registerHandler.inj equal).1
      | enable => exact (or_iff_left (by rintro ⟨_, ⟨⟩⟩)).symm
      | disable => exact (or_iff_left (by rintro ⟨_, ⟨⟩⟩)).symm

/-- An interrupt that arrives between two calls is covered when the last switch was off, or its
vector has been registered. -/
theorem covered_iff (s₀ : State) (calls : List Call) (v : BitVec 8) :
    Covered (run call (init s₀) calls) v ↔
      lastSwitch calls = some false ∨ ∃ handler, .registerHandler v handler ∈ calls := by
  rw [Covered, intf_run, present_run]
  rcases lastSwitch calls with _ | (_ | _) <;> simp

/-- **Interrupts are taken through empty gates** in every run that starts with `init`: there
is a point of it at which no external interrupt is covered. -/
theorem empty_gates (s₀ : State) (calls : List Call) :
    ¬ ∀ pre, pre <+: initStores ++ calls.flatMap Call.stores →
      ∀ v, External v → Covered (run store s₀ pre) v := by
  intro covered
  have after := covered initStores (List.prefix_append _ _) 32#8 ⟨by decide, by decide⟩
  rw [run_initStores] at after
  exact not_covered_init s₀ 32#8 after

/-- The timer's first interrupt, right after `init`. -/
theorem timer_uncovered :
    ¬ ∀ (s₀ : State) (calls : List Call) (pre : List Store),
      pre <+: initStores ++ calls.flatMap Call.stores →
        ∀ v, External v → Covered (run store s₀ pre) v := by
  intro covered
  let s₀ : State := ⟨fun _ => IDTEntry.cleared, fun _ => 0#32, ⟨false, false⟩⟩
  have after := covered s₀ [] initStores (List.prefix_append _ _) 32#8 ⟨by decide, by decide⟩
  rw [run_initStores] at after
  exact not_covered_init s₀ 32#8 after

end ModernOS.Interrupt
