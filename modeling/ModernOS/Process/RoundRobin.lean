import ModernOS.Process.Events
import ModernOS.Process.Switch
import Mathlib.Data.Finset.Max
import Mathlib.Tactic.IntervalCases
import Mathlib.Tactic.Set

/-!
The order in which `schedule` dispatches processes.

`schedule` searches the table from slot 0 at each call and does not remember where
the last search stopped. While no process is created or terminated, the slots it can
dispatch form a fixed set: the runnable ones, and the slot `current_process` points
to (`Rotating`). Every dispatch falls on one of the two lowest slots of this set
(`Rotating.two_lowest`), and never twice in a row on the same one
(`nextSlot_ne_of_dispatched`). `roundRobin_iff` reads off when this is a round robin.
-/

namespace ModernOS.ProcessTable

open SlotTable

variable {μ : Type}

/-- A slot whose process wants the processor. -/
def Runnable (k : Table μ) (i : Slot) : Prop := k.states i = .ready ∨ k.states i = .running

instance (k : Table μ) : DecidablePred (Runnable k) := fun _ => inferInstanceAs (Decidable (_ ∨ _))

/-- A table with `n` runnable processes, at most one of them running, and no others. -/
structure RunnableTable (n : ℕ) (k : Table μ) : Prop where
  count : (Finset.univ.filter (Runnable k)).card = n
  others : ∀ i, ¬ Runnable k i → k.states i = .terminated
  running : ∀ i, k.states i = .running → k.currentProcess = some i
  processCount : k.processCount = BitVec.ofNat 32 n

/-- The table after `t` calls of `schedule`. -/
def tableAt (k : Table μ) (cpus : ℕ → Cpu) : ℕ → Table μ
  | 0 => k
  | t + 1 => afterSwitch (tableAt k cpus t) (cpus t)

/-- The slot that call number `t` dispatches. -/
def dispatchedAt (k : Table μ) (cpus : ℕ → Cpu) (t : ℕ) : Option Slot :=
  nextSlot (tableAt k cpus t)

/-- In any `n` successive calls each runnable process is dispatched exactly once. -/
def RoundRobin (n : ℕ) (k : Table μ) : Prop :=
  ∀ cpus t i, Runnable k i → ∃! j, j < n ∧ dispatchedAt k cpus (t + j) = some i

/-! ### The slots that take turns -/

/-- `turns` holds the slots that can be dispatched: each of them is ready unless it is the
current one. -/
structure Rotating (turns : Finset Slot) (k : Table μ) : Prop where
  ready_mem : ∀ i, k.states i = .ready → i ∈ turns
  waiting : ∀ i ∈ turns, k.currentProcess ≠ some i → k.states i = .ready
  current_mem : ∀ c, k.currentProcess = some c → c ∈ turns
  counted : k.processCount ≠ 0#32

/-- The runnable slots and the current one. -/
def turnsOf (k : Table μ) : Finset Slot :=
  Finset.univ.filter fun i => Runnable k i ∨ k.currentProcess = some i

theorem mem_turnsOf {k : Table μ} {i : Slot} :
    i ∈ turnsOf k ↔ Runnable k i ∨ k.currentProcess = some i := by
  simp [turnsOf]

theorem RunnableTable.rotating {n : ℕ} {k : Table μ} (table : RunnableTable n k) (several : 0 < n) :
    Rotating (turnsOf k) k where
  ready_mem _ ready := mem_turnsOf.mpr (Or.inl (Or.inl ready))
  waiting i mem waiting := by
    rcases mem_turnsOf.mp mem with (ready | running) | current
    · exact ready
    · exact absurd (table.running i running) waiting
    · exact absurd current waiting
  current_mem _ current := mem_turnsOf.mpr (Or.inr current)
  counted := by
    have bound : (Finset.univ.filter (Runnable k)).card ≤ 256 := countSlots_le (P := fun s =>
      s = ProcessState.ready ∨ s = ProcessState.running) (t := k.states)
    rw [table.count] at bound
    rw [table.processCount]
    intro empty
    have := congrArg BitVec.toNat empty
    rw [BitVec.toNat_ofNat] at this
    simp only [BitVec.toNat_ofNat] at this
    omega

theorem Rotating.afterSwitch {turns : Finset Slot} {k : Table μ} (inv : Rotating turns k)
    (cpu : Cpu) : Rotating turns (afterSwitch k cpu) := by
  unfold ProcessTable.afterSwitch
  cases next : nextSlot k with
  | none =>
      rw [schedule_of_none cpu next]
      exact inv
  | some n =>
      have switched := schedule_of_some cpu next
      have turn := inv.ready_mem n (ready_of_nextSlot next)
      constructor
      · intro i ready
        rw [switched.states] at ready
        split at ready
        · cases ready
        · unfold View.yielded at ready
          split at ready
          · rename_i current
            exact inv.current_mem i current
          · exact inv.ready_mem i ready
      · intro i mem waiting
        rw [switched.currentProcess] at waiting
        have other : i ≠ n := fun same => waiting (by rw [same])
        rw [switched.states, if_neg other]
        unfold View.yielded
        split
        · rfl
        · rename_i idle
          exact inv.waiting i mem idle
      · intro c current
        rw [switched.currentProcess] at current
        rw [← Option.some.inj current]
        exact turn
      · rw [switched.processCount]
        exact inv.counted

theorem Rotating.tableAt {turns : Finset Slot} {k : Table μ} (inv : Rotating turns k)
    (cpus : ℕ → Cpu) (t : ℕ) : Rotating turns (tableAt k cpus t) := by
  induction t with
  | zero => exact inv
  | succ t ih => exact ih.afterSwitch (cpus t)

section TwoLowest

variable {turns : Finset Slot} {k : Table μ} {a b : Slot}

/-- Where two slots take turns, one of them is ready. -/
theorem Rotating.exists_nextSlot (inv : Rotating turns k) (ha : a ∈ turns) (hb : b ∈ turns)
    (apart : a ≠ b) : ∃ n, nextSlot k = some n := by
  refine ProcessTable.exists_nextSlot.mpr ⟨inv.counted, ?_⟩
  by_cases current : k.currentProcess = some a
  · refine ⟨b, inv.waiting b hb fun other => apart ?_⟩
    exact Option.some.inj (current.symm.trans other)
  · exact ⟨a, inv.waiting a ha current⟩

/-- The search stops at one of the two lowest slots that take turns: at most one of them is
not ready. -/
theorem Rotating.two_lowest (inv : Rotating turns k) (ha : a ∈ turns) (hb : b ∈ turns)
    (below : a < b) (lowest : ∀ i ∈ turns, i = a ∨ b ≤ i) {n : Slot}
    (next : nextSlot k = some n) : n = a ∨ n = b := by
  rcases lowest n (inv.ready_mem n (ready_of_nextSlot next)) with same | above
  · exact Or.inl same
  by_cases current : k.currentProcess = some b
  · have ready : k.states a = .ready := inv.waiting a ha fun other =>
      below.ne (Option.some.inj (other.symm.trans current))
    exact absurd (nextSlot_le next ready) (not_le.mpr (below.trans_le above))
  · exact Or.inr (le_antisymm (nextSlot_le next (inv.waiting b hb current)) above)

end TwoLowest

/-- A dispatched process is running at the next call, and so not dispatched again. -/
theorem nextSlot_ne_of_dispatched {k : Table μ} {n : Slot} (next : nextSlot k = some n)
    (cpu : Cpu) : nextSlot (afterSwitch k cpu) ≠ some n := by
  intro again
  have running : (afterSwitch k cpu).states n = .running :=
    ((schedule_of_some cpu next).states n).trans (if_pos rfl)
  rw [ready_of_nextSlot again] at running
  cases running

/-- Two slots that take turns, and that alone, alternate. -/
structure Alternating (a b : Slot) (k : Table μ) : Prop where
  apart : a ≠ b
  dispatches : ∀ cpus t, dispatchedAt k cpus t = some a ∨ dispatchedAt k cpus t = some b

/-- In a rotating table the two lowest slots alternate. -/
theorem Rotating.alternating {turns : Finset Slot} {k : Table μ} (inv : Rotating turns k)
    {a b : Slot} (ha : a ∈ turns) (hb : b ∈ turns) (below : a < b)
    (lowest : ∀ i ∈ turns, i = a ∨ b ≤ i) : Alternating a b k := by
  refine ⟨below.ne, fun cpus t => ?_⟩
  obtain ⟨n, next⟩ := (inv.tableAt cpus t).exists_nextSlot ha hb below.ne
  rcases (inv.tableAt cpus t).two_lowest ha hb below lowest next with rfl | rfl
  · exact Or.inl next
  · exact Or.inr next

/-- Of two slots that alternate, each is dispatched exactly once in any two successive
calls. -/
theorem Alternating.existsUnique {a b : Slot} {k : Table μ} (alternating : Alternating a b k)
    (cpus : ℕ → Cpu) (t : ℕ) {i : Slot} (mem : i = a ∨ i = b) :
    ∃! j, j < 2 ∧ dispatchedAt k cpus (t + j) = some i := by
  have fresh : ∀ {n}, dispatchedAt k cpus t = some n → dispatchedAt k cpus (t + 1) ≠ some n :=
    fun next => nextSlot_ne_of_dispatched next (cpus t)
  have second := alternating.dispatches cpus (t + 1)
  by_cases first : dispatchedAt k cpus t = some i
  · refine ⟨0, ⟨by decide, first⟩, ?_⟩
    rintro j ⟨small, again⟩
    interval_cases j
    · rfl
    · exact absurd again (fresh first)
  · have now : dispatchedAt k cpus (t + 1) = some i := by
      rcases alternating.dispatches cpus t with old | old <;>
        rcases second with new | new <;> rcases mem with rfl | rfl <;>
        first | exact new | exact absurd old first | exact absurd new (fresh old)
    refine ⟨1, ⟨by decide, now⟩, ?_⟩
    rintro j ⟨small, again⟩
    interval_cases j
    · exact absurd again first
    · rfl

/-! ### When this is a round robin -/

/-- A finite set of slots with two elements has two lowest ones. -/
theorem exists_two_lowest {turns : Finset Slot} (two : 1 < turns.card) :
    ∃ a ∈ turns, ∃ b ∈ turns, a < b ∧ ∀ i ∈ turns, i = a ∨ b ≤ i := by
  have nonempty : turns.Nonempty := Finset.card_pos.mp (by omega)
  set a := turns.min' nonempty
  have rest : (turns.erase a).Nonempty := by
    rw [← Finset.card_pos, Finset.card_erase_of_mem (turns.min'_mem nonempty)]
    omega
  obtain ⟨other, mem⟩ := Finset.mem_erase.mp ((turns.erase a).min'_mem rest)
  refine ⟨a, turns.min'_mem nonempty, _, mem, ?_, fun i hi => ?_⟩
  · exact lt_of_le_of_ne (turns.min'_le _ mem) (Ne.symm other)
  · by_cases lowest : i = a
    · exact Or.inl lowest
    · exact Or.inr ((turns.erase a).min'_le i (Finset.mem_erase.mpr ⟨lowest, hi⟩))

/-- The runnable slots are `a` and `b`, and these are the two lowest that take turns. -/
structure LowestTwo (a b : Slot) (k : Table μ) : Prop where
  below : a < b
  runnable : Finset.univ.filter (Runnable k) = {a, b}
  lowest : ∀ i ∈ turnsOf k, i = a ∨ b ≤ i

theorem LowestTwo.runnable_iff {a b : Slot} {k : Table μ} (two : LowestTwo a b k) (i : Slot) :
    Runnable k i ↔ i = a ∨ i = b := by
  simpa using Finset.ext_iff.mp two.runnable i

/-- Every runnable slot is dispatched, and only the two lowest slots are. -/
theorem lowestTwo_of_roundRobin {n : ℕ} {k : Table μ} (several : 2 ≤ n) (table : RunnableTable n k)
    (robin : RoundRobin n k) : ∃ a b, LowestTwo a b k := by
  have sub : Finset.univ.filter (Runnable k) ⊆ turnsOf k := fun i mem =>
    mem_turnsOf.mpr (Or.inl (Finset.mem_filter.mp mem).2)
  have two : 1 < (turnsOf k).card :=
    lt_of_lt_of_le several (table.count ▸ Finset.card_le_card sub)
  obtain ⟨a, ha, b, hb, below, lowest⟩ := exists_two_lowest two
  have alternating := (table.rotating (by omega)).alternating ha hb below lowest
  have only : Finset.univ.filter (Runnable k) ⊆ {a, b} := fun i mem => by
    obtain ⟨j, ⟨-, now⟩, -⟩ :=
      robin (fun _ => ⟨0#32, 0#32, 0#32⟩) 0 i (Finset.mem_filter.mp mem).2
    rcases alternating.dispatches (fun _ => ⟨0#32, 0#32, 0#32⟩) (0 + j) with old | old
    · simp [Option.some.inj (now.symm.trans old)]
    · simp [Option.some.inj (now.symm.trans old)]
  refine ⟨a, b, below, Finset.eq_of_subset_of_card_le only ?_, lowest⟩
  rw [table.count, Finset.card_pair below.ne]
  exact several

/-- A terminated current process is not one of the two runnable ones, so it lies above. -/
theorem LowestTwo.stale_above {a b : Slot} {k : Table μ} (two : LowestTwo a b k) {c i : Slot}
    (current : k.currentProcess = some c) (term : k.states c = .terminated)
    (runnable : Runnable k i) : i < c := by
  have idle : ¬ Runnable k c := by
    rintro (ready | running)
    · rw [ready] at term
      cases term
    · rw [running] at term
      cases term
  rw [two.runnable_iff, not_or] at idle
  have above : b < c := by
    rcases two.lowest c (mem_turnsOf.mpr (Or.inr current)) with same | le
    · exact absurd same idle.1
    · exact lt_of_le_of_ne le (Ne.symm idle.2)
  rcases (two.runnable_iff i).mp runnable with rfl | rfl
  · exact two.below.trans above
  · exact above

theorem exists_lowestTwo {k : Table μ} (table : RunnableTable 2 k)
    (stale : ∀ c, k.currentProcess = some c → k.states c = .terminated →
      ∀ i, Runnable k i → i < c) : ∃ a b, LowestTwo a b k := by
  have two : 1 < (Finset.univ.filter (Runnable k)).card := by
    rw [table.count]
    decide
  obtain ⟨a, ha, b, hb, below, lowest⟩ := exists_two_lowest two
  refine ⟨a, b, below, (Finset.eq_of_subset_of_card_le ?_ ?_).symm, fun i mem => ?_⟩
  · exact Finset.insert_subset ha (Finset.singleton_subset_iff.mpr hb)
  · rw [table.count, Finset.card_pair below.ne]
  · by_cases runnable : Runnable k i
    · exact lowest i (Finset.mem_filter.mpr ⟨Finset.mem_univ i, runnable⟩)
    · have current := (mem_turnsOf.mp mem).resolve_left runnable
      exact Or.inr (stale i current (table.others i runnable) b (Finset.mem_filter.mp hb).2).le

/-- **`schedule` is a round robin exactly for two runnable processes**, and then only if a
terminated process that `current_process` still points to lies above both of them: the
first call makes such a process ready again. -/
theorem roundRobin_iff {n : ℕ} {k : Table μ} (several : 2 ≤ n) (table : RunnableTable n k) :
    RoundRobin n k ↔
      n = 2 ∧ ∀ c, k.currentProcess = some c → k.states c = .terminated →
        ∀ i, Runnable k i → i < c := by
  constructor
  · intro robin
    obtain ⟨a, b, two⟩ := lowestTwo_of_roundRobin several table robin
    have card := congrArg Finset.card two.runnable
    rw [table.count, Finset.card_pair two.below.ne] at card
    exact ⟨card, fun c current term i => two.stale_above current term⟩
  · rintro ⟨rfl, stale⟩ cpus t i runnable
    obtain ⟨a, b, two⟩ := exists_lowestTwo table stale
    have member : ∀ j, j = a ∨ j = b → j ∈ turnsOf k := fun j either =>
      mem_turnsOf.mpr (Or.inl ((two.runnable_iff j).mpr either))
    have alternating := (table.rotating (by decide)).alternating (member a (Or.inl rfl))
      (member b (Or.inr rfl)) two.below two.lowest
    exact alternating.existsUnique cpus t ((two.runnable_iff i).mp runnable)

/-- Two processes, the first one running, take turns. -/
theorem roundRobin_pair : RoundRobin 2 pair := by
  refine (roundRobin_iff le_rfl ⟨?_, ?_, ?_, ?_⟩).mpr ⟨rfl, ?_⟩
  · decide +kernel
  · decide +kernel
  · decide +kernel
  · decide +kernel
  · decide +kernel

/-- Three ready processes in the lowest slots. -/
def trio : Table Unit where
  processes := fun i => { Process.zeroed with state := if i.val < 3 then .ready else .terminated }
  processCount := 3#32
  nextPid := 4#32
  currentProcess := none
  memory := ()

/-- The first three calls dispatch slots 0, 1 and 0. -/
theorem roundRobin_starves :
    ¬ ∀ (n : ℕ) (k : Table Unit), 2 ≤ n → RunnableTable n k → RoundRobin n k := by
  intro robin
  have table : RunnableTable 3 trio :=
    ⟨by decide +kernel, by decide +kernel, by decide +kernel, by decide +kernel⟩
  obtain ⟨j, ⟨small, now⟩, -⟩ :=
    robin 3 trio (by decide) table (fun _ => ⟨0#32, 0#32, 0#32⟩) 0 2 (by decide +kernel)
  have never : ∀ j < 3, dispatchedAt trio (fun _ => ⟨0#32, 0#32, 0#32⟩) (0 + j) ≠ some 2 := by
    decide +kernel
  exact never j small now

end ModernOS.ProcessTable
