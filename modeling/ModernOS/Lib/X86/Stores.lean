import ModernOS.Lib.X86.Program
import Mathlib.Data.Set.Lattice

/-!
The bytes that a run of `ModernOS.Lib.X86.Program` stores to.

`Config.stores` gives those of the next step: every other byte stays as it is
(`step_mem`). `storedBy` collects them over the whole run, and `iterate_mem` is the frame
condition that goes with it. It is computed along the run: `storedBy_step` takes off a step,
`storedBy_ops` a block, and a run that has ended stores nothing more (`storedBy_stopped`).
A block of pushes stores to the bytes just below the stack pointer
(`opsStores_pushes`).
-/

namespace X86

/-- The bytes of the quadword at `a`. -/
def quadword (a : BitVec 64) : Set (BitVec 64) := {b | (b - a).toNat < 8}

/-- The `n` bytes below `a`. -/
def bytesBelow (a : BitVec 64) (n : ℕ) : Set (BitVec 64) := {b | (a - 1#64 - b).toNat < n}

theorem mem_quadword {a b : BitVec 64} : b ∈ quadword a ↔ (b - a).toNat < 8 := Iff.rfl

theorem mem_bytesBelow {a b : BitVec 64} {n : ℕ} :
    b ∈ bytesBelow a n ↔ (a - 1#64 - b).toNat < n := Iff.rfl

theorem bytesBelow_zero (a : BitVec 64) : bytesBelow a 0 = ∅ :=
  Set.eq_empty_of_forall_notMem fun _ => Nat.not_lt_zero _

/-- The quadword below `a`, and `n` bytes below that. -/
theorem bytesBelow_add (a : BitVec 64) {n : ℕ} (fits : n + 8 ≤ 2 ^ 64) :
    bytesBelow a (n + 8) = quadword (a - 8#64) ∪ bytesBelow (a - 8#64) n := by
  ext b
  rw [Set.mem_union, mem_bytesBelow, mem_bytesBelow, mem_quadword]
  bv_omega

/-- The bytes below `a` lie between `low` and `high` when `a` does, with room for them. -/
theorem bytesBelow_within_iff {a low high : BitVec 64} {n : ℕ} (some_byte : 0 < n)
    (fits : n ≤ 2 ^ 64) :
    (∀ b ∈ bytesBelow a n, low ≤ b ∧ b < high) ↔
      low.toNat + n ≤ a.toNat ∧ a.toNat ≤ high.toNat := by
  simp only [mem_bytesBelow]
  constructor
  · intro within
    -- Bytes that wrap around include the last address, which no region has.
    have straight : n ≤ a.toNat := by
      by_contra wraps
      have last := (within 0xFFFFFFFFFFFFFFFF#64 (by bv_omega)).2
      bv_omega
    have lowest := (within (a - BitVec.ofNat 64 n) (by bv_omega)).1
    have highest := (within (a - 1#64) (by bv_omega)).2
    constructor <;> bv_omega
  · rintro ⟨above, under⟩ b inside
    constructor <;> bv_omega

/-! ### One step -/

/-- The bytes an instruction stores to. -/
def Op.storesTo (s : State) : Op → Set (BitVec 64)
  | .push _ | .pushImm _ => quadword (s.reg .rsp - 8#64)
  | .repStosq =>
      {b | ∃ k < (s.reg .rcx).toNat, b ∈ quadword
        (s.reg .rdi + BitVec.ofNat 64 k * if s.direction then -8#64 else 8#64)}
  | _ => ∅

variable {L X : Type}

/-- A call stores its return address. -/
def Instr.storesTo (s : State) : Instr L X → Set (BitVec 64)
  | .op o => o.storesTo s
  | .call _ | .callExternal _ => quadword (s.reg .rsp - 8#64)
  | _ => ∅

/-- The bytes that the next step stores to. -/
def Config.stores (c : Config L X) : Set (BitVec 64) :=
  match c.status with
  | .running (i :: _) => i.storesTo c.state
  | _ => ∅

theorem push_mem_of_notMem {s : State} {b : BitVec 64} (v : BitVec 64)
    (apart : b ∉ quadword (s.reg .rsp - 8#64)) : (s.push v).mem b = s.mem b := by
  rw [State.push_mem, ByteMemory.write_apply]
  exact if_neg apart

theorem exec_mem_of_notMem {s : State} {o : Op} {b : BitVec 64} (apart : b ∉ o.storesTo s) :
    (exec s o).mem b = s.mem b := by
  cases o with
  | push r => exact push_mem_of_notMem _ apart
  | pushImm v => exact push_mem_of_notMem v apart
  | repStosq =>
      refine ByteMemory.fillString_apply_of_apart (fun k small => ?_) s.mem
      exact Nat.le_of_not_lt fun meets => apart ⟨k, small, meets⟩
  | _ => exact congrFun (exec_mem s _ rfl) b

variable [DecidableEq L] {P : Program L X}

/-- A step leaves the bytes that it does not store to. -/
theorem step_mem {c : Config L X} {b : BitVec 64} (apart : b ∉ c.stores) :
    (step P c).state.mem b = c.state.mem b := by
  obtain ⟨status, s⟩ := c
  cases status with
  | running code =>
      cases code with
      | nil => rfl
      | cons i rest =>
          rw [step_running]
          cases i with
          | op o => exact exec_mem_of_notMem apart
          | call l => exact push_mem_of_notMem _ apart
          | callExternal x => exact push_mem_of_notMem _ apart
          | ret =>
              rw [stepInstr]
              cases P.resolve s.top <;> rfl
          | _ => rfl
  | _ => rfl

/-! ### Whole runs -/

/-- The bytes that the run from `c` stores to. -/
def storedBy (P : Program L X) (c : Config L X) : Set (BitVec 64) := ⋃ n, ((step P)^[n] c).stores

/-- A run leaves the bytes that it does not store to. -/
theorem iterate_mem {c : Config L X} {b : BitVec 64} (apart : b ∉ storedBy P c) (n : ℕ) :
    ((step P)^[n] c).state.mem b = c.state.mem b := by
  induction n with
  | zero => rfl
  | succ n ih =>
      rw [Function.iterate_succ_apply', step_mem, ih]
      exact fun stores => apart (Set.mem_iUnion.mpr ⟨n, stores⟩)

theorem storedBy_step (c : Config L X) : storedBy P c = c.stores ∪ storedBy P (step P c) := by
  ext b
  simp only [storedBy, Set.mem_iUnion, Set.mem_union]
  constructor
  · rintro ⟨n, stores⟩
    cases n with
    | zero => exact .inl stores
    | succ n => exact .inr ⟨n, stores⟩
  · rintro (stores | ⟨n, stores⟩)
    · exact ⟨0, stores⟩
    · exact ⟨n + 1, stores⟩

/-- A run that has ended stores nothing. -/
theorem storedBy_stopped {c : Config L X} (quiet : c.stores = ∅) (stops : step P c = c) :
    storedBy P c = ∅ := by
  refine Set.iUnion_eq_empty.mpr fun n => ?_
  rw [Function.iterate_fixed stops, quiet]

/-- The bytes that a block stores to. -/
def opsStores (s : State) : List Op → Set (BitVec 64)
  | [] => ∅
  | o :: os => o.storesTo s ∪ opsStores (exec s o) os

theorem storedBy_ops (os : List Op) (rest : List (Instr L X)) (s : State) :
    storedBy P ⟨.running (os.map .op ++ rest), s⟩ =
      opsStores s os ∪ storedBy P ⟨.running rest, execs s os⟩ := by
  induction os generalizing s with
  | nil => exact (Set.empty_union _).symm
  | cons o os ih =>
      rw [storedBy_step, opsStores, Set.union_assoc, execs_cons, ← ih]
      rfl

/-- A block without stores. -/
theorem opsStores_quiet {os : List Op} (quiet : ∀ o ∈ os, o.stores = false) (s : State) :
    opsStores s os = ∅ := by
  induction os generalizing s with
  | nil => rfl
  | cons o os ih =>
      have none : o.storesTo s = ∅ := by
        have no_store := quiet o List.mem_cons_self
        cases o with
        | push | pushImm | repStosq => cases no_store
        | _ => rfl
      rw [opsStores, none, Set.empty_union]
      exact ih (fun o' mem => quiet o' (List.mem_cons_of_mem o mem)) _

/-- A block of pushes. -/
theorem opsStores_pushes (rs : List Reg) (fits : 8 * rs.length ≤ 2 ^ 64) (s : State) :
    opsStores s (rs.map .push) = bytesBelow (s.reg .rsp) (8 * rs.length) := by
  induction rs generalizing s with
  | nil => exact (bytesBelow_zero _).symm
  | cons r rs ih =>
      rw [List.length_cons] at fits ⊢
      rw [List.map_cons, opsStores, ih (by omega), Nat.mul_succ, bytesBelow_add _ (by omega)]
      rfl

end X86
