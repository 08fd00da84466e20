import ModernOS.Lib.X86.Machine
import Mathlib.Data.List.Nodup

/-!
The stack of the machine of `ModernOS.Lib.X86.Machine`, and functions that keep to
the System V AMD64 calling convention.

`State.quad` numbers the quadwords from the top of the stack, and `quad_push_succ`
and `quad_drop` say how a push and a pop renumber them. A block of pushes is
`State.pushes`; `reg_pops` and `quad_pops` describe a block of pops. `reg_restored`
puts the two together: registers that were pushed come back, whatever happened in
between, when the quadwords that hold them were kept.
-/

namespace X86

namespace State

/-- Quadword number `i` of the stack, from the top. -/
def quad (s : State) (i : ℕ) : BitVec 64 := s.mem.read 8 (s.reg .rsp + 8#64 * BitVec.ofNat 64 i)

/-- Push quadwords, the first one first. -/
def pushes (s : State) (vs : List (BitVec 64)) : State := vs.foldl push s

variable (s : State) (r : Reg) (v : BitVec 64) (vs : List (BitVec 64))

@[simp] theorem quad_zero : s.quad 0 = s.top := by simp [quad, top]

theorem quad_push_succ {i : ℕ} (small : i < 2 ^ 60) : (s.push v).quad (i + 1) = s.quad i := by
  have place : s.reg .rsp - 8#64 + 8#64 * BitVec.ofNat 64 (i + 1)
      = s.reg .rsp + 8#64 * BitVec.ofNat 64 i := by bv_omega
  have apart : ByteMemory.Apart (s.reg .rsp - 8#64) 8
      (s.reg .rsp + 8#64 * BitVec.ofNat 64 i) 8 := ⟨by bv_omega, by bv_omega⟩
  rw [quad, push_rsp, push_mem, place]
  exact ByteMemory.read_write_of_apart s.mem apart v

theorem quad_drop (i : ℕ) : s.drop.quad i = s.quad (i + 1) := by
  have place : s.reg .rsp + 8#64 + 8#64 * BitVec.ofNat 64 i
      = s.reg .rsp + 8#64 * BitVec.ofNat 64 (i + 1) := by bv_omega
  rw [quad, drop_rsp, drop_mem, place, quad]

theorem quad_set (other : r ≠ .rsp) (i : ℕ) : (s.set r v).quad i = s.quad i := by
  rw [quad, set_reg_of_ne s r .rsp v (Ne.symm other), set_mem, quad]

@[simp] theorem pushes_cons : s.pushes (v :: vs) = (s.push v).pushes vs := rfl

theorem pushes_reg (other : r ≠ .rsp) : (s.pushes vs).reg r = s.reg r := by
  induction vs generalizing s with
  | nil => rfl
  | cons v vs ih => rw [pushes_cons, ih, push_reg s r v other]

theorem pushes_rsp :
    (s.pushes vs).reg .rsp = s.reg .rsp - 8#64 * BitVec.ofNat 64 vs.length := by
  induction vs generalizing s with
  | nil => simp [pushes]
  | cons v vs ih =>
      rw [pushes_cons, ih, push_rsp, List.length_cons]
      bv_omega

/-- The quadwords below those pushed. -/
theorem quad_pushes_add {i : ℕ} (small : vs.length + i < 2 ^ 60) :
    (s.pushes vs).quad (vs.length + i) = s.quad i := by
  induction vs generalizing s i with
  | nil => rw [List.length_nil, Nat.zero_add, pushes, List.foldl_nil]
  | cons v vs ih =>
      rw [List.length_cons] at small ⊢
      rw [pushes_cons, show vs.length + 1 + i = vs.length + (i + 1) by omega, ih _ (by omega)]
      exact quad_push_succ s v (by omega)

/-- The quadwords pushed, the last one on top. -/
theorem quad_pushes {i : ℕ} (small : vs.length < 2 ^ 60) (place : vs.reverse[i]? = some v) :
    (s.pushes vs).quad i = v := by
  induction vs generalizing s with
  | nil => cases place
  | cons v' vs ih =>
      rw [List.length_cons] at small
      rw [List.reverse_cons] at place
      rw [pushes_cons]
      rcases Nat.lt_trichotomy i vs.length with later | rfl | beyond
      · rw [List.getElem?_append_left (by rwa [List.length_reverse])] at place
        exact ih _ (by omega) place
      · rw [← List.length_reverse, List.getElem?_concat_length] at place
        have below := quad_pushes_add (s.push v') vs (i := 0) (by omega)
        rw [Nat.add_zero, quad_zero, top_push] at below
        exact below.trans (Option.some.inj place)
      · have outside : (vs.reverse ++ [v']).length ≤ i := by simpa using Nat.succ_le_of_lt beyond
        rw [List.getElem?_eq_none outside] at place
        cases place

end State

/-! ### Blocks of pushes and pops -/

/-- A block of pushes stores the registers as they are before it. -/
theorem execs_pushes {rs : List Reg} (absent : Reg.rsp ∉ rs) (s : State) :
    execs s (rs.map .push) = s.pushes (rs.map s.reg) := by
  induction rs generalizing s with
  | nil => rfl
  | cons r rs ih =>
      rw [List.mem_cons, not_or] at absent
      rw [List.map_cons, List.map_cons, execs_cons, State.pushes_cons, ih absent.2]
      refine congrArg _ (List.map_congr_left fun r' mem => ?_)
      exact s.push_reg r' _ fun same => absent.2 (same ▸ mem)

/-- The registers pushed are on top, the last one first. -/
theorem quad_pushed {rs : List Reg} (absent : Reg.rsp ∉ rs) (short : rs.length < 2 ^ 60)
    (s : State) {i : ℕ} {r : Reg} (place : rs.reverse[i]? = some r) :
    (execs s (rs.map .push)).quad i = s.reg r := by
  have stored : (rs.map s.reg).reverse[i]? = some (s.reg r) := by
    rw [← List.map_reverse, List.getElem?_map, place, Option.map_some]
  rw [execs_pushes absent]
  exact State.quad_pushes s _ _ (by rwa [List.length_map]) stored

theorem rsp_pushed {rs : List Reg} (absent : Reg.rsp ∉ rs) (s : State) :
    (execs s (rs.map .push)).reg .rsp = s.reg .rsp - 8#64 * BitVec.ofNat 64 rs.length := by
  rw [execs_pushes absent, State.pushes_rsp, List.length_map]

/-- `add rsp, 8` drops a quadword. -/
theorem quad_addImm_rsp (s : State) (i : ℕ) :
    (exec s (.addImm .rsp 8#64)).quad i = s.quad (i + 1) := by
  rw [← s.quad_drop i]
  unfold State.quad
  rfl

/-- A block of pops uncovers the quadwords below. -/
theorem quad_pops {rs : List Reg} (absent : Reg.rsp ∉ rs) (s : State) (i : ℕ) :
    (execs s (rs.map .pop)).quad i = s.quad (rs.length + i) := by
  induction rs generalizing s with
  | nil => rw [List.length_nil, Nat.zero_add, List.map_nil, execs_nil]
  | cons r rs ih =>
      rw [List.mem_cons, not_or] at absent
      rw [List.map_cons, execs_cons, ih absent.2]
      show (s.drop.set r s.top).quad _ = _
      rw [State.quad_set _ r _ (Ne.symm absent.1), State.quad_drop, List.length_cons]
      exact congrArg s.quad (by omega)

theorem rsp_pops {rs : List Reg} (absent : Reg.rsp ∉ rs) (s : State) :
    (execs s (rs.map .pop)).reg .rsp = s.reg .rsp + 8#64 * BitVec.ofNat 64 rs.length := by
  induction rs generalizing s with
  | nil => simp
  | cons r rs ih =>
      rw [List.mem_cons, not_or] at absent
      have popped : (exec s (.pop r)).reg .rsp = s.reg .rsp + 8#64 :=
        (State.set_reg_of_ne s.drop r .rsp s.top absent.1).trans s.drop_rsp
      rw [List.map_cons, execs_cons, ih absent.2, popped, List.length_cons]
      bv_omega

/-- A block of pops leaves the other registers. -/
theorem reg_pops_of_notMem {rs : List Reg} {r : Reg} (other : r ≠ .rsp) (notMem : r ∉ rs)
    (s : State) : (execs s (rs.map .pop)).reg r = s.reg r := by
  refine execs_reg (fun o mem => ?_) s
  obtain ⟨r', among, rfl⟩ := List.mem_map.mp mem
  simp only [Op.writes, List.mem_cons, List.not_mem_nil, or_false, not_or]
  exact ⟨other, fun same => notMem (same ▸ among)⟩

/-- A block of pops loads its registers from the quadwords on top. -/
theorem reg_pops {rs : List Reg} (nodup : rs.Nodup) (absent : Reg.rsp ∉ rs) (s : State) {i : ℕ}
    {r : Reg} (place : rs[i]? = some r) : (execs s (rs.map .pop)).reg r = s.quad i := by
  induction rs generalizing s i with
  | nil => cases place
  | cons r' rs ih =>
      rw [List.mem_cons, not_or] at absent
      rw [List.nodup_cons] at nodup
      rw [List.map_cons, execs_cons]
      cases i with
      | zero =>
          cases Option.some.inj place
          rw [reg_pops_of_notMem (Ne.symm absent.1) nodup.1, State.quad_zero]
          exact State.set_reg_self s.drop r s.top
      | succ i =>
          rw [ih nodup.2 absent.2 _ place]
          show (s.drop.set r' s.top).quad i = _
          rw [State.quad_set _ r' _ (Ne.symm absent.1), State.quad_drop]

/-- Registers that were pushed come back when they are popped in the other order, from
quadwords that were kept in between. -/
theorem reg_restored {rs : List Reg} (nodup : rs.Nodup) (absent : Reg.rsp ∉ rs)
    (short : rs.length < 2 ^ 60) {s t : State}
    (kept : ∀ i < rs.length, t.quad i = (execs s (rs.map .push)).quad i) {r : Reg} (mem : r ∈ rs) :
    (execs t (rs.reverse.map .pop)).reg r = s.reg r := by
  obtain ⟨i, small, place⟩ := List.getElem_of_mem (List.mem_reverse.mpr mem)
  have at_i : rs.reverse[i]? = some r := place ▸ List.getElem?_eq_getElem small
  rw [List.length_reverse] at small
  rw [reg_pops (List.nodup_reverse.mpr nodup) (by simpa using absent) t at_i, kept i small]
  exact quad_pushed absent short s at_i

/-! ### The calling convention -/

/-- The registers that a function keeps for its caller, besides RSP. -/
def calleeSaved : List Reg := [.rbx, .rbp, .r12, .r13, .r14, .r15]

/-- A function that was entered in state `s` has returned in state `t`. Of the caller's stack it
has kept the first `n` quadwords above the return address. -/
structure Returned (n : ℕ) (s t : State) : Prop where
  rsp : t.reg .rsp = s.reg .rsp + 8#64
  saved : ∀ r ∈ calleeSaved, t.reg r = s.reg r
  stack : ∀ i < n, t.quad i = s.quad (i + 1)

/-- A function that does nothing returns so. -/
theorem Returned.drop (n : ℕ) (s : State) : Returned n s s.drop where
  rsp := s.drop_rsp
  saved r mem := State.set_reg_of_ne s .rsp r _ (by rintro rfl; revert mem; decide)
  stack i _ := s.quad_drop i

end X86
