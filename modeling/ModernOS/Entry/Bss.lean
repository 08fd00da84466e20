import ModernOS.Entry.Start

/-!
The clearing of the BSS by `_start`.

The number of the quadwords comes from a shift that drops the remainder, so that the last bytes of
a BSS whose size is no multiple of eight keep what they were. `clearBss_cleared_iff` says that this
is all that goes wrong.
-/

namespace ModernOS.Entry

open X86 ByteMemory

/-- The clearing sequence of `_start`. -/
def clearBss (σ : Symbols) : List Op := ((startOps σ).drop 4).take 7

/-- The bytes of the BSS are zero, and the others are as before. -/
structure Cleared (σ : Symbols) (before after : ByteMemory) : Prop where
  zeroed : ∀ a, σ.bssStart ≤ a → a < σ.bssEnd → after a = 0#8
  kept : ∀ a, a < σ.bssStart ∨ σ.bssEnd ≤ a → after a = before a

/-- The addresses behind the last whole quadword of the BSS. -/
def InTail (σ : Symbols) (a : BitVec 64) : Prop :=
  σ.bssStart.toNat + 8 * bssQuads σ ≤ a.toNat ∧ a < σ.bssEnd

instance (σ : Symbols) : DecidablePred (InTail σ) := fun _ => inferInstanceAs (Decidable (_ ∧ _))

/-- The byte at an address after the clearing sequence. -/
theorem clearBss_mem_apply (σ : Symbols) (s : State) (a : BitVec 64) :
    (execs s (clearBss σ)).mem a =
      if (a - σ.bssStart).toNat < 8 * bssQuads σ then 0#8 else s.mem a := by
  have mem : (execs s (clearBss σ)).mem = fillString (s.reg .rax ^^^ s.reg .rax) 8#64
      ((σ.bssEnd - σ.bssStart) >>> 3).toNat σ.bssStart s.mem := rfl
  rw [mem, BitVec.xor_self, toNat_bssQuads, fillString_zero_apply (bssQuads_fits σ)]

section

variable {σ : Symbols} (order : σ.bssStart ≤ σ.bssEnd)

include order

theorem toNat_bssSize : (σ.bssEnd - σ.bssStart).toNat = σ.bssEnd.toNat - σ.bssStart.toNat :=
  BitVec.toNat_sub_of_le order

/-- The whole quadwords end inside the BSS. -/
theorem bssQuads_le : σ.bssStart.toNat + 8 * bssQuads σ ≤ σ.bssEnd.toNat := by
  have start_le : σ.bssStart.toNat ≤ σ.bssEnd.toNat := order
  rw [bssQuads, toNat_bssSize order]
  omega

/-- What is cleared, in addresses that do not wrap. -/
theorem lt_bssQuads_iff (a : BitVec 64) : (a - σ.bssStart).toNat < 8 * bssQuads σ ↔
    σ.bssStart ≤ a ∧ a.toNat < σ.bssStart.toNat + 8 * bssQuads σ := by
  have ends := bssQuads_le order
  rw [BitVec.toNat_sub, BitVec.le_def]
  omega

/-- Nothing outside the BSS is cleared. -/
theorem clearBss_mem_outside (s : State) {a : BitVec 64} (outside : a < σ.bssStart ∨ σ.bssEnd ≤ a) :
    (execs s (clearBss σ)).mem a = s.mem a := by
  have ends := bssQuads_le order
  rw [clearBss_mem_apply, if_neg]
  rw [lt_bssQuads_iff order, BitVec.le_def]
  rw [BitVec.lt_def, BitVec.le_def] at outside
  omega

theorem clearBss_cleared_iff (s : State) : Cleared σ s.mem (execs s (clearBss σ)).mem ↔
    ∀ a, InTail σ a → s.mem a = 0#8 := by
  have order_nat : σ.bssStart.toNat ≤ σ.bssEnd.toNat := order
  constructor
  · rintro cleared a ⟨above, below⟩
    have here := cleared.zeroed a (BitVec.le_def.mpr (by omega)) below
    rwa [clearBss_mem_apply, if_neg] at here
    rw [lt_bssQuads_iff order]
    omega
  · intro tail
    constructor
    · intro a above below
      rw [clearBss_mem_apply]
      split
      · rfl
      · rename_i later
        rw [lt_bssQuads_iff order, not_and, Nat.not_lt] at later
        exact tail a ⟨later above, below⟩
    · intro a outside
      exact clearBss_mem_outside order s outside

end

/-! ### In the file -/

/-- The instructions of `_start` from the clearing sequence on. -/
def fromClearing (σ : Symbols) : List (Instr Label External) :=
  (instrsAt .start (entry64 σ)).drop 4

/-- `_start` comes to the clearing sequence with RDI parked on the old stack. -/
theorem start_reaches_clearing (image : Image) (s : State) :
    Reaches image.program (image.enter .start s) ⟨.running (fromClearing image.symbols),
      execs s ((startOps image.symbols).take 4)⟩ :=
  reaches_ops ((startOps image.symbols).take 4) _ s

/-- **The BSS is cleared** exactly when the bytes behind its last whole quadword were zero. -/
theorem clearing_clears_iff (image : Image) (order : image.symbols.bssStart ≤ image.symbols.bssEnd)
    (s : State) :
    Reaches image.program ⟨.running (fromClearing image.symbols), s⟩
      ⟨.running ((fromClearing image.symbols).drop 7), execs s (clearBss image.symbols)⟩ ∧
    (Cleared image.symbols s.mem (execs s (clearBss image.symbols)).mem ↔
      ∀ a, InTail image.symbols a → s.mem a = 0#8) :=
  ⟨reaches_ops (clearBss image.symbols) _ s, clearBss_cleared_iff order s⟩

/-- A BSS of three bytes at 0x10000. -/
def smallBss : Image := Image.spaced ⟨0x10000#64, 0x10003#64, 0x80000#64⟩ (by decide +kernel)

/-- Memory without a zero in it. -/
def dirtyState : State := { stateOf fun _ => 0#64 with mem := fun _ => 1#8 }

/-- In `lowImage` the whole of the BSS is cleared. -/
theorem clearing_clears_low :
    lowImage.symbols.bssStart ≤ lowImage.symbols.bssEnd ∧
      Cleared lowImage.symbols dirtyState.mem
        (execs dirtyState (clearBss lowImage.symbols)).mem := by
  have order : lowImage.symbols.bssStart ≤ lowImage.symbols.bssEnd := by decide
  refine ⟨order, (clearing_clears_iff lowImage order dirtyState).2.mpr fun a tail => ?_⟩
  obtain ⟨above, below⟩ := tail
  have ends : lowImage.symbols.bssStart.toNat + 8 * bssQuads lowImage.symbols = 0x20000 := by
    decide
  have whole : a.toNat < 0x20000 := below
  omega

/-- A small BSS is not cleared at all. -/
theorem clearing_misses_tail :
    ¬ ∀ (image : Image) (s : State), image.symbols.bssStart ≤ image.symbols.bssEnd →
      Cleared image.symbols s.mem (execs s (clearBss image.symbols)).mem := by
  intro all
  have order : smallBss.symbols.bssStart ≤ smallBss.symbols.bssEnd := by decide
  have tail := (clearBss_cleared_iff order dirtyState).mp (all smallBss dirtyState order)
  exact absurd (tail 0x10000#64 (by decide)) (by decide)

end ModernOS.Entry
