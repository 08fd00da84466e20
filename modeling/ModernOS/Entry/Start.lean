import ModernOS.Entry.Model

/-!
The hand-off of the boot configuration by `_start`.

`_start` pushes RDI on the stack of the bootloader, switches to the kernel stack,
clears the BSS and pops RDI. The pop reads the quadword at `__stack_top`, not the
one that was pushed; `start_calls` computes what `kernel_main64` receives, and
`start_keeps_rdi_iff` says byte by byte when that is the pointer after all.
-/

namespace ModernOS.Entry

open X86 ByteMemory

/-! ### `setup_cpu_features` -/

/-- Below its frame, `setup_cpu_features` keeps the memory, RDI and the stack pointer up to
its last label, whatever features the processor has. -/
theorem setupCpuFeatures_body (image : Image) (s : State) :
    ∃ t, Reaches image.program (image.enter .setupCpuFeatures s)
        ⟨.running (instrsAt .noAvx image.program.lines), t⟩ ∧
      Keeps [.rdi, .rsp] (s.push (s.reg .rbp)) t := by
  let framed := s.push (s.reg .rbp)
  let tested := execs framed (.mov .rbp .rsp :: featureTest .rdx 25)
  have prologue : Reaches image.program (image.enter .setupCpuFeatures s)
      ⟨.running (.jz .noSse :: (enableSse.map .op ++ instrsAt .noSse image.program.lines)),
        tested⟩ :=
    reaches_ops (.push .rbp :: .mov .rbp .rsp :: featureTest .rdx 25) _ s
  obtain ⟨u, sse, kept₁⟩ := reaches_jz_over (P := image.program) [.rdi, .rsp] enableSse (by decide)
    .noSse tested
  have between : Reaches image.program ⟨.running (instrsAt .noSse image.program.lines), u⟩
      ⟨.running (.jz .noAvx :: (enableAvx.map .op ++ instrsAt .noAvx image.program.lines)),
        execs u (featureTest .rcx 28)⟩ :=
    reaches_ops (featureTest .rcx 28) _ u
  obtain ⟨t, avx, kept₂⟩ := reaches_jz_over (P := image.program) [.rdi, .rsp] enableAvx (by decide)
    .noAvx (execs u (featureTest .rcx 28))
  refine ⟨t, (prologue.trans sse).trans (between.trans avx), ?_⟩
  exact ((execs_keeps (by decide) framed).trans kept₁).trans
    ((execs_keeps (by decide) u).trans kept₂)

/-- `setup_cpu_features` comes back with RDI and the stack pointer as they were. -/
theorem setupCpuFeatures_returns (image : Image) (s : State)
    {rest : List (Instr Label External)} (suffix : rest <:+ instrs (entry64 image.symbols)) :
    ∃ t, Reaches image.program
        (image.enter .setupCpuFeatures (s.push (image.address rest.length))) ⟨.running rest, t⟩ ∧
      t.reg .rdi = s.reg .rdi ∧ t.reg .rsp = s.reg .rsp := by
  let called := s.push (image.address rest.length)
  let framed := called.push (called.reg .rbp)
  obtain ⟨w, body, kept⟩ := setupCpuFeatures_body image called
  have rsp : w.reg .rsp = framed.reg .rsp := kept.reg .rsp (by simp)
  -- The return address is still below the saved RBP.
  have top : (exec w (.pop .rbp)).top = image.address rest.length := by
    calc (exec w (.pop .rbp)).top = w.drop.top := State.top_set_of_ne w.drop .rbp _ (by decide)
      _ = framed.drop.top := by
          rw [State.top, State.top, State.drop_rsp, State.drop_rsp, State.drop_mem, State.drop_mem,
            rsp, kept.mem]
      _ = called.top := State.top_drop_push called _
      _ = image.address rest.length := State.top_push s _
  have epilogue : Reaches image.program ⟨.running (instrsAt .noAvx image.program.lines), w⟩
      ⟨.running (.ret :: (instrsAt .noAvx image.program.lines).drop 2), exec w (.pop .rbp)⟩ :=
    reaches_ops [.pop .rbp] _ w
  refine ⟨_, (body.trans epilogue).trans (Reaches.ret suffix top), ?_, ?_⟩
  · calc (exec w (.pop .rbp)).drop.reg .rdi = w.reg .rdi := rfl
      _ = framed.reg .rdi := kept.reg .rdi (by simp)
      _ = s.reg .rdi := rfl
  · calc (exec w (.pop .rbp)).drop.reg .rsp = w.reg .rsp + 8#64 + 8#64 := rfl
      _ = s.reg .rsp - 8#64 - 8#64 + 8#64 + 8#64 := by rw [rsp]; rfl
      _ = s.reg .rsp := by rw [BitVec.sub_add_cancel, BitVec.sub_add_cancel]

/-! ### The parked pointer -/

/-- The number of quadwords of BSS that `_start` clears. -/
def bssQuads (σ : Symbols) : ℕ := (σ.bssEnd - σ.bssStart).toNat / 8

theorem toNat_bssQuads (σ : Symbols) :
    ((σ.bssEnd - σ.bssStart) >>> 3).toNat = bssQuads σ := by
  rw [BitVec.toNat_ushiftRight, Nat.shiftRight_eq_div_pow]
  rfl

theorem bssQuads_fits (σ : Symbols) : 8 * bssQuads σ ≤ 2 ^ 64 :=
  (Nat.mul_div_le _ _).trans (σ.bssEnd - σ.bssStart).isLt.le

/-- The byte at address `a` after the push of RDI and the clearing of the BSS. -/
def parkedByte (σ : Symbols) (s : State) (a : BitVec 64) : BitVec 8 :=
  if (a - σ.bssStart).toNat < 8 * bssQuads σ then 0#8
  else if (a - (s.reg .rsp - 8#64)).toNat < 8 then
    byte (a - (s.reg .rsp - 8#64)).toNat (s.reg .rdi)
  else s.mem a

/-- What `_start` pops into RDI. -/
theorem execs_startOps_rdi (σ : Symbols) (s : State) :
    (execs s (startOps σ)).reg .rdi =
      (fillString (s.reg .rax ^^^ s.reg .rax) 8#64 ((σ.bssEnd - σ.bssStart) >>> 3).toNat σ.bssStart
        (s.mem.write 8 (s.reg .rsp - 8#64) (s.reg .rdi))).read 8 σ.stackTop := rfl

theorem execs_startOps_rdi_iff (σ : Symbols) (s : State) :
    (execs s (startOps σ)).reg .rdi = s.reg .rdi ↔
      ∀ k < 8, parkedByte σ s (σ.stackTop + BitVec.ofNat 64 k) = byte k (s.reg .rdi) := by
  rw [execs_startOps_rdi, BitVec.xor_self, toNat_bssQuads, read_eq_iff (n := 8)]
  simp only [fillString_zero_apply (bssQuads_fits σ), write_apply]
  rfl

/-! ### The hand-off -/

/-- `_start` calls `kernel_main64`, with what it popped in RDI. -/
theorem start_calls (image : Image) (s : State) :
    ∃ t, Calls image.program (image.enter .start s) .kernelMain64 t ∧
      t.reg .rdi = (execs s (startOps image.symbols)).reg .rdi := by
  let popped := execs s (startOps image.symbols)
  let rest := (instrsAt .start (entry64 image.symbols)).drop 13
  have suffix : rest <:+ instrs (entry64 image.symbols) :=
    (List.drop_suffix 13 _).trans (instrsAt_suffix Label.start _)
  have first : Reaches image.program (image.enter .start s)
      ⟨.running (.call .setupCpuFeatures :: rest), popped⟩ :=
    reaches_ops (startOps image.symbols) _ s
  have enters : Reaches image.program ⟨.running (.call .setupCpuFeatures :: rest), popped⟩
      (image.enter .setupCpuFeatures (popped.push (image.address rest.length))) :=
    Reaches.of_step rfl
  obtain ⟨t, features, rdi, -⟩ := setupCpuFeatures_returns image popped suffix
  have calls : Reaches image.program ⟨.running rest, t⟩
      ⟨.calling .kernelMain64 (rest.drop 1), t.push (image.address (rest.drop 1).length)⟩ :=
    Reaches.of_step rfl
  refine ⟨_, ⟨_, (first.trans enters).trans (features.trans calls)⟩, ?_⟩
  exact (State.push_reg t .rdi _ (by decide)).trans rdi

/-- **`kernel_main64` receives the boot configuration pointer** exactly when each byte that
the push and the clearing of the BSS leave at `__stack_top` is the byte of RDI. -/
theorem start_keeps_rdi_iff (image : Image) (s : State) :
    (∃ t, Calls image.program (image.enter .start s) .kernelMain64 t) ∧
    ∀ t, Calls image.program (image.enter .start s) .kernelMain64 t →
      (t.reg .rdi = s.reg .rdi ↔
        ∀ k < 8, parkedByte image.symbols s (image.symbols.stackTop + BitVec.ofNat 64 k) =
          byte k (s.reg .rdi)) := by
  obtain ⟨u, calls, rdi⟩ := start_calls image s
  refine ⟨⟨u, calls⟩, fun t calls' => ?_⟩
  rw [(calls'.unique calls).2, rdi]
  exact execs_startOps_rdi_iff image.symbols s

/-- The bootloader's state: the configuration is at 0x1000, the stack at 0x9000. -/
def bootState : State :=
  stateOf fun r => if r = .rdi then 0x1000#64 else if r = .rsp then 0x9000#64 else 0#64

/-- There the kernel receives another pointer: the byte above its stack is zero. -/
theorem start_keeps_rdi_low :
    ∃ t, Calls lowImage.program (lowImage.enter .start bootState) .kernelMain64 t ∧
      t.reg .rdi ≠ bootState.reg .rdi := by
  obtain ⟨⟨t, calls⟩, kept_iff⟩ := start_keeps_rdi_iff lowImage bootState
  refine ⟨t, calls, fun kept => ?_⟩
  exact absurd ((kept_iff t calls).mp kept 1 (by decide)) (by decide +kernel)

theorem start_loses_rdi :
    ¬ ∀ (image : Image) (s t : State),
      Calls image.program (image.enter .start s) .kernelMain64 t → t.reg .rdi = s.reg .rdi := by
  intro keeps
  obtain ⟨t, calls, rdi⟩ := start_calls lowImage bootState
  have bytes := (execs_startOps_rdi_iff lowImage.symbols bootState).mp
    (rdi.symm.trans (keeps lowImage bootState t calls))
  exact absurd (bytes 1 (by decide)) (by decide +kernel)

end ModernOS.Entry
