import ModernOS.Entry.Exception

/-!
The interrupt frame that `handle_exception` is given.

`InterruptFrame` of `include/interrupt.h` begins with what the processor pushes and
ends with the vector. The stub hands over its stack pointer, and on its stack the
order is the other one: the registers, the vector, and then what the processor
pushed. `quadwords_handlerFrame` says what each field of the structure reads, and
`frame_describes_iff` when that is right all the same.
-/

namespace ModernOS.Entry

open X86

/-- `InterruptFrame`. -/
structure InterruptFrame where
  rip : BitVec 64
  cs : BitVec 64
  rflags : BitVec 64
  rsp : BitVec 64
  ss : BitVec 64
  errorCode : BitVec 64
  rax : BitVec 64
  rbx : BitVec 64
  rcx : BitVec 64
  rdx : BitVec 64
  rsi : BitVec 64
  rdi : BitVec 64
  rbp : BitVec 64
  r8 : BitVec 64
  r9 : BitVec 64
  r10 : BitVec 64
  r11 : BitVec 64
  r12 : BitVec 64
  r13 : BitVec 64
  r14 : BitVec 64
  r15 : BitVec 64
  ds : BitVec 16
  es : BitVec 16
  fs : BitVec 16
  gs : BitVec 16
  vector : BitVec 8
  deriving DecidableEq, Repr

namespace InterruptFrame

/-- The frame at address `p`: the fields lie in the order of their declaration. -/
def read (m : ByteMemory) (p : BitVec 64) : InterruptFrame :=
  let quadword (k : ℕ) := m.read 8 (p + 8#64 * BitVec.ofNat 64 k)
  { rip := quadword 0
    cs := quadword 1
    rflags := quadword 2
    rsp := quadword 3
    ss := quadword 4
    errorCode := quadword 5
    rax := quadword 6
    rbx := quadword 7
    rcx := quadword 8
    rdx := quadword 9
    rsi := quadword 10
    rdi := quadword 11
    rbp := quadword 12
    r8 := quadword 13
    r9 := quadword 14
    r10 := quadword 15
    r11 := quadword 16
    r12 := quadword 17
    r13 := quadword 18
    r14 := quadword 19
    r15 := quadword 20
    ds := m.read 2 (p + 168#64)
    es := m.read 2 (p + 170#64)
    fs := m.read 2 (p + 172#64)
    gs := m.read 2 (p + 174#64)
    vector := m (p + 176#64) }

variable (f : InterruptFrame)

/-- The fields that the processor saves. -/
def hardware : List (BitVec 64) := [f.rip, f.cs, f.rflags, f.rsp, f.ss]

/-- The fields that the stub saves. -/
def general : List (BitVec 64) :=
  [f.rax, f.rbx, f.rcx, f.rdx, f.rsi, f.rdi, f.rbp, f.r8, f.r9, f.r10, f.r11, f.r12, f.r13,
    f.r14, f.r15]

/-- The quadwords of the structure. -/
def quadwords : List (BitVec 64) := f.hardware ++ f.errorCode :: f.general

theorem quadwords_read (m : ByteMemory) (p : BitVec 64) :
    (read m p).quadwords = (List.range 21).map fun k => m.read 8 (p + 8#64 * BitVec.ofNat 64 k) :=
  rfl

theorem vector_read (m : ByteMemory) (p : BitVec 64) :
    (read m p).vector = m (p + 8#64 * BitVec.ofNat 64 22) := rfl

/-- The fields have the values of the interrupted program, and `vector` is the vector. -/
structure Describes (f : InterruptFrame) (c : Context) (v : ℕ) : Prop where
  hardware : f.hardware = [c.rip, c.cs.setWidth 64, c.rflags, c.reg .rsp, c.ss.setWidth 64]
  general : f.general = savedByException.map c.reg
  vector : f.vector = BitVec.ofNat 8 v

end InterruptFrame

/-! ### What the fields read -/

section Fields

variable (image : Image) (c : Context) (v : ℕ) (error : BitVec 32) (stack : BitVec 64) (s : State)

/-- The parameter of the handler points to what the stub saved. -/
theorem read_handlerEntry {k : ℕ} (small : k < 2 ^ 32) :
    (handlerEntry image v s).mem.read 8
        ((handlerEntry image v s).reg .rdi + 8#64 * BitVec.ofNat 64 k) = (saved v s).quad k := by
  have place : (handlerEntry image v s).reg .rdi + 8#64 * BitVec.ofNat 64 k
      = (handlerEntry image v s).reg .rsp + 8#64 * BitVec.ofNat 64 (k + 1) := by
    rw [handlerEntry_rdi, handlerEntry_rsp]
    bv_omega
  rw [place]
  exact quad_handlerEntry image v s small

/-- What is read from the frame at the handler's parameter. -/
def handlerFrame : InterruptFrame :=
  .read (handlerEntry image v (delivered c v error stack s)).mem
    ((handlerEntry image v (delivered c v error stack s)).reg .rdi)

theorem quad_delivered {i : ℕ} (small : i < 5) :
    ((c.pushed (errorOf v error)).reverse.take 5)[i]?
      = some ((delivered c v error stack s).quad i) := by
  have long : i < (c.pushed (errorOf v error)).reverse.length := by
    cases errorOf v error <;> simp [Context.pushed] <;> omega
  have place := List.getElem?_eq_getElem long
  rw [List.getElem?_take_of_lt small, place]
  exact congrArg some (quad_interrupt c stack s place).symm

/-- The stack of the stub, from its top: the registers that were saved last, the vector, and
what the processor pushed. -/
theorem quadwords_handlerFrame :
    (handlerFrame image c v error stack s).quadwords
      = savedByException.reverse.map c.reg ++ BitVec.ofNat 64 v ::
        (c.pushed (errorOf v error)).reverse.take 5 := by
  let d := delivered c v error stack s
  have long : ((c.pushed (errorOf v error)).reverse.take 5).length = 5 := by
    cases errorOf v error <;> rfl
  have other : ∀ r ∈ savedByException, r ≠ .rsp := fun r mem same =>
    rsp_notMem_saved (same ▸ mem)
  have registers : (List.range 15).map (saved v d).quad = savedByException.reverse.map c.reg := by
    refine List.ext_getElem rfl fun i inside inside' => ?_
    rw [List.length_map] at inside'
    rw [List.getElem_map, List.getElem_range, List.getElem_map]
    have mem := List.mem_reverse.mp (List.getElem_mem inside')
    exact (quad_saved_reg v d (List.getElem?_eq_getElem inside')).trans
      (interrupt_reg c stack s _ (other _ mem))
  have below : (List.range 5).map (fun i => (saved v d).quad (16 + i))
      = (c.pushed (errorOf v error)).reverse.take 5 := by
    refine List.ext_getElem? fun i => ?_
    by_cases inside : i < 5
    · rw [quad_delivered c v error stack s inside, List.getElem?_map, List.getElem?_range inside]
      exact congrArg some (quad_saved_below v d (by omega))
    · rw [List.getElem?_eq_none (by simpa using inside), List.getElem?_eq_none (by omega)]
  have parts : ∀ word : ℕ → BitVec 64, (List.range 21).map word
      = (List.range 15).map word ++ word 15 :: (List.range 5).map fun i => word (16 + i) :=
    fun _ => rfl
  calc (handlerFrame image c v error stack s).quadwords = (List.range 21).map (saved v d).quad := by
        rw [handlerFrame, InterruptFrame.quadwords_read]
        refine List.map_congr_left fun k inside => read_handlerEntry image v d ?_
        exact (List.mem_range.mp inside).trans (by decide)
    _ = _ := by rw [parts, registers, below, quad_saved_vector v d]

/-- The byte where the field `vector` is read, behind what the processor pushed. -/
theorem vector_handlerFrame :
    (handlerFrame image c v error stack s).vector
      = s.mem (if hasErrorCode (BitVec.ofNat 8 v) then stack else stack + 8#64) := by
  let d := delivered c v error stack s
  let place := if hasErrorCode (BitVec.ofNat 8 v) then stack else stack + 8#64
  have above : d.quad 6 = s.mem.read 8 place := by
    unfold d place delivered errorOf
    cases hasErrorCode (BitVec.ofNat 8 v) with
    | false => exact quad_interrupt_add c stack s none (i := 1) (by decide)
    | true =>
        have first := quad_interrupt_add c stack s (some error) (i := 0) (by decide)
        rwa [BitVec.mul_zero, BitVec.add_zero] at first
  calc (handlerFrame image c v error stack s).vector
      = (handlerEntry image v d).mem
          ((handlerEntry image v d).reg .rdi + 8#64 * BitVec.ofNat 64 22) :=
        InterruptFrame.vector_read ..
    _ = ByteMemory.byte 0 ((saved v d).quad (16 + 6)) :=
        (ByteMemory.byte_zero_read (n := 8) _ (by decide) _).symm.trans
          (congrArg _ (read_handlerEntry image v d (by decide)))
    _ = s.mem place := by
        rw [quad_saved_below v d (by decide), above]
        exact ByteMemory.byte_zero_read s.mem (by decide) place

end Fields

/-! ### When the fields are right -/

/-- The values are, by chance, where the structure looks for them. -/
structure FrameInPlace (c : Context) (v : ℕ) (error : BitVec 32) (stack : BitVec 64)
    (m : ByteMemory) : Prop where
  hardware : [Reg.r15, .r14, .r13, .r12, .r11].map c.reg
    = [c.rip, c.cs.setWidth 64, c.rflags, c.reg .rsp, c.ss.setWidth 64]
  low : [Reg.r9, .r8, .rbp, .rdi].map c.reg = [Reg.rax, .rbx, .rcx, .rdx].map c.reg
  r10 : BitVec.ofNat 64 v = c.reg .r10
  high : (c.pushed (errorOf v error)).reverse.take 5
    = [Reg.r11, .r12, .r13, .r14, .r15].map c.reg
  vector : m (if hasErrorCode (BitVec.ofNat 8 v) then stack else stack + 8#64) = BitVec.ofNat 8 v

theorem handlerFrame_describes_iff (image : Image) (c : Context) (v : ℕ) (error : BitVec 32)
    (stack : BitVec 64) (s : State) :
    (handlerFrame image c v error stack s).Describes c v ↔
      FrameInPlace c v error stack s.mem := by
  let f := handlerFrame image c v error stack s
  have words := quadwords_handlerFrame image c v error stack s
  have hardware : f.hardware = [Reg.r15, .r14, .r13, .r12, .r11].map c.reg :=
    congrArg (List.take 5) words
  have general : f.general = [Reg.r9, .r8, .rbp, .rdi, .rsi, .rdx, .rcx, .rbx, .rax].map c.reg ++
      BitVec.ofNat 64 v :: (c.pushed (errorOf v error)).reverse.take 5 :=
    congrArg (List.drop 6) words
  have vector := vector_handlerFrame image c v error stack s
  constructor
  · rintro ⟨hardware', general', vector'⟩
    rw [general] at general'
    simp only [savedByException, List.map_cons, List.map_nil, List.cons_append, List.nil_append,
      List.cons.injEq] at general'
    obtain ⟨rax, rbx, rcx, rdx, -, -, -, -, -, r10, high⟩ := general'
    exact ⟨hardware ▸ hardware', by simp [rax, rbx, rcx, rdx], r10, high, vector ▸ vector'⟩
  · rintro ⟨hardware', low, r10, high, vector'⟩
    simp only [List.map_cons, List.map_nil, List.cons.injEq, and_true] at low
    obtain ⟨rax, rbx, rcx, rdx⟩ := low
    refine ⟨hardware.trans hardware', general.trans ?_, vector.trans vector'⟩
    rw [high, r10]
    simp [savedByException, rax, rbx, rcx, rdx]

/-- **The stack of a stub is the frame that the handler declares** exactly when the interrupted
registers repeat each other in the way the two orders ask for. -/
theorem frame_describes_iff (image : Image) {v : ℕ} (stub : v ∈ exceptionVectors) (c : Context)
    (error : BitVec 32) (stack : BitVec 64) (s : State) :
    ∃ u, Calls image.program (image.enter (.exceptionHandler v) (delivered c v error stack s))
        .handleException u ∧
      ((InterruptFrame.read u.mem (u.reg .rdi)).Describes c v ↔
        FrameInPlace c v error stack s.mem) :=
  ⟨_, ⟨_, exception_calls image stub _⟩, handlerFrame_describes_iff image c v error stack s⟩

/-- The page fault of a program with zero in R15, at an address that is not zero. -/
theorem frame_describes_pageFault :
    ∃ u, Calls lowImage.program
        (lowImage.enter (.exceptionHandler 14) (delivered faulting 14 6#32 0x80000#64 kernelState))
        .handleException u ∧
      ¬ (InterruptFrame.read u.mem (u.reg .rdi)).Describes faulting 14 := by
  obtain ⟨u, calls, describes_iff⟩ := frame_describes_iff lowImage (v := 14) (by decide) faulting
    6#32 0x80000#64 kernelState
  refine ⟨u, calls, fun describes => ?_⟩
  exact absurd (describes_iff.mp describes).hardware (by decide)

theorem frame_misdescribes :
    ¬ ∀ (image : Image) (v : ℕ) (c : Context) (error : BitVec 32) (stack : BitVec 64)
      (s u : State), v ∈ exceptionVectors →
      Calls image.program (image.enter (.exceptionHandler v) (delivered c v error stack s))
        .handleException u → (InterruptFrame.read u.mem (u.reg .rdi)).Describes c v := by
  intro describes
  have described := describes lowImage 14 faulting 6#32 0x80000#64 kernelState _ (by decide)
    ⟨_, exception_calls lowImage (by decide) _⟩
  have in_place := (handlerFrame_describes_iff lowImage faulting 14 6#32 0x80000#64 kernelState).mp
    described
  exact absurd in_place.hardware (by decide)

end ModernOS.Entry
