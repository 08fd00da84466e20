import ModernOS.Interrupt.Gates

/-!
The 64-bit gates of `include/interrupt.h`, and the 32-bit ones against them.

`set_gate` cuts the address of the handler into three fields and packs the type, the privilege
level and the present flag into a byte; all of them are read back (`setGate_faithful`).
`register_handler` of `kernel/interrupt.cpp` has an encoder of its own, for the entries of `Gates`.
-/

namespace ModernOS.Interrupt.LongMode

/-- `GateType`, with the values of its enumerators. -/
inductive GateType where
  | taskGate
  | interruptGate
  | trapGate
  deriving DecidableEq, Repr

def GateType.value : GateType → BitVec 8
  | taskGate => 0x5#8
  | interruptGate => 0xE#8
  | trapGate => 0xF#8

theorem GateType.value_injective : Function.Injective GateType.value := by
  intro type type' same
  cases type <;> cases type' <;> first | rfl | cases same

/-- `PrivilegeLevel`. -/
inductive PrivilegeLevel where
  | kernel
  | reserved1
  | reserved2
  | user
  deriving DecidableEq, Repr

def PrivilegeLevel.value : PrivilegeLevel → BitVec 8
  | kernel => 0#8
  | reserved1 => 1#8
  | reserved2 => 2#8
  | user => 3#8

theorem PrivilegeLevel.value_injective : Function.Injective PrivilegeLevel.value := by
  intro dpl dpl' same
  cases dpl <;> cases dpl' <;> first | rfl | cases same

/-- `IDTEntry` of the header. -/
@[ext] structure IDTEntry where
  offsetLow : BitVec 16
  selector : BitVec 16
  ist : BitVec 8
  typeAttr : BitVec 8
  offsetMid : BitVec 16
  offsetHigh : BitVec 32
  reserved : BitVec 32
  deriving DecidableEq, Repr

/-- The byte that `set_gate` packs: the operands are promoted to `int`, and the result is cast. -/
def typeAttr (type : GateType) (dpl : PrivilegeLevel) (present : Bool) : BitVec 8 :=
  (type.value.setWidth 32 ||| dpl.value.setWidth 32 <<< 5 |||
    if present then 0x80#32 else 0x00#32).setWidth 8

namespace IDTEntry

/-- `set_gate`. It writes every member. -/
def setGate (_entry : IDTEntry) (handlerAddr : BitVec 64) (codeSelector : BitVec 16)
    (type : GateType) (dpl : PrivilegeLevel) (present : Bool) : IDTEntry where
  offsetLow := (handlerAddr &&& 0xFFFF#64).setWidth 16
  offsetMid := (handlerAddr >>> 16 &&& 0xFFFF#64).setWidth 16
  offsetHigh := (handlerAddr >>> 32 &&& 0xFFFFFFFF#64).setWidth 32
  selector := codeSelector
  ist := 0#8
  typeAttr := LongMode.typeAttr type dpl present
  reserved := 0#32

/-- `get_handler_address`. -/
def getHandlerAddress (entry : IDTEntry) : BitVec 64 :=
  entry.offsetLow.setWidth 64 ||| entry.offsetMid.setWidth 64 <<< 16 |||
    entry.offsetHigh.setWidth 64 <<< 32

end IDTEntry

section Gate

variable (entry : IDTEntry) (handlerAddr : BitVec 64) (codeSelector : BitVec 16)
  (type : GateType) (dpl : PrivilegeLevel) (present : Bool)

/-- The slices of an address. -/
theorem setGate_slices :
    let gate := entry.setGate handlerAddr codeSelector type dpl present
    gate.offsetLow = BitField.get 0 16 handlerAddr ∧
      gate.offsetMid = BitField.get 16 16 handlerAddr ∧
      gate.offsetHigh = BitField.get 32 32 handlerAddr :=
  ⟨BitField.setWidth_mask handlerAddr, BitField.setWidth_shift_mask handlerAddr 16,
    BitField.setWidth_shift_mask handlerAddr 32⟩

/-- The slices are put together again. -/
theorem getHandlerAddress_setGate :
    (entry.setGate handlerAddr codeSelector type dpl present).getHandlerAddress = handlerAddr := by
  obtain ⟨low, mid, high⟩ := setGate_slices entry handlerAddr codeSelector type dpl present
  rw [IDTEntry.getHandlerAddress, low, mid, high, BitField.join, BitField.join, BitField.get_all,
    BitVec.setWidth_eq]

/-- The fields of the packed byte. -/
theorem typeAttr_fields :
    (BitField.get 0 4 (typeAttr type dpl present)).setWidth 8 = type.value ∧
      (BitField.get 5 2 (typeAttr type dpl present)).setWidth 8 = dpl.value ∧
      (typeAttr type dpl present).getLsbD 7 = present := by
  cases type <;> cases dpl <;> cases present <;> decide

/-- Different types, privilege levels and present flags are packed into different bytes. -/
theorem typeAttr_inj {type type' : GateType} {dpl dpl' : PrivilegeLevel} {present present' : Bool}
    (same : typeAttr type' dpl' present' = typeAttr type dpl present) :
    type' = type ∧ dpl' = dpl ∧ present' = present := by
  obtain ⟨types, levels, flags⟩ := typeAttr_fields type dpl present
  obtain ⟨types', levels', flags'⟩ := typeAttr_fields type' dpl' present'
  rw [same] at types' levels' flags'
  exact ⟨GateType.value_injective (types'.symm.trans types),
    PrivilegeLevel.value_injective (levels'.symm.trans levels), flags'.symm.trans flags⟩

/-- Different arguments make different gates. -/
theorem setGate_inj {entry entry' : IDTEntry} {handlerAddr handlerAddr' : BitVec 64}
    {codeSelector codeSelector' : BitVec 16} {type type' : GateType} {dpl dpl' : PrivilegeLevel}
    {present present' : Bool}
    (same : entry'.setGate handlerAddr' codeSelector' type' dpl' present' =
      entry.setGate handlerAddr codeSelector type dpl present) :
    handlerAddr' = handlerAddr ∧ codeSelector' = codeSelector ∧ type' = type ∧ dpl' = dpl ∧
      present' = present := by
  have addresses := congrArg IDTEntry.getHandlerAddress same
  rw [getHandlerAddress_setGate, getHandlerAddress_setGate] at addresses
  exact ⟨addresses, congrArg IDTEntry.selector same,
    typeAttr_inj (congrArg IDTEntry.typeAttr same)⟩

end Gate

/-- The gate of `register_handler` against the one that `set_gate` makes of the same handler. -/
theorem gate_setGate (entry : IDTEntry) (handler : Word) :
    let made := entry.setGate (handler.setWidth 64) 0x08#16 .interruptGate .kernel true
    ((gate handler).baseLow = made.offsetLow ∧ (gate handler).baseHigh = made.offsetMid ∧
      made.offsetHigh = 0#32 ∧ (gate handler).base.setWidth 64 = made.getHandlerAddress) ∧
    (gate handler).selector = made.selector ∧ (gate handler).flags = made.typeAttr := by
  obtain ⟨low, mid, high⟩ := setGate_slices entry (handler.setWidth 64) 0x08#16 .interruptGate
    .kernel true
  obtain ⟨baseLow, baseHigh⟩ := gate_slices handler
  rw [BitField.get_setWidth handler (by decide)] at low mid high
  refine ⟨⟨baseLow.trans low.symm, baseHigh.trans mid.symm, ?_, ?_⟩, rfl, by rfl⟩
  · exact high.trans (BitField.get_of_ge handler (by decide))
  · rw [gate_base, getHandlerAddress_setGate]

/-- A gate gives back what it has been made of, so that different arguments make different gates;
and `register_handler` makes the gate that `set_gate` makes of the same handler. -/
theorem setGate_faithful (entry : IDTEntry) (handlerAddr : BitVec 64) (codeSelector : BitVec 16)
    (type : GateType) (dpl : PrivilegeLevel) (present : Bool) :
    let made := entry.setGate handlerAddr codeSelector type dpl present
    (made.getHandlerAddress = handlerAddr ∧ made.selector = codeSelector ∧
      (BitField.get 0 4 made.typeAttr).setWidth 8 = type.value ∧
      (BitField.get 5 2 made.typeAttr).setWidth 8 = dpl.value ∧
      made.typeAttr.getLsbD 7 = present) ∧
    (∀ entry' handlerAddr' codeSelector' type' dpl' present',
      IDTEntry.setGate entry' handlerAddr' codeSelector' type' dpl' present' = made →
        handlerAddr' = handlerAddr ∧ codeSelector' = codeSelector ∧ type' = type ∧ dpl' = dpl ∧
          present' = present) ∧
    ∀ (interruptNumber : BitVec 8) (handler : Word) (s : State),
      let legacy := (registerHandler interruptNumber handler s).idt interruptNumber
      let gate := entry.setGate (handler.setWidth 64) 0x08#16 .interruptGate .kernel true
      (legacy.baseLow = gate.offsetLow ∧ legacy.baseHigh = gate.offsetMid ∧
        gate.offsetHigh = 0#32 ∧ legacy.base.setWidth 64 = gate.getHandlerAddress) ∧
      legacy.selector = gate.selector ∧ legacy.flags = gate.typeAttr := by
  intro made
  refine ⟨⟨getHandlerAddress_setGate .., rfl, typeAttr_fields type dpl present⟩, ?_, ?_⟩
  · intro entry' handlerAddr' codeSelector' type' dpl' present' same
    exact setGate_inj same
  · intro interruptNumber handler s
    have written : (registerHandler interruptNumber handler s).idt interruptNumber =
        Interrupt.gate handler := register_self s interruptNumber handler
    rw [written]
    exact gate_setGate entry handler

end ModernOS.Interrupt.LongMode
