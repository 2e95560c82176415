/-
Module: Os88.Idt.Model
Purpose: The two interrupt descriptor tables of include/idt.c over a memory of
  bytes: the one that idt_install_interrupt grows at IDT_BASE, and the array
  `idt` that idt_set_gate fills.
Trusted boundary: the opcode bytes come from a header outside the repository,
  and the address of the array `idt` from the linker; both are parameters.
Main exports: IdtState, setIdtGate, setIsrWrapper, addNullGates,
  idtInstallInterrupt, idtSetGate, idtInstall, idtLoad, lookup
-/
import Os88.Library.ByteMemory

namespace Os88.Idt

open ByteMemory

def IDT_BASE : Nat := 0x6c00

/-- IDT_BASE + 0x800, after 256 gates of 8 bytes -/
def ISR_WRAPPER_BASE : Nat := 0x7400

/-- PUSHAD_OPCODE, CLD_OPCODE, CALL_FAR_OPCODE, POPAD_OPCODE and IRET_OPCODE. -/
structure Opcodes where
  pushad : BitVec 8
  cld : BitVec 8
  callFar : BitVec 8
  popad : BitVec 8
  iret : BitVec 8
deriving DecidableEq, Repr

/-- `struct idt_gate_descriptor`, 8 packed bytes; `idt_entry_t` has the same
layout. -/
structure IdtGateDescriptor where
  offsetLow : BitVec 16
  segmentSelector : BitVec 16
  zero : BitVec 8
  typeAttr : BitVec 8
  offsetHigh : BitVec 16
deriving DecidableEq, Repr

/-- `struct isr_wrapper_struct`, 11 packed bytes. -/
structure IsrWrapper where
  pushad : BitVec 8
  cld : BitVec 8
  callFar : BitVec 8
  isrAddr : BitVec 32
  segment : BitVec 16
  popad : BitVec 8
  iretd : BitVec 8
deriving DecidableEq, Repr

/-- The operand of LIDT: `struct idtr_struct` and `idt_ptr_t`. -/
structure IdtrStruct where
  length : BitVec 16
  address : BitVec 32
deriving DecidableEq, Repr

/-- The static variables of idt.c, the memory, and the IDT register once LIDT
has loaded it. -/
structure IdtState where
  mem : Memory
  idtGateCount : Nat
  genericWrapper : IsrWrapper
  idtrInfo : IdtrStruct
  idtp : IdtrStruct
  idtr : Option IdtrStruct

/-- `generic_wrapper` as it is initialized. -/
def Opcodes.wrapper (opcodes : Opcodes) : IsrWrapper where
  pushad := opcodes.pushad
  cld := opcodes.cld
  callFar := opcodes.callFar
  isrAddr := 0
  segment := 0x08
  popad := opcodes.popad
  iretd := opcodes.iret

/-- The state of a machine that boots with the given memory. -/
def IdtState.boot (opcodes : Opcodes) (mem : Memory) : IdtState where
  mem := mem
  idtGateCount := 0
  genericWrapper := opcodes.wrapper
  idtrInfo := ⟨0, BitVec.ofNat 32 IDT_BASE⟩
  idtp := ⟨0, 0⟩
  idtr := none

/-! ## Layout -/

/-- `table + n` for a table of gates. -/
def gateAddress (table n : Nat) : Nat := table + 8 * n

/-- `isr_wrapper_ptr + n` -/
def wrapperAddress (n : Nat) : Nat := ISR_WRAPPER_BASE + 11 * n

def loadGate (mem : Memory) (gate : Nat) : IdtGateDescriptor where
  offsetLow := load16 mem gate
  segmentSelector := load16 mem (gate + 2)
  zero := mem (gate + 4)
  typeAttr := mem (gate + 5)
  offsetHigh := load16 mem (gate + 6)

def loadWrapper (mem : Memory) (wrapper : Nat) : IsrWrapper where
  pushad := mem wrapper
  cld := mem (wrapper + 1)
  callFar := mem (wrapper + 2)
  isrAddr := load32 mem (wrapper + 3)
  segment := load16 mem (wrapper + 7)
  popad := mem (wrapper + 9)
  iretd := mem (wrapper + 10)

/-- A struct assignment through a wrapper pointer. -/
def storeWrapper (mem : Memory) (wrapper : Nat) (value : IsrWrapper) : Memory :=
  let mem := store8 mem wrapper value.pushad
  let mem := store8 mem (wrapper + 1) value.cld
  let mem := store8 mem (wrapper + 2) value.callFar
  let mem := store32 mem (wrapper + 3) value.isrAddr
  let mem := store16 mem (wrapper + 7) value.segment
  let mem := store8 mem (wrapper + 9) value.popad
  store8 mem (wrapper + 10) value.iretd

/-- The address a gate sends the CPU to. -/
def IdtGateDescriptor.offset (gate : IdtGateDescriptor) : BitVec 32 :=
  gate.offsetHigh ++ gate.offsetLow

/-! ## The table at IDT_BASE -/

/-- `__set_isr_wrapper` -/
def setIsrWrapper (wrapper : Nat) (isrAddr : BitVec 32) (st : IdtState) :
    IdtState :=
  let generic := { st.genericWrapper with isrAddr := isrAddr }
  { st with
    genericWrapper := generic
    mem := storeWrapper st.mem wrapper generic }

/-- `__set_idt_gate` -/
def setIdtGate (gate : Nat) (isrWrapperOffset : BitVec 32)
    (segment : BitVec 16) (typeAttr : BitVec 8) (st : IdtState) : IdtState :=
  let mem := store16 st.mem gate (((isrWrapperOffset <<< 16) >>> 16).setWidth 16)
  let mem := store16 mem (gate + 6) ((isrWrapperOffset >>> 16).setWidth 16)
  let mem := store16 mem (gate + 2) segment
  let mem := store8 mem (gate + 4) 0
  { st with mem := store8 mem (gate + 5) typeAttr }

/-- One pass of the loop of `add_null_gates`. -/
def addNullGate (interruptNumber : Nat) (st : IdtState) : IdtState :=
  let wrapper := wrapperAddress interruptNumber
  let st := setIdtGate (gateAddress IDT_BASE st.idtGateCount)
    (BitVec.ofNat 32 wrapper) 0 0 st
  let st := setIsrWrapper wrapper 0 st
  { st with idtGateCount := st.idtGateCount + 1 }

/-- The loop of `add_null_gates` for the passes it has left: it runs until the
gate count is the interrupt number. -/
def addNullGates (interruptNumber : Nat) : Nat → IdtState → IdtState
  | 0, st => st
  | passes + 1, st =>
      addNullGates interruptNumber passes (addNullGate interruptNumber st)

/-- The branch of `idt_install_interrupt` for a number beyond the table. -/
def extendTable (interruptNumber : Nat) (st : IdtState) : IdtState :=
  if st.idtGateCount ≤ interruptNumber then
    let st := addNullGates interruptNumber (interruptNumber - st.idtGateCount) st
    { st with idtGateCount := st.idtGateCount + 1 }
  else st

/-- Interrupt numbers are indices into the table. -/
def idtInstallInterrupt (interruptNumber : Nat) (isr : BitVec 32)
    (typeAttr : BitVec 8) (st : IdtState) : IdtState :=
  let st := extendTable interruptNumber st
  let wrapper := wrapperAddress interruptNumber
  let st := setIdtGate (gateAddress IDT_BASE interruptNumber)
    (BitVec.ofNat 32 wrapper) 0x08 typeAttr st
  let st := setIsrWrapper wrapper isr st
  { st with
    idtrInfo := { st.idtrInfo with
      length := BitVec.ofNat 16 (8 * st.idtGateCount - 1) } }

/-! ## The array `idt` -/

/-- `lidt [idtr_info]` -/
def idtLoad (st : IdtState) : IdtState :=
  { st with idtr := some st.idtrInfo }

/-- The array `idt` lies at address `idt`. -/
def idtSetGate (idt : Nat) (num : BitVec 8) (base : BitVec 32)
    (sel : BitVec 16) (flags : BitVec 8) (st : IdtState) : IdtState :=
  let entry := gateAddress idt num.toNat
  let mem := store16 st.mem entry ((base &&& 0xFFFF).setWidth 16)
  let mem := store16 mem (entry + 6) (((base >>> 16) &&& 0xFFFF).setWidth 16)
  let mem := store8 mem (entry + 4) 0
  let mem := store16 mem (entry + 2) sel
  { st with mem := store8 mem (entry + 5) flags }

def idtInstall (idt : Nat) (st : IdtState) : IdtState :=
  let st := { st with
    idtp := ⟨BitVec.ofNat 16 (8 * 256 - 1), BitVec.ofNat 32 idt⟩
    mem := fill st.mem idt 0 (8 * 256) }
  idtLoad st

/-! ## The CPU -/

/-- The gate the CPU reads for a vector: none if no table was loaded or the
gate does not lie within the limit. -/
def lookup (st : IdtState) (vector : BitVec 8) : Option IdtGateDescriptor :=
  match st.idtr with
  | some idtr =>
      if 8 * vector.toNat + 7 ≤ idtr.length.toNat then
        some (loadGate st.mem (gateAddress idtr.address.toNat vector.toNat))
      else none
  | none => none

end Os88.Idt
