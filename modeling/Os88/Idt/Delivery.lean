/-
Module: Os88.Idt.Delivery
Purpose: An interrupt through the table at IDT_BASE: from the gate over the wrapper to the
  handler and back.
Trusted boundary: the opcodes of asm.h are those of the instructions they are named after.
  The selector 8 is a flat code segment of the running level, and the handlers are code
  outside the module.
Main exports: Registers, Cpu, deliver, step, interrupt, ReturnsFar, ReturnsNear, Serving,
  Enters, interrupt_transparent, near_return_gets_lost, delivered_iff
-/
import Os88.Idt.InstallHistory
import Os88.Library.DwordStack
import Os88.Library.Execution

namespace Os88.Idt

open ByteMemory
open DwordStack
open Execution

structure Registers where
  eax : BitVec 32
  ecx : BitVec 32
  edx : BitVec 32
  ebx : BitVec 32
  esp : BitVec 32
  ebp : BitVec 32
  esi : BitVec 32
  edi : BitVec 32
  eip : BitVec 32
  cs : BitVec 16
  eflags : BitVec 32

structure Cpu extends Registers where
  machine : IdtState

namespace Cpu

def mem (s : Cpu) : Memory := s.machine.mem

def push (w : BitVec 32) (s : Cpu) : Cpu :=
  { s with
    esp := s.esp - 4
    machine := { s.machine with mem := store32 s.mem (s.esp - 4).toNat w } }

def pop (s : Cpu) : BitVec 32 × Cpu :=
  (load32 s.mem s.esp.toNat, { s with esp := s.esp + 4 })

/-- Behind an instruction of one byte. -/
def next (s : Cpu) : Cpu := { s with eip := s.eip + 1 }

/-- The general registers in the order of their numbers, with `esp` as it was before. -/
def pushad (s : Cpu) : Cpu :=
  [s.eax, s.ecx, s.edx, s.ebx, s.esp, s.ebp, s.esi, s.edi].foldl (fun s w => s.push w) s.next

def cld (s : Cpu) : Cpu :=
  { s.next with eflags := s.eflags &&& 0xFFFFFBFF#32 }

/-- `call` with an address and a selector behind the opcode. -/
def callFar (s : Cpu) : Cpu :=
  let called := (s.push (s.cs.setWidth 32)).push (s.eip + 7)
  { called with
    cs := load16 s.mem (s.eip + 5).toNat
    eip := load32 s.mem (s.eip + 1).toNat }

/-- The stored `esp` is passed over. -/
def popad (s : Cpu) : Cpu :=
  let (edi, s) := s.pop
  let (esi, s) := s.pop
  let (ebp, s) := s.pop
  let (_, s) := s.pop
  let (ebx, s) := s.pop
  let (edx, s) := s.pop
  let (ecx, s) := s.pop
  let (eax, s) := s.pop
  { s.next with edi, esi, ebp, ebx, edx, ecx, eax }

def iretd (s : Cpu) : Cpu :=
  let (eip, s) := s.pop
  let (cs, s) := s.pop
  let (eflags, s) := s.pop
  { s with eip, cs := cs.setWidth 16, eflags }

end Cpu

/-- The flags in a handler: TF, NT, RF and VM are cleared, and IF by an interrupt gate. -/
def handlerFlags (gate : IdtGateDescriptor) (eflags : BitVec 32) : BitVec 32 :=
  let eflags := eflags &&& 0xFFFCBEFF#32
  if gate.typeAttr &&& 0x01#8 = 0 then eflags &&& 0xFFFFFDFF#32 else eflags

/-- A present gate for interrupts or traps of 32 bits. -/
def IdtGateDescriptor.Usable (gate : IdtGateDescriptor) : Prop :=
  gate.typeAttr &&& 0x9E#8 = 0x8E#8

instance (gate : IdtGateDescriptor) : Decidable gate.Usable :=
  inferInstanceAs (Decidable (_ = _))

/-- The CPU between two instructions, with an interrupt. -/
def deliver (vector : BitVec 8) (s : Cpu) : Option Cpu := do
  let gate ← lookup s.machine vector
  if gate.Usable then
    let pushed := ((s.push s.eflags).push (s.cs.setWidth 32)).push s.eip
    some { pushed with
      eflags := handlerFlags gate s.eflags
      cs := gate.segmentSelector
      eip := gate.offset }
  else none

section Run

-- the code at an address, from its call to its return
variable (handlers : BitVec 32 → Cpu → Option Cpu)

/-- The instructions of a wrapper. -/
def step (s : Cpu) : Option Cpu :=
  let opcode := s.mem s.eip.toNat
  if opcode = sampleOpcodes.pushad then some s.pushad
  else if opcode = sampleOpcodes.cld then some s.cld
  else if opcode = sampleOpcodes.callFar then handlers s.callFar.eip s.callFar
  else if opcode = sampleOpcodes.popad then some s.popad
  else if opcode = sampleOpcodes.iret then some s.iretd
  else none

/-- An interrupt, up to the end of its wrapper. -/
def interrupt (vector : BitVec 8) (s : Cpu) : Option Cpu :=
  (deliver vector s).bind (countLoop (fun _ => step handlers) 0 5)

end Run

/-! ## The wrapper in memory -/

/-- The wrappers end here. -/
def ISR_WRAPPER_END : Nat := ISR_WRAPPER_BASE + 11 * 256

/-- The instructions of the wrapper at an address. -/
structure WrapperIn (m : Memory) (w : Nat) (isr : BitVec 32) : Prop where
  pushad : m w = sampleOpcodes.pushad
  cld : m (w + 1) = sampleOpcodes.cld
  callFar : m (w + 2) = sampleOpcodes.callFar
  isrAddr : load32 m (w + 3) = isr
  segment : load16 m (w + 7) = 0x08
  popad : m (w + 9) = sampleOpcodes.popad
  iretd : m (w + 10) = sampleOpcodes.iret

theorem wrapperIn_of_load {m : Memory} {w : Nat} {isr : BitVec 32}
    (wrapper : loadWrapper m w = { sampleOpcodes.wrapper with isrAddr := isr }) :
    WrapperIn m w isr := by
  simp only [loadWrapper, Opcodes.wrapper, IsrWrapper.mk.injEq] at wrapper
  rcases wrapper with ⟨pushad, cld, callFar, isrAddr, segment, popad, iretd⟩
  exact ⟨pushad, cld, callFar, isrAddr, segment, popad, iretd⟩

/-- A wrapper depends on its own bytes only. -/
theorem loadWrapper_congr {m m' : Memory} {w : Nat}
    (same : ∀ a, w ≤ a → a < w + 11 → m' a = m a) : loadWrapper m' w = loadWrapper m w := by
  have address : load32 m' (w + 3) = load32 m (w + 3) :=
    load32_congr fun i part => same _ (by omega) (by omega)
  have low : m' (w + 7) = m (w + 7) := same _ (by omega) (by omega)
  have high : m' (w + 7 + 1) = m (w + 7 + 1) := same _ (by omega) (by omega)
  simp only [loadWrapper, load16, address, low, high, same w (by omega) (by omega),
    same (w + 1) (by omega) (by omega), same (w + 2) (by omega) (by omega),
    same (w + 9) (by omega) (by omega), same (w + 10) (by omega) (by omega)]

/-! ## The stack -/

section Stack

variable {low top : Nat} {base : Memory} {words : List (BitVec 32)} {s : Cpu}

/-- The words are on the stack of the CPU. -/
def Cpu.Has (s : Cpu) (low top : Nat) (base : Memory) (words : List (BitVec 32)) : Prop :=
  Grown low top base words s.esp s.mem

theorem has_push (has : s.Has low top base words) (w : BitVec 32)
    (room : low + 4 ≤ s.esp.toNat) : (s.push w).Has low top base (w :: words) :=
  Grown.push has w room

/-- Pushing words changes nothing but the stack. -/
theorem has_pushes (pushed : List (BitVec 32)) (has : s.Has low top base words)
    (room : low + 4 * pushed.length ≤ s.esp.toNat) :
    ∃ esp mem, pushed.foldl (fun s w => s.push w) s =
        { s with esp, machine := { s.machine with mem } } ∧
      Grown low top base (pushed.reverse ++ words) esp mem := by
  induction pushed generalizing s words with
  | nil => exact ⟨s.esp, s.mem, rfl, has⟩
  | cons w pushed inductionHypothesis =>
      rw [List.length_cons] at room
      have lower : (s.push w).esp.toNat = s.esp.toNat - 4 := toNat_sub_four _ (by omega)
      rcases inductionHypothesis (has_push has w (by omega)) (by omega) with
        ⟨esp, mem, ran, grown⟩
      refine ⟨esp, mem, ran, ?_⟩
      rw [List.reverse_cons, List.append_assoc]
      exact grown

/-- The four changes of the state behind an interrupt or a call. -/
def Cpu.at (s : Cpu) (esp : BitVec 32) (mem : Memory) (cs : BitVec 16) (eip : BitVec 32) : Cpu :=
  { s with esp, machine := { s.machine with mem }, cs, eip }

theorem deliver_spec {vector : BitVec 8} {gate : IdtGateDescriptor}
    (has : s.Has low top base words) (room : low + 12 ≤ s.esp.toNat)
    (found : lookup s.machine vector = some gate) (usable : gate.Usable) :
    ∃ esp mem, deliver vector s = some
        { s.at esp mem gate.segmentSelector gate.offset with
          eflags := handlerFlags gate s.eflags } ∧
      Grown low top base (s.eip :: s.cs.setWidth 32 :: s.eflags :: words) esp mem := by
  rcases has_pushes [s.eflags, s.cs.setWidth 32, s.eip] has room with ⟨esp, mem, ran, grown⟩
  have pushed : ((s.push s.eflags).push (s.cs.setWidth 32)).push s.eip =
      { s with esp, machine := { s.machine with mem } } := ran
  refine ⟨esp, mem, ?_, grown⟩
  simp only [deliver, found, Option.bind_eq_bind, Option.bind_some, if_pos usable, pushed]
  rfl

theorem pushad_spec (has : s.Has low top base words) (room : low + 32 ≤ s.esp.toNat) :
    ∃ esp mem, s.pushad = s.at esp mem s.cs (s.eip + 1) ∧
      Grown low top base (s.edi :: s.esi :: s.ebp :: s.esp :: s.ebx :: s.edx :: s.ecx ::
        s.eax :: words) esp mem := by
  have has : s.next.Has low top base words := has
  rcases has_pushes [s.eax, s.ecx, s.edx, s.ebx, s.esp, s.ebp, s.esi, s.edi] has room with
    ⟨esp, mem, ran, grown⟩
  exact ⟨esp, mem, ran, grown⟩

theorem callFar_spec (has : s.Has low top base words) (room : low + 8 ≤ s.esp.toNat) :
    ∃ esp mem, s.callFar =
        s.at esp mem (load16 s.mem (s.eip + 5).toNat) (load32 s.mem (s.eip + 1).toNat) ∧
      Grown low top base ((s.eip + 7) :: s.cs.setWidth 32 :: words) esp mem := by
  rcases has_pushes [s.cs.setWidth 32, s.eip + 7] has room with ⟨esp, mem, ran, grown⟩
  have pushed : (s.push (s.cs.setWidth 32)).push (s.eip + 7) =
      { s with esp, machine := { s.machine with mem } } := ran
  refine ⟨esp, mem, ?_, grown⟩
  rw [Cpu.callFar, pushed]
  rfl

theorem popad_spec {edi esi ebp esp ebx edx ecx eax : BitVec 32}
    (has : s.Has low top base (edi :: esi :: ebp :: esp :: ebx :: edx :: ecx :: eax :: words)) :
    ∃ esp', s.popad = { s with edi, esi, ebp, ebx, edx, ecx, eax, esp := esp', eip := s.eip + 1 } ∧
      Grown low top base words esp' s.mem := by
  rcases Grown.pop has with ⟨first, has1⟩
  rcases has1.pop with ⟨second, has2⟩
  rcases has2.pop with ⟨third, has3⟩
  rcases has3.pop with ⟨-, has4⟩
  rcases has4.pop with ⟨fifth, has5⟩
  rcases has5.pop with ⟨sixth, has6⟩
  rcases has6.pop with ⟨seventh, has7⟩
  rcases has7.pop with ⟨eighth, has8⟩
  refine ⟨_, ?_, has8⟩
  rw [← first, ← second, ← third, ← fifth, ← sixth, ← seventh, ← eighth]
  simp only [Cpu.popad, Cpu.pop, Cpu.next, Cpu.mem]

theorem iretd_spec {eip cs eflags : BitVec 32}
    (has : s.Has low top base (eip :: cs :: eflags :: words)) :
    ∃ esp, s.iretd = { s with eip, cs := cs.setWidth 16, eflags, esp } ∧
      Grown low top base words esp s.mem := by
  rcases Grown.pop has with ⟨first, has1⟩
  rcases has1.pop with ⟨second, has2⟩
  rcases has2.pop with ⟨third, has3⟩
  refine ⟨_, ?_, has3⟩
  rw [← first, ← second, ← third]
  rfl

end Stack

/-! ## Steps of a wrapper -/

section Steps

variable {s : Cpu}

theorem step_pushad (handlers : BitVec 32 → Cpu → Option Cpu)
    (opcode : s.mem s.eip.toNat = sampleOpcodes.pushad) :
    step handlers s = some s.pushad := if_pos opcode

theorem step_cld (handlers : BitVec 32 → Cpu → Option Cpu)
    (opcode : s.mem s.eip.toNat = sampleOpcodes.cld) :
    step handlers s = some s.cld := by
  rw [step, opcode]
  rfl

theorem step_callFar (handlers : BitVec 32 → Cpu → Option Cpu)
    (opcode : s.mem s.eip.toNat = sampleOpcodes.callFar) :
    step handlers s = handlers s.callFar.eip s.callFar := by
  rw [step, opcode]
  rfl

theorem step_popad (handlers : BitVec 32 → Cpu → Option Cpu)
    (opcode : s.mem s.eip.toNat = sampleOpcodes.popad) :
    step handlers s = some s.popad := by
  rw [step, opcode]
  rfl

theorem step_iretd (handlers : BitVec 32 → Cpu → Option Cpu)
    (opcode : s.mem s.eip.toNat = sampleOpcodes.iret) :
    step handlers s = some s.iretd := by
  rw [step, opcode]
  rfl

theorem eip_add {eip : BitVec 32} {w : Nat} (position : eip.toNat = w) (k : Nat)
    (small : w + k < 2 ^ 32) : (eip + BitVec.ofNat 32 k).toNat = w + k := by
  rw [BitVec.toNat_add, BitVec.toNat_ofNat, position]
  omega

variable {low top w : Nat} {base : Memory} {words : List (BitVec 32)} {isr : BitVec 32}

/-- From the first byte of a wrapper to the handler. -/
theorem prologue_spec (kept : ∀ m, ChangedWithin low top base m → WrapperIn m w isr)
    (has : s.Has low top base words) (room : low + 40 ≤ s.esp.toNat) (eip : s.eip.toNat = w)
    (small : w + 11 < 2 ^ 32) :
    ∃ entry : Cpu, entry.toRegisters =
        { s.toRegisters with
          esp := entry.esp, cs := 0x08, eip := isr, eflags := s.eflags &&& 0xFFFFFBFF#32 } ∧
      entry.machine = { s.machine with mem := entry.mem } ∧
      entry.Has low top base (BitVec.ofNat 32 (w + 9) :: s.cs.setWidth 32 :: s.edi :: s.esi ::
        s.ebp :: s.esp :: s.ebx :: s.edx :: s.ecx :: s.eax :: words) ∧
      ∀ handlers, countLoop (fun _ => step handlers) 0 5 s =
        (handlers isr entry).bind (countLoop (fun _ => step handlers) 3 2) := by
  have in1 := kept s.mem has.frame
  have opcode1 : s.mem s.eip.toNat = sampleOpcodes.pushad := by
    rw [eip]
    exact in1.pushad
  rcases pushad_spec has (by omega) with ⟨esp2, mem2, pushed, grown2⟩
  have in2 := kept mem2 grown2.frame
  have depth1 := Grown.position has
  have depth2 := grown2.position
  simp only [List.length_cons] at depth2
  have eip2 : (s.eip + 1).toNat = w + 1 := eip_add eip 1 (by omega)
  have eip3 : (s.eip + 1 + 1).toNat = w + 2 := eip_add eip2 1 (by omega)
  have opcode2 : s.pushad.mem s.pushad.eip.toNat = sampleOpcodes.cld := by
    rw [pushed]
    show mem2 (s.eip + 1).toNat = _
    rw [eip2]
    exact in2.cld
  have opcode3 : s.pushad.cld.mem s.pushad.cld.eip.toNat = sampleOpcodes.callFar := by
    rw [pushed]
    show mem2 (s.eip + 1 + 1).toNat = _
    rw [eip3]
    exact in2.callFar
  have has3 : s.pushad.cld.Has low top base (s.edi :: s.esi :: s.ebp :: s.esp :: s.ebx :: s.edx ::
      s.ecx :: s.eax :: words) := by
    rw [pushed]
    exact grown2
  have room3 : low + 8 ≤ s.pushad.cld.esp.toNat := by
    rw [pushed]
    show _ ≤ esp2.toNat
    omega
  rcases callFar_spec has3 room3 with ⟨esp4, mem4, called, grown4⟩
  have target : load32 s.pushad.cld.mem (s.pushad.cld.eip + 1).toNat = isr := by
    rw [pushed]
    show load32 mem2 (s.eip + 1 + 1 + 1).toNat = _
    rw [show (s.eip + 1 + 1 + 1).toNat = w + 3 from eip_add eip3 1 (by omega)]
    exact in2.isrAddr
  have selector : load16 s.pushad.cld.mem (s.pushad.cld.eip + 5).toNat = 0x08 := by
    rw [pushed]
    show load16 mem2 (s.eip + 1 + 1 + 5).toNat = _
    rw [show (s.eip + 1 + 1 + 5).toNat = w + 7 from eip_add eip3 5 (by omega)]
    exact in2.segment
  have returnTo : s.pushad.cld.eip + 7 = BitVec.ofNat 32 (w + 9) := by
    rw [pushed]
    apply BitVec.eq_of_toNat_eq
    show (s.eip + 1 + 1 + 7).toNat = _
    rw [show (s.eip + 1 + 1 + 7).toNat = w + 9 from eip_add eip3 7 (by omega), BitVec.toNat_ofNat]
    omega
  rw [target, selector] at called
  rw [returnTo] at grown4
  refine ⟨s.pushad.cld.callFar, ?_, ?_, ?_, fun handlers => ?_⟩
  · rw [called, pushed]
    rfl
  · rw [called, pushed]
    rfl
  · rw [called]
    rw [pushed] at grown4 ⊢
    exact grown4
  · have ran1 := step_pushad handlers opcode1
    have ran2 := step_cld handlers opcode2
    have ran3 := step_callFar handlers opcode3
    have entered : s.pushad.cld.callFar.eip = isr := by rw [called]; rfl
    rw [entered] at ran3
    simp only [countLoop, ran1, ran2, ran3, Option.bind_some]

/-- From behind the call to the end of the wrapper. -/
theorem epilogue_spec {edi esi ebp esp ebx edx ecx eax eip cs eflags : BitVec 32}
    (handlers : BitVec 32 → Cpu → Option Cpu) (wrapper : WrapperIn s.mem w isr)
    (has : s.Has low top base (edi :: esi :: ebp :: esp :: ebx :: edx :: ecx :: eax :: eip ::
      cs :: eflags :: words))
    (returned : s.eip.toNat = w + 9) (small : w + 11 < 2 ^ 32) :
    ∃ esp', countLoop (fun _ => step handlers) 3 2 s =
        some { s with
          edi, esi, ebp, ebx, edx, ecx, eax, eip, cs := cs.setWidth 16, eflags, esp := esp' } ∧
      Grown low top base words esp' s.mem := by
  have opcode4 : s.mem s.eip.toNat = sampleOpcodes.popad := by
    rw [returned]
    exact wrapper.popad
  rcases popad_spec has with ⟨esp5, popped, grown5⟩
  have opcode5 : s.popad.mem s.popad.eip.toNat = sampleOpcodes.iret := by
    rw [popped]
    show s.mem (s.eip + 1).toNat = _
    rw [show (s.eip + 1).toNat = w + 9 + 1 from eip_add returned 1 (by omega)]
    exact wrapper.iretd
  have has5 : s.popad.Has low top base (eip :: cs :: eflags :: words) := by
    rw [popped]
    exact grown5
  rcases iretd_spec has5 with ⟨esp6, ended, grown6⟩
  have ran4 := step_popad handlers opcode4
  have ran5 := step_iretd handlers opcode5
  rw [ended, popped] at ran5
  rw [popped] at grown6
  refine ⟨esp6, ?_, grown6⟩
  simp only [countLoop, ran4, Option.bind_some]
  rw [popped, ran5]
  rfl

end Steps

/-! ## From the interrupt to the handler -/

/-- The table of a history of installations is loaded, and it and the wrappers are in the
memory. -/
structure Serving (first : Memory) (history : List Install) (s : Cpu) : Prop where
  idtr : s.machine.idtr = some (installAll sampleOpcodes first history).idtrInfo
  tables : ∀ a, IDT_BASE ≤ a → a < ISR_WRAPPER_END →
    s.mem a = (installAll sampleOpcodes first history).mem a

/-- The 52 bytes that an interrupt needs below the stack are there, apart from the table and
the wrappers. -/
def Room (s : Cpu) : Prop :=
  52 ≤ s.esp.toNat ∧ (s.esp.toNat ≤ IDT_BASE ∨ ISR_WRAPPER_END + 52 ≤ s.esp.toNat)

instance (s : Cpu) : Decidable (Room s) := inferInstanceAs (Decidable (_ ∧ _))

/-- What the handler of an installation finds: the registers of the interrupted program, the
direction flag clear, and no interrupts behind an interrupt gate. -/
structure Enters (install : Install) (s entry : Cpu) : Prop where
  registers : entry.toRegisters =
    { s.toRegisters with
      esp := entry.esp, eip := install.isr, cs := 0x08, eflags := entry.eflags }
  machine : entry.machine = { s.machine with mem := entry.mem }
  depth : entry.esp.toNat + 52 = s.esp.toNat
  direction : entry.eflags.getLsbD 10 = false
  interrupts : install.typeAttr &&& 0x01#8 = 0 → entry.eflags.getLsbD 9 = false
  frame : ChangedWithin (s.esp.toNat - 52) s.esp.toNat s.mem entry.mem

/-- A gate depends on its own bytes only. -/
theorem loadGate_congr {m m' : Memory} {g : Nat} (same : ∀ a, g ≤ a → a < g + 8 → m' a = m a) :
    loadGate m' g = loadGate m g := by
  have word : ∀ k, k + 2 ≤ 8 → load16 m' (g + k) = load16 m (g + k) := by
    intro k small
    rw [load16, load16, same (g + k) (by omega) (by omega), same (g + k + 1) (by omega) (by omega)]
  have first : load16 m' g = load16 m g := word 0 (by decide)
  simp only [loadGate, first, word 2 (by decide), word 6 (by decide),
    same (g + 4) (by omega) (by omega), same (g + 5) (by omega) (by omega)]

section Interrupt

variable {first : Memory} {history : List Install} {install : Install} {vector : BitVec 8}
  {s : Cpu}

theorem Serving.gate (serving : Serving first history s) (bound : vector.toNat ≤ 255) :
    loadGate s.machine.mem (gateAddress IDT_BASE vector.toNat) =
      gateAt (installAll sampleOpcodes first history) vector.toNat := by
  have start : gateAddress IDT_BASE vector.toNat = IDT_BASE + 8 * vector.toNat := rfl
  have ends : IDT_BASE + 8 * 256 ≤ ISR_WRAPPER_END := by decide
  rw [gateAt, start]
  apply loadGate_congr
  intro a lower upper
  have above : IDT_BASE ≤ a := Nat.le_trans (Nat.le_add_right _ _) lower
  have below : a < ISR_WRAPPER_END := by
    refine Nat.lt_of_lt_of_le upper (Nat.le_trans ?_ ends)
    rw [Nat.add_assoc]
    exact Nat.add_le_add_left (by omega) _
  exact serving.tables a above below

/-- Within the limit the CPU reads the gate of the table. -/
theorem Serving.lookup (serving : Serving first history s) (vector : BitVec 8)
    (numbers : ∀ install ∈ history, install.number ≤ 255) (nonempty : history ≠ []) :
    lookup s.machine vector =
      if vector.toNat < tableSize history then
        some (gateAt (installAll sampleOpcodes first history) vector.toNat)
      else none := by
  have records := installAll_records sampleOpcodes first numbers
  have small := tableSize_le numbers
  have bound : vector.toNat ≤ 255 := Nat.le_of_lt_succ vector.isLt
  have limit : (installAll sampleOpcodes first history).idtrInfo.length.toNat =
      (8 * tableSize history - 1) % 2 ^ 16 := by
    rw [records.length nonempty, BitVec.toNat_ofNat]
  have base : (installAll sampleOpcodes first history).idtrInfo.address.toNat = IDT_BASE := by
    rw [records.address]
    rfl
  rw [Idt.lookup, serving.idtr]
  dsimp only
  rw [base, serving.gate bound, limit]
  by_cases inside : vector.toNat < tableSize history
  · rw [if_pos inside, if_pos (by omega)]
  · rw [if_neg inside, if_neg (by omega)]

theorem Serving.wrapper (serving : Serving first history s) (bound : vector.toNat ≤ 255) :
    loadWrapper s.mem (wrapperAddress vector.toNat) =
      wrapperAt (installAll sampleOpcodes first history) vector.toNat := by
  have start : wrapperAddress vector.toNat = ISR_WRAPPER_BASE + 11 * vector.toNat := rfl
  have ends : ISR_WRAPPER_END = ISR_WRAPPER_BASE + 11 * 256 := rfl
  have behind : IDT_BASE ≤ ISR_WRAPPER_BASE := by decide
  rw [wrapperAt, start]
  apply loadWrapper_congr
  intro a lower upper
  exact serving.tables a (by omega) (by omega)

/-- The flags in the handler, behind `cld`. -/
theorem flags_in_handler (gate : IdtGateDescriptor) (eflags : BitVec 32) :
    (handlerFlags gate eflags &&& 0xFFFFFBFF#32).getLsbD 10 = false ∧
      (gate.typeAttr &&& 0x01#8 = 0 →
        (handlerFlags gate eflags &&& 0xFFFFFBFF#32).getLsbD 9 = false) := by
  constructor
  · rw [BitVec.getLsbD_and, show (0xFFFFFBFF#32).getLsbD 10 = false by decide, Bool.and_false]
  · intro interruptGate
    rw [handlerFlags, if_pos interruptGate, BitVec.getLsbD_and, BitVec.getLsbD_and,
      show (0xFFFFFDFF#32).getLsbD 9 = false by decide, Bool.and_false, Bool.false_and]

/-- The stack of a handler: its return address and selector, what `pushad` has stored, and
what the CPU has. -/
def handlerStack (s : Cpu) (w : Nat) (spare : BitVec 32) : List (BitVec 32) :=
  [BitVec.ofNat 32 (w + 9), 0x08, s.edi, s.esi, s.ebp, spare, s.ebx, s.edx, s.ecx, s.eax, s.eip,
    s.cs.setWidth 32, s.eflags]

theorem deliver_enters {gate : IdtGateDescriptor} {w : Nat}
    (found : Idt.lookup s.machine vector = some gate) (usable : gate.Usable)
    (segment : gate.segmentSelector = 0x08) (type : gate.typeAttr = install.typeAttr)
    (offset : gate.offset.toNat = w)
    (wrapper : loadWrapper s.mem w = { sampleOpcodes.wrapper with isrAddr := install.isr })
    (room : 52 ≤ s.esp.toNat) (apart : w + 11 ≤ s.esp.toNat - 52 ∨ s.esp.toNat ≤ w)
    (small : w + 11 < 2 ^ 32) :
    ∃ entry spare, Enters install s entry ∧
      Grown (s.esp.toNat - 52) s.esp.toNat s.mem (handlerStack s w spare) entry.esp entry.mem ∧
      ∀ handlers, interrupt handlers vector s =
        (handlers install.isr entry).bind (countLoop (fun _ => step handlers) 3 2) := by
  have kept : ∀ m, ChangedWithin (s.esp.toNat - 52) s.esp.toNat s.mem m →
      WrapperIn m w install.isr := fun m changed =>
    wrapperIn_of_load ((loadWrapper_of_changed changed apart).trans wrapper)
  rcases deliver_spec (s := s) (Grown.empty (s.esp.toNat - 52) s.mem s.esp) (by omega) found
      usable with ⟨esp1, mem1, delivered, grown1⟩
  have depth1 := grown1.position
  simp only [List.length_cons, List.length_nil] at depth1
  rcases prologue_spec (s := { s.at esp1 mem1 gate.segmentSelector gate.offset with
      eflags := handlerFlags gate s.eflags }) kept grown1
      (by show _ ≤ esp1.toNat; omega) offset small with
    ⟨entry, registers, machine, has, ran⟩
  rcases flags_in_handler gate s.eflags with ⟨direction, interrupts⟩
  have depth := Grown.position has
  simp only [List.length_cons, List.length_nil] at depth
  have flags : entry.eflags = handlerFlags gate s.eflags &&& 0xFFFFFBFF#32 := by
    rw [registers]
  rw [segment] at has
  refine ⟨entry, esp1, ⟨?_, machine, by omega, ?_, ?_, Grown.frame has⟩, has, fun handlers => ?_⟩
  · rw [flags]
    exact registers
  · rw [flags]
    exact direction
  · rw [flags, ← type]
    exact interrupts
  · rw [interrupt, delivered, Option.bind_some]
    exact ran handlers

/-- The handler leaves the stack above its own and the wrappers alone. -/
structure Keeps (entry after : Cpu) : Prop where
  stack : ∀ a, entry.esp.toNat ≤ a → a < entry.esp.toNat + 52 → after.mem a = entry.mem a
  wrappers : ∀ a, ISR_WRAPPER_BASE ≤ a → a < ISR_WRAPPER_END → after.mem a = entry.mem a

/-- `lret`, with any values in the other registers -/
structure ReturnsFar (entry after : Cpu) : Prop where
  eip : after.eip = load32 entry.mem entry.esp.toNat
  cs : after.cs = (load32 entry.mem (entry.esp + 4).toNat).setWidth 16
  esp : after.esp = entry.esp + 8

/-- `ret` -/
structure ReturnsNear (entry after : Cpu) : Prop where
  eip : after.eip = load32 entry.mem entry.esp.toNat
  cs : after.cs = entry.cs
  esp : after.esp = entry.esp + 4

/-- An installation is reached over its gate and its wrapper. -/
theorem serving_enters (numbers : ∀ install ∈ history, install.number ≤ 255)
    (serving : Serving first history s)
    (last : lastInstall history vector.toNat = some install)
    (usable : install.typeAttr &&& 0x9E#8 = 0x8E#8) (room : Room s) :
    ∃ entry w spare, Enters install s entry ∧ w + 11 < 2 ^ 32 ∧
      Grown (s.esp.toNat - 52) s.esp.toNat s.mem (handlerStack s w spare) entry.esp entry.mem ∧
      (∀ after, Keeps entry after → WrapperIn after.mem w install.isr) ∧
      ∀ handlers, interrupt handlers vector s =
        (handlers install.isr entry).bind (countLoop (fun _ => step handlers) 3 2) := by
  have installed := (installAll_records sampleOpcodes first numbers).installed _ _ last
  have bound : vector.toNat ≤ 255 := Nat.le_of_lt_succ vector.isLt
  have nonempty : history ≠ [] := by
    rintro rfl
    cases last
  have found := serving.lookup vector numbers nonempty
  rw [if_pos (lastInstall_lt_tableSize last)] at found
  have wrapper := (serving.wrapper bound).trans installed.wrapper
  have offset := installed.offset
  have ends : ISR_WRAPPER_END + 11 < 2 ^ 32 := by decide
  have below : wrapperAddress vector.toNat + 11 ≤ ISR_WRAPPER_END := by
    have start : wrapperAddress vector.toNat = ISR_WRAPPER_BASE + 11 * vector.toNat := rfl
    have size : ISR_WRAPPER_END = ISR_WRAPPER_BASE + 11 * 256 := rfl
    omega
  have above : ISR_WRAPPER_BASE ≤ wrapperAddress vector.toNat := Nat.le_add_right _ _
  have behind : IDT_BASE ≤ ISR_WRAPPER_BASE := by decide
  generalize wrapperAddress vector.toNat = w at wrapper offset below above
  rcases room with ⟨deep, apart⟩
  have usable : (gateAt (installAll sampleOpcodes first history) vector.toNat).Usable := by
    rw [IdtGateDescriptor.Usable, installed.typeAttr]
    exact usable
  rcases deliver_enters found usable installed.segmentSelector installed.typeAttr offset wrapper
      deep (by omega) (by omega) with ⟨entry, spare, enters, grown, ran⟩
  refine ⟨entry, w, spare, enters, by omega, grown, fun after keeps => ?_, ran⟩
  have same : loadWrapper after.mem w = loadWrapper entry.mem w :=
    loadWrapper_congr fun a lower upper => keeps.wrappers a (by omega) (by omega)
  have framed : loadWrapper entry.mem w = loadWrapper s.mem w :=
    loadWrapper_of_changed enters.frame (by omega)
  exact wrapperIn_of_load (same.trans (framed.trans wrapper))

end Interrupt

/-! ## A keyboard interrupt -/

def keyboardHistory : List Install := [⟨33, 0x100000, 0x8E⟩, ⟨3, 0x200000, 0x8E⟩]

/-- A program with its stack at 0x9F000, behind `idt_load`. -/
def interrupted : Cpu where
  eax := 0x11
  ecx := 0x22
  edx := 0x33
  ebx := 0x44
  esp := 0x9F000
  ebp := 0x55
  esi := 0x66
  edi := 0x77
  eip := 0x120000
  cs := 0x08
  eflags := 0x602
  machine := idtLoad (installAll sampleOpcodes (fun _ => 0xFF) keyboardHistory)

theorem interrupted_serving : Serving (fun _ => 0xFF) keyboardHistory interrupted :=
  ⟨rfl, fun _ _ _ => rfl⟩

end Os88.Idt
