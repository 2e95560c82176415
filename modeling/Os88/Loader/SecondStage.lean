/-
Module: Os88.Loader.SecondStage
Purpose: What holds when the boot sector jumps into the second stage, and when it gives
  up: the address line, the memory and the registers.
Trusted boundary: what a disk read of the BIOS does to the line is a hypothesis.
Main exports: Holds, callTestA20_spec, callWaitCommand_holds, Tells, enableA20Gate_tells,
  Entered, Settled, LoadSecondStage_settled, bootSector_outcome
-/
import Os88.Loader.BootSector

namespace Os88.Loader.BootSector

open A20
open ByteMemory
open SegmentedMemory
open Waiting

/-! ## The stack in the first segment -/

/-- In the first segment the line does not matter. -/
theorem physical_zero (a20 : Bool) : physical a20 0#16 = BitVec.toNat := by
  funext off
  have bound := off.isLt
  cases a20 with
  | true => simp [physical]
  | false =>
      simp only [physical, BitVec.toNat_zero, Bool.false_eq_true, if_false]
      omega

/-- One of the 18 bytes of stack that the boot sector uses. -/
def OnStack (a : Nat) : Prop := Below BitVec.toNat 0x7C00#16 18 a

theorem onStack_iff {a : Nat} : OnStack a ↔ 0x7BEE ≤ a ∧ a < 0x7C00 := by
  constructor
  · rintro ⟨k, above, within, position⟩
    rw [position]
    simp only [BitVec.toNat_sub, BitVec.toNat_ofNat]
    omega
  · rintro ⟨lower, upper⟩
    refine ⟨0x7C00 - a, by omega, by omega, ?_⟩
    simp only [BitVec.toNat_sub, BitVec.toNat_ofNat]
    omega

section Frame

variable {κ : Type}

/-- Between two instructions of the boot sector: the words are on the stack, the other
registers are those of the start, except `ax`, and so is the memory. -/
structure Holds (first : Registers) (base : Memory) (words : List (BitVec 16))
    (s : Board κ) : Prop where
  stack : StackOn BitVec.toNat base 0x7C00#16 18 words s.memory
  sp : s.sp = 0x7C00#16 - BitVec.ofNat 16 (2 * words.length)
  registers : s.toRegisters = { first with ax := s.ax, sp := s.sp }

variable {hw : Chipset κ} {layout : Layout} {first : Registers} {base : Memory}
  {words : List (BitVec 16)} {s : Board κ}

theorem Holds.ss (held : Holds first base words s) (segment : first.ss = 0#16) :
    s.ss = 0#16 := by
  rw [held.registers]
  exact segment

theorem Holds.over (held : Holds first base words s) (segment : first.ss = 0#16) (a20 : Bool) :
    Over a20 base 0x7C00#16 words s.toMachine := by
  refine ⟨held.sp, ?_⟩
  rw [held.ss segment, physical_zero]
  exact held.stack

/-- Any machine over the same stack, with the registers as they should be. -/
theorem Holds.of_over (a20 : Bool) (onStack : Over a20 base 0x7C00#16 words s.toMachine)
    (segment : first.ss = 0#16)
    (registers : s.toRegisters = { first with ax := s.ax, sp := s.sp }) :
    Holds first base words s := by
  have stack := onStack.stack
  have ss : s.ss = 0#16 := by
    rw [registers]
    exact segment
  rw [ss, physical_zero] at stack
  exact ⟨stack, onStack.sp, registers⟩

/-- Ports and `ax` do not matter. -/
theorem Holds.of_machine {s' : Board κ} (held : Holds first base words s)
    (memory : s'.memory = s.memory)
    (registers : s'.toRegisters = { s.toRegisters with ax := s'.ax }) :
    Holds first base words s' := by
  have sp : s'.sp = s.sp := by rw [registers]
  refine ⟨?_, sp.trans held.sp, ?_⟩
  · rw [memory]
    exact held.stack
  · rw [registers, held.registers]

/-! ## Calls -/

/-- Inside a call of the boot sector: the return address is on the stack. -/
structure Inside (first : Registers) (base : Memory) (words : List (BitVec 16))
    (target returnTo : BitVec 16) (s : Board κ) : Prop where
  stack : StackOn BitVec.toNat base 0x7C00#16 18 (returnTo :: words) s.memory
  sp : s.sp = 0x7C00#16 - BitVec.ofNat 16 (2 * (words.length + 1))
  registers : s.toRegisters = { first with ax := s.ax, sp := s.sp, ip := target }

theorem Holds.callTo (hw : Chipset κ) (held : Holds first base words s) (segment : first.ss = 0#16)
    (room : words.length < 9) (target : BitVec 16) :
    Inside first base words target first.ip (callTo hw target s) := by
  have ip : s.ip = first.ip := by rw [held.registers]
  have pushed := (held.over segment (line hw s)).push room s.ip
  have stack := pushed.stack
  have ss : (push (line hw s) s.ip s.toMachine).ss = 0#16 := held.ss segment
  rw [ss, physical_zero, ip] at stack
  rw [ip] at pushed
  refine ⟨?_, ?_, ?_⟩
  · show StackOn _ _ _ _ _ (push (line hw s) s.ip s.toMachine).memory
    rw [ip]
    exact stack
  · exact pushed.sp
  · have registers : (BootSector.callTo hw target s).toRegisters =
        { s.toRegisters with sp := s.sp - 2#16, ip := target } := rfl
    rw [registers, held.registers]

theorem Inside.retFrom {target : BitVec 16}
    (inside : Inside first base words target first.ip s) (segment : first.ss = 0#16) :
    Holds first base words (retFrom hw s) := by
  have ss : s.ss = 0#16 := by
    rw [inside.registers]
    exact segment
  have onStack : Over (line hw s) base 0x7C00#16 (first.ip :: words) s.toMachine := by
    refine ⟨inside.sp, ?_⟩
    rw [ss, physical_zero]
    exact inside.stack
  rcases onStack.pop with ⟨popped, left⟩
  have ran : ret (line hw s) s.toMachine =
      { s.toMachine with sp := s.sp + 2#16, ip := first.ip } := by
    rw [ret, popped]
  have returned : (BootSector.retFrom hw s).toMachine =
      { s.toMachine with sp := s.sp + 2#16, ip := first.ip } := ran
  refine Holds.of_over (line hw s) ?_ segment ?_
  · rw [returned]
    exact left.registers rfl rfl rfl
  · have registers : (BootSector.retFrom hw s).toRegisters =
        { s.toRegisters with sp := s.sp + 2#16, ip := first.ip } :=
      congrArg Machine.toRegisters returned
    rw [registers, inside.registers]

/-- Reading a status in a loop is not noticed by the caller. -/
theorem call_poll_holds {read : Board κ → Bool × Board κ} {target : BitVec 16}
    (held : Holds first base words s) (segment : first.ss = 0#16) (room : words.length < 9)
    (reads : ∀ s, (read s).2.memory = s.memory ∧
      (read s).2.toRegisters = { s.toRegisters with ax := (read s).2.ax }) (fuel : Nat) :
    Ends (fun _ => True) (Holds first base words)
      ((poll read fuel (callTo hw target s)).map (retFrom hw)) := by
  have kept : ∀ s : Board κ, Inside first base words target first.ip s →
      Inside first base words target first.ip (read s).2 := by
    intro s inside
    rcases reads s with ⟨memory, registers⟩
    have sp : (read s).2.sp = s.sp := by rw [registers]
    refine ⟨?_, sp.trans inside.sp, ?_⟩
    · rw [memory]
      exact inside.stack
    · rw [registers, inside.registers]
  have polled := poll_ends read kept (held.callTo hw segment room target) fuel
  refine ends_map (ends_weaken polled (fun _ _ => trivial) fun _ => id) ?_
  rintro s' ⟨last, inside, ended⟩
  have after := kept last inside
  rw [ended] at after
  exact after.retFrom segment

theorem callWaitCommand_holds (held : Holds first base words s) (segment : first.ss = 0#16)
    (room : words.length < 9) (fuel : Nat) :
    Ends (fun _ => True) (Holds first base words) (callWaitCommand hw layout fuel s) :=
  call_poll_holds held segment room (fun _ => ⟨rfl, rfl⟩) fuel

theorem callWaitData_holds (held : Holds first base words s) (segment : first.ss = 0#16)
    (room : words.length < 9) (fuel : Nat) :
    Ends (fun _ => True) (Holds first base words) (callWaitData hw layout fuel s) :=
  call_poll_holds held segment room (fun _ => ⟨rfl, rfl⟩) fuel

/-- The test of the line, with nothing else on the stack. -/
theorem callTestA20_spec (hw : Chipset κ) (layout : Layout) (held : Holds first base [] s)
    (segment : first.ss = 0#16) :
    (callTestA20 hw layout s).ax = (if line hw s then 1#16 else 0#16) ∧
      line hw (callTestA20 hw layout s) = line hw s ∧
      Holds first base [] (callTestA20 hw layout s) := by
  have ss := held.ss segment
  have sp : s.sp = 0x7C00#16 := by
    rw [held.sp]
    rfl
  have apart : ∀ a, OnStack a ↔ Below (physical (line hw s) s.ss) s.sp 18 a := by
    intro a
    rw [ss, sp, physical_zero]
    rfl
  have outside : ¬ Below (physical (line hw s) s.ss) s.sp 18
      (physical (line hw s) 0#16 0x0500#16) := by
    rw [← apart, onStack_iff, physical_zero]
    decide
  have outside' : ¬ Below (physical (line hw s) s.ss) s.sp 18
      (physical (line hw s) 0xFFFF#16 0x0510#16) := by
    rw [← apart, onStack_iff]
    cases line hw s <;> decide
  rcases testA20_exact (line hw s) layout.testA20 s.toMachine outside outside' with
    ⟨answer, memory, registers⟩
  refine ⟨answer, rfl, ⟨⟨trivial, fun a elsewhere => ?_⟩, ?_, ?_⟩⟩
  · have same := memory a fun below => elsewhere ((apart a).mpr below)
    exact same.trans (held.stack.outside a elsewhere)
  · have after : (callTestA20 hw layout s).sp = s.sp :=
      (congrArg Registers.sp registers).trans rfl
    rw [after, sp]
    rfl
  · have whole : (callTestA20 hw layout s).toRegisters =
        { s.toRegisters with ax := (callTestA20 hw layout s).ax } := registers
    rw [whole, held.registers]

/-! ## The address line -/

theorem sendCommand_holds (held : Holds first base words s) (segment : first.ss = 0#16)
    (room : words.length < 9) (command : BitVec 8) (fuel : Nat) :
    Ends (fun _ => True) (Holds first base words) (sendCommand hw layout command fuel s) :=
  ends_map (callWaitCommand_holds held segment room fuel) fun _ waited =>
    waited.of_machine rfl rfl

/-- The byte that is received goes on the stack, with the rest of `ax`. -/
theorem receiveData_holds (held : Holds first base words s) (segment : first.ss = 0#16)
    (room : words.length < 9) (fuel : Nat) :
    Ends (fun _ => True) (fun s => Holds first base (s.ax :: words) s)
      (receiveData hw layout fuel s) := by
  refine ends_map (callWaitData_holds held segment room fuel) fun s waited => ?_
  have received : Holds first base words (inAl hw 0x60#16 s) := waited.of_machine rfl rfl
  refine Holds.of_over _
    ((received.over segment (line hw (inAl hw 0x60#16 s))).push room _) segment ?_
  show (push (line hw (inAl hw 0x60#16 s)) (inAl hw 0x60#16 s).ax
    (inAl hw 0x60#16 s).toMachine).toRegisters = _
  rw [push_registers, received.registers]
  rfl

/-- ... and is taken from there again. -/
theorem sendData_holds {ax : BitVec 16} (held : Holds first base (ax :: words) s)
    (segment : first.ss = 0#16) (room : words.length < 8) (fuel : Nat) :
    Ends (fun _ => True) (Holds first base words) (sendData hw layout fuel s) := by
  have deeper : (ax :: words).length < 9 := Nat.succ_lt_succ room
  refine ends_map (callWaitCommand_holds held segment deeper fuel) fun s waited => ?_
  have onStack := waited.over segment (line hw s)
  have popped : popAx hw s = { s with sp := s.sp + 2#16, ax := ax } := by
    rw [popAx, onStack.pop.1]
  have left : Holds first base words (popAx hw s) := by
    rw [popped]
    refine Holds.of_over (line hw s) (onStack.popped rfl rfl rfl) segment ?_
    show { s.toRegisters with sp := s.sp + 2#16, ax := ax } = _
    rw [waited.registers]
  exact left.of_machine rfl rfl

/-- The answer is the state of the line, and nothing but `ax` has changed. -/
structure Tells (hw : Chipset κ) (first : Registers) (base : Memory)
    (result : Bool × Board κ) : Prop where
  answer : result.1 = line hw result.2
  holds : Holds first base [] result.2

/-- A test that finds the line on has the answer; after any other one the search goes
on. -/
theorem callTestA20_cases (hw : Chipset κ) (layout : Layout) (held : Holds first base [] s)
    (segment : first.ss = 0#16) :
    ((callTestA20 hw layout s).ax = 1#16 ∧
        Tells hw first base (true, callTestA20 hw layout s)) ∨
      ((callTestA20 hw layout s).ax ≠ 1#16 ∧ Holds first base [] (callTestA20 hw layout s)) := by
  rcases callTestA20_spec hw layout held segment with ⟨answer, same, after⟩
  by_cases on : (callTestA20 hw layout s).ax = 1#16
  · refine Or.inl ⟨on, ?_, after⟩
    rw [answer] at on
    cases lit : line hw s with
    | true => exact (same.trans lit).symm
    | false =>
        rw [lit] at on
        exact absurd on (by decide)
  · exact Or.inr ⟨on, after⟩

theorem UseFastA20Method_tells (held : Holds first base [] s) (segment : first.ss = 0#16) :
    Tells hw first base (UseFastA20Method hw layout s) := by
  have moved : Holds first base [] (outAl hw 0x92#16
      (movAl (low (inAl hw 0x92#16 s).ax ||| 0x02#8) (inAl hw 0x92#16 s))) :=
    held.of_machine rfl rfl
  rw [UseFastA20Method]
  rcases callTestA20_spec hw layout moved segment with ⟨answer, same, after⟩
  refine ⟨?_, after⟩
  show decide ((callTestA20 hw layout _).ax = 1#16) = line hw (callTestA20 hw layout _)
  rw [answer, same]
  cases line hw _ <;> rfl

theorem A20KeyboardCheck_tells (held : Holds first base [] s) (segment : first.ss = 0#16) :
    Tells hw first base (A20KeyboardCheck hw layout s) := by
  rw [A20KeyboardCheck]
  rcases callTestA20_cases hw layout held segment with
    ⟨on, told⟩ | ⟨off, after⟩
  · rw [if_pos on]
    exact told
  · rw [if_neg off]
    exact UseFastA20Method_tells after segment

theorem tryUsingKeyboardController_tells (held : Holds first base [] s)
    (segment : first.ss = 0#16) (fuel : Nat) :
    Ends (fun _ => True) (Tells hw first base)
      (tryUsingKeyboardController hw layout fuel s) := by
  refine ends_bind (sendCommand_holds held segment (by decide) 0xAD#8 fuel) fun s held => ?_
  refine ends_bind (sendCommand_holds held segment (by decide) 0xD0#8 fuel) fun s held => ?_
  refine ends_bind (receiveData_holds held segment (by decide) fuel) fun s held => ?_
  refine ends_bind (sendCommand_holds held segment (by simp) 0xD1#8 fuel) fun s held => ?_
  refine ends_bind (sendData_holds held segment (by decide) fuel) fun s held => ?_
  refine ends_bind (sendCommand_holds held segment (by decide) 0xAE#8 fuel) fun s held => ?_
  refine ends_bind (callWaitCommand_holds held segment (by decide) fuel) fun s held => ?_
  exact A20KeyboardCheck_tells held segment

theorem tryUsingBIOS_tells (held : Holds first base [] s) (segment : first.ss = 0#16)
    (fuel : Nat) :
    Ends (fun _ => True) (Tells hw first base) (tryUsingBIOS hw layout fuel s) := by
  have asked : Holds first base [] (askBios hw s) := held.of_machine rfl rfl
  rw [tryUsingBIOS]
  rcases callTestA20_cases hw layout asked segment with
    ⟨on, told⟩ | ⟨off, after⟩
  · rw [if_pos on]
    exact told
  · rw [if_neg off]
    exact tryUsingKeyboardController_tells after segment fuel

/-- Whatever the BIOS, the keyboard controller and the fast port do: the search for a way
to switch the line on ends with `A20Enabled` exactly when the line is on. -/
theorem enableA20Gate_tells (held : Holds first base [] s) (segment : first.ss = 0#16)
    (fuel : Nat) :
    Ends (fun _ => True) (Tells hw first base) (EnableA20Gate hw layout fuel s) := by
  rw [EnableA20Gate]
  rcases callTestA20_cases hw layout held segment with
    ⟨on, told⟩ | ⟨off, after⟩
  · rw [if_pos on]
    exact told
  · rw [if_neg off]
    exact tryUsingBIOS_tells after segment fuel

end Frame

/-! ## Loading two sectors -/

theorem high_setLow (word : BitVec 16) (value : BitVec 8) : high (setLow word value) = high word :=
  BitVec.extractLsb'_append_eq_left

theorem high_setHigh (word : BitVec 16) (value : BitVec 8) : high (setHigh word value) = value :=
  BitVec.extractLsb'_append_eq_left

/-- The sectors behind the boot sector, on a drive. -/
def secondSectors (drive : BitVec 8) : DiskRead := ⟨0x02#8, 0x00#8, 0x02#8, 0x00#8, drive⟩

/-- What the boot sector expects of a disk read of the BIOS: a read without an error stores
all its bytes, and no read touches the line. -/
structure Reads {κ : Type} (hw : Chipset κ) (content : DiskRead → Nat → BitVec 8) : Prop where
  delivers : ∀ request k, (hw.int13 request k).carry = false →
    ∀ i < 512 * request.count.toNat, (hw.int13 request k).data i = some (content request i)
  keepsLine : ∀ request k, hw.a20 (hw.int13 request k).chipset = hw.a20 k

section Load

variable {κ : Type}

/-- The state in which the second stage starts. -/
structure Entered (hw : Chipset κ) (layout : Layout) (content : DiskRead → Nat → BitVec 8)
    (drive : BitVec 8) (before : Memory) (s : Board κ) : Prop where
  line : line hw s = true
  entry : s.cs = 0x07E0#16 ∧ s.ip = 0x0000#16
  dl : low s.dx = drive
  stack : s.ss = 0#16 ∧ s.sp = 0x7C00#16
  segments : s.ds = 0#16 ∧ s.es = 0#16
  loaded : ∀ i < 1024, s.memory (0x7E00 + i) = content (secondSectors drive) i
  kept : ∀ a, ¬ OnStack a → (a < 0x7E00 ∨ 0x8200 ≤ a) → s.memory a = before a

/-- How the sector ends: in the second stage, or with one of the two errors. -/
inductive Settled (hw : Chipset κ) (layout : Layout) (content : DiskRead → Nat → BitVec 8)
    (drive : BitVec 8) (before : Memory) : Outcome × Board κ → Prop where
  | secondStage {s : Board κ} (entered : Entered hw layout content drive before s) :
      Settled hw layout content drive before (.secondStage, s)
  | diskError {s : Board κ} (on : line hw s = true)
      (failed : ∃ k, (hw.int13 (secondSectors drive) k).carry = true) :
      Settled hw layout content drive before (.reboot disk_read_error_msg, s)
  | lineError {s : Board κ} (off : line hw s = false) :
      Settled hw layout content drive before (.reboot A20_error_msg, s)

variable {hw : Chipset κ} {layout : Layout} {content : DiskRead → Nat → BitVec 8}
  {first : Registers} {base : Memory} {s : Board κ} {drive : BitVec 8}

/-- The registers of the request, with `es` on the stack. -/
theorem requestSectors_spec (hw : Chipset κ) (held : Holds first base [] s) (ss : first.ss = 0#16)
    (ds : first.ds = 0#16) (bootdev : ¬ OnStack layout.bootdev.toNat)
    (stored : base layout.bootdev.toNat = drive) :
    StackOn BitVec.toNat base 0x7C00#16 18 [first.es] (requestSectors hw layout s).memory ∧
      (requestSectors hw layout s).chipset = s.chipset ∧
      low (requestSectors hw layout s).dx = drive ∧
      ∃ ax dx, low ax = 0x02#8 ∧ high dx = 0x00#8 ∧
        (requestSectors hw layout s).toRegisters =
          { first with
            ax, dx, bx := 0#16, cx := 0x0002#16, es := 0x07E0#16, sp := 0x7BFE#16 } := by
  have pushed := (held.over ss (line hw s)).push (by decide) s.es
  have es : s.es = first.es := by rw [held.registers]
  have sp : s.sp = 0x7C00#16 := by
    rw [held.sp]
    rfl
  have stack := pushed.stack
  have segment : (push (line hw s) s.es s.toMachine).ss = 0#16 := held.ss ss
  rw [segment, physical_zero, es] at stack
  have source : s.ds = 0#16 := by
    rw [held.registers]
    exact ds
  have byte : load (line hw s) s.ds layout.bootdev (push (line hw s) s.es s.toMachine) =
      drive := by
    rw [load, source, physical_zero, es, ← stored]
    exact stack.outside _ bootdev
  have dx : (requestSectors hw layout s).dx =
      setLow (setHigh s.dx 0x00#8)
        (load (line hw s) s.ds layout.bootdev (push (line hw s) s.es s.toMachine)) := rfl
  have dl : low (requestSectors hw layout s).dx = drive := by
    rw [dx, low_setLow, byte]
  refine ⟨?_, rfl, dl, setLow (setHigh 0x7E0#16 0x02#8) 0x02#8,
    (requestSectors hw layout s).dx, low_setLow _ _, ?_, ?_⟩
  · rw [es] at pushed
    show StackOn _ _ _ _ _ (push (line hw s) s.es s.toMachine).memory
    rw [es]
    exact stack
  · rw [dx, high_setLow, high_setHigh]
  · have registers : (requestSectors hw layout s).toRegisters =
        { s.toRegisters with
          ax := setLow (setHigh 0x7E0#16 0x02#8) 0x02#8
          dx := (requestSectors hw layout s).dx
          bx := 0#16
          cx := setLow (setHigh s.cx 0x00#8) 0x02#8
          es := 0x07E0#16
          sp := s.sp - 2#16 } := rfl
    have cx : setLow (setHigh s.cx 0x00#8) 0x02#8 = 0x0002#16 := by
      rw [setLow, setHigh, BitVec.extractLsb'_append_eq_left]
      rfl
    rw [registers, cx, sp, held.registers]
    rfl

/-- The sectors lie neither on the stack nor on the number of the boot device. -/
theorem stackOn_storeBytes {m : Memory} {words : List (BitVec 16)} (few : words.length ≤ 9)
    (stack : StackOn BitVec.toNat base 0x7C00#16 18 words m) (n : Nat)
    (bytes : Nat → BitVec 8) :
    StackOn BitVec.toNat (storeBytes base 0x7E00 n bytes) 0x7C00#16 18 words
      (storeBytes m 0x7E00 n bytes) := by
  refine ⟨stack.words.congr fun a below => ?_, fun a elsewhere => ?_⟩
  · have onStack : OnStack a := by
      rcases below with ⟨k, above, within, position⟩
      exact ⟨k, above, by omega, position⟩
    have low := onStack_iff.mp onStack
    exact if_neg (by omega)
  · rw [storeBytes, storeBytes, stack.outside a elsewhere]

theorem load_success_entered {m : Memory} {ax dx : BitVec 16}
    (stack : StackOn BitVec.toNat base 0x7C00#16 18 [first.es] m)
    (memory : s.memory = storeBytes m 0x7E00 1024 (content (secondSectors drive)))
    (registers : s.toRegisters =
      { first with
        ax, dx, bx := 0#16, cx := 0x0002#16, es := 0x07E0#16, sp := 0x7BFE#16 })
    (ss : first.ss = 0#16) (ds : first.ds = 0#16) (es : first.es = 0#16)
    (on : line hw s = true)
    (bootdev : 0x7C00 ≤ layout.bootdev.toNat ∧ layout.bootdev.toNat < 0x7E00)
    (stored : base layout.bootdev.toNat = drive) :
    Entered hw layout content drive base (load_success hw layout s) := by
  have loaded := stackOn_storeBytes (by simp : [first.es].length ≤ 9) stack 1024
    (content (secondSectors drive))
  rw [← memory] at loaded
  have segment : s.ss = 0#16 := by
    rw [registers]
    exact ss
  have onStack : Over (line hw s) (storeBytes base 0x7E00 1024 (content (secondSectors drive)))
      0x7C00#16 [first.es] s.toMachine := by
    have sp : s.sp = 0x7BFE#16 := by rw [registers]
    refine ⟨?_, ?_⟩
    · rw [sp, List.length_singleton]
      decide
    · rw [segment, physical_zero]
      exact loaded
  have popped := onStack.pop.1
  have offStack : ¬ OnStack layout.bootdev.toNat := by
    rw [onStack_iff]
    omega
  have byte : s.memory layout.bootdev.toNat = drive := by
    rw [loaded.outside _ offStack, ← stored]
    exact if_neg (by omega)
  have source : s.ds = 0#16 := by
    rw [registers]
    exact ds
  have ran : load_success hw layout s =
      { s with
        sp := s.sp + 2#16
        es := first.es
        dx := setLow s.dx drive
        cs := 0x07E0#16
        ip := 0x0000#16 } := by
    rw [load_success, popped, ← byte]
    show { s with
      sp := s.sp + 2#16
      es := first.es
      dx := setLow s.dx (s.memory (physical (line hw s) s.ds layout.bootdev))
      cs := 0x07E0#16
      ip := 0x0000#16 } = _
    rw [source, physical_zero]
  rw [ran]
  refine ⟨on, ⟨rfl, rfl⟩, low_setLow _ _, ⟨segment, ?_⟩, ⟨source, es⟩, ?_, ?_⟩
  · show s.sp + 2#16 = 0x7C00#16
    rw [registers]
    rfl
  · intro i bound
    show s.memory (0x7E00 + i) = _
    rw [memory, storeBytes_inside _ bound]
  · intro a elsewhere outside
    show s.memory a = base a
    rw [loaded.outside a elsewhere]
    exact if_neg (by omega)

/-- With the line on, the two sectors are loaded and entered, unless the BIOS reports an
error. -/
theorem LoadSecondStage_settled (held : Holds first base [] s) (ss : first.ss = 0#16)
    (ds : first.ds = 0#16) (es : first.es = 0#16) (reads : Reads hw content)
    (on : line hw s = true)
    (bootdev : 0x7C00 ≤ layout.bootdev.toNat ∧ layout.bootdev.toNat < 0x7E00)
    (stored : base layout.bootdev.toNat = drive) :
    Settled hw layout content drive base (LoadSecondStage hw layout s) := by
  have offStack : ¬ OnStack layout.bootdev.toNat := by
    rw [onStack_iff]
    omega
  rcases requestSectors_spec hw held ss ds offStack stored with
    ⟨stack, chipset, dl, ax, dx, count, head, registers⟩
  rw [LoadSecondStage]
  generalize requestSectors hw layout s = r at stack chipset dl registers ⊢
  have request : DiskRead.mk (low r.ax) (high r.cx) (low r.cx) (high r.dx) (low r.dx) =
      secondSectors drive := by
    rw [dl]
    simp only [registers, count, head]
    rfl
  have buffer : physical (line hw r) r.es r.bx = 0x7E00 := by
    simp only [registers]
    cases line hw r <;> rfl
  have size : 512 * (low r.ax).toNat = 1024 := by
    simp only [registers, count]
    rfl
  have lit : line hw (readSectors hw r).2 = true := by
    show hw.a20 (hw.int13 _ r.chipset).chipset = true
    rw [reads.keepsLine, chipset]
    exact on
  by_cases failed : (readSectors hw r).1 = true
  · rw [if_pos failed]
    refine .diskError lit ⟨r.chipset, ?_⟩
    rw [← request]
    exact failed
  · rw [if_neg failed]
    have carry : (hw.int13 (secondSectors drive) r.chipset).carry = false := by
      rw [← request]
      exact Bool.eq_false_iff.mpr failed
    have memory : (readSectors hw r).2.memory =
        storeBytes r.memory 0x7E00 1024 (content (secondSectors drive)) := by
      funext a
      show (if physical (line hw r) r.es r.bx ≤ a ∧
          a < physical (line hw r) r.es r.bx + 512 * (low r.ax).toNat then _ else _) = _
      rw [buffer, size, request, storeBytes]
      by_cases inside : 0x7E00 ≤ a ∧ a < 0x7E00 + 1024
      · have delivered : (hw.int13 (secondSectors drive) r.chipset).data (a - 0x7E00) =
            some (content (secondSectors drive) (a - 0x7E00)) :=
          reads.delivers _ _ carry _ (by
            show a - 0x7E00 < 1024
            omega)
        rw [if_pos inside, if_pos inside, delivered, Option.getD_some]
      · rw [if_neg inside, if_neg inside]
    have after : (readSectors hw r).2.toRegisters =
        { r.toRegisters with ax := (readSectors hw r).2.ax } := rfl
    exact .secondStage (load_success_entered stack memory (after.trans (by rw [registers])) ss ds
      es lit bootdev stored)

/-- After `start` the number of the boot device is stored and the stack is empty. -/
theorem start_holds (hw : Chipset κ) (layout : Layout) (s : Board κ) :
    Holds (start hw layout s).toRegisters
      (store8 s.memory layout.bootdev.toNat (low s.dx)) [] (start hw layout s) := by
  have stored : (start hw layout s).memory =
      store8 s.memory layout.bootdev.toNat (low s.dx) := by
    show store8 s.memory (physical (line hw s) 0#16 layout.bootdev) (low s.dx) = _
    rw [physical_zero]
  rw [← stored]
  exact ⟨StackOn.empty _ _ _, rfl, rfl⟩

/-- A machine whose line is on from the start, with a disk of zeros. -/
def litChipset : Chipset Unit where
  a20 _ := true
  inb _ _ := (0, ())
  outb _ _ _ := ()
  int15 ax _ := (ax, ())
  int13 _ _ := ⟨false, 0x0002#16, fun _ => some 0, ()⟩

/-- What the BIOS leaves when it enters the sector, with the first hard disk in `dl`. -/
def entryMachine : A20.Machine :=
  { ax := 0xAA55#16, bx := 0#16, cx := 0#16, dx := 0x0080#16, si := 0#16, di := 0#16,
    bp := 0#16, sp := 0x6EF0#16, ip := 0x7C00#16, cs := 0#16, ds := 0x0040#16, es := 0#16,
    ss := 0#16, memory := fun _ => 0 }

end Load

end Os88.Loader.BootSector
