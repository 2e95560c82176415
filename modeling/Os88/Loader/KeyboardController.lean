/-
Module: Os88.Loader.KeyboardController
Purpose: The boot sector's way over the keyboard controller, with a controller behind
  the ports that takes its time.
Trusted boundary: the controller is what the boot sector expects of one, not code of the
  repository.
Main exports: Controller, controllerChipset, callWaitCommand_finishes, sendCommand_finishes,
  receiveData_finishes, sendData_finishes, enableA20Gate_through_controller,
  bootSector_through_controller
-/
import Os88.Loader.SecondStage

namespace Os88.Loader.BootSector

open A20
open ByteMemory
open SegmentedMemory
open Waiting

/-! ## The controller -/

/-- `outputPort` has the address line as its bit 1.  `received` is a byte from the keyboard
that nobody has taken yet, `answer` one that was asked for and is there after `filling`
more reads of the status.  `busy` counts the reads of the status that still find the input
buffer full, `delays` how often that has begun.  `fast` is port 0x92. -/
structure Controller where
  outputPort : BitVec 8
  received : Option (BitVec 8)
  answer : Option (BitVec 8)
  filling : Nat
  expectsPort : Bool
  keyboard : Bool
  busy : Nat
  delays : Nat
  fast : BitVec 8

namespace Controller

/-- Data can be taken. -/
def full (c : Controller) : Bool := c.received.isSome || c.answer.isSome && c.filling == 0

def status (c : Controller) : BitVec 8 × Controller :=
  ((if c.busy = 0 then 0x00#8 else 0x02#8) ||| if c.full then 0x01#8 else 0x00#8,
    { c with busy := c.busy - 1, filling := c.filling - 1 })

/-- A byte of the keyboard comes first. -/
def takeData (c : Controller) : BitVec 8 × Controller :=
  match c.received with
  | some value => (value, { c with received := none })
  | none =>
      if c.full then (c.answer.getD 0x00#8, { c with answer := none })
      else (0x00#8, c)

section Delays

-- how long the input buffer stays full, and how long an answer takes
variable (busyFor fillsFor : Nat → Nat)

def pause (c : Controller) : Controller :=
  { c with busy := busyFor c.delays, delays := c.delays + 1 }

/-- A command that comes too early is lost. -/
def command (value : BitVec 8) (c : Controller) : Controller :=
  if c.busy ≠ 0 then c
  else if value = 0xAD#8 then pause busyFor { c with keyboard := false }
  else if value = 0xAE#8 then pause busyFor { c with keyboard := true }
  else if value = 0xD0#8 then
    pause busyFor { c with answer := some c.outputPort, filling := fillsFor c.delays }
  else if value = 0xD1#8 then pause busyFor { c with expectsPort := true }
  else pause busyFor c

/-- Data that is not for the output port is for the keyboard. -/
def data (value : BitVec 8) (c : Controller) : Controller :=
  if c.busy ≠ 0 then c
  else if c.expectsPort then pause busyFor { c with outputPort := value, expectsPort := false }
  else pause busyFor c

end Delays

end Controller

/-- A chipset with that controller and a fast port of its own, and a BIOS that cannot switch
the line. -/
def controllerChipset (busyFor fillsFor : Nat → Nat) (refusal : BitVec 16)
    (disk : DiskRead → Bool × BitVec 16 × (Nat → Option (BitVec 8))) : Chipset Controller where
  a20 c := c.outputPort.getLsbD 1 || c.fast.getLsbD 1
  inb port c :=
    if port = 0x64#16 then c.status
    else if port = 0x60#16 then c.takeData
    else if port = 0x92#16 then (c.fast, c)
    else (0xFF#8, c)
  outb port value c :=
    if port = 0x64#16 then c.command busyFor fillsFor value
    else if port = 0x60#16 then c.data busyFor value
    else if port = 0x92#16 then { c with fast := value }
    else c
  int15 _ c := (refusal, c)
  int13 request c := ⟨(disk request).1, (disk request).2.1, (disk request).2.2, c⟩

/-! ## Waiting -/

section Dialogue

variable (busyFor fillsFor : Nat → Nat) (refusal : BitVec 16)
  (disk : DiskRead → Bool × BitVec 16 × (Nat → Option (BitVec 8))) (layout : Layout)
  {s : Board Controller} {c : Controller} {fuel : Nat}

theorem low_status (c : Controller) :
    ((c.status.1 &&& 0x02#8 = 0) ↔ c.busy = 0) ∧ ((c.status.1 &&& 0x01#8 ≠ 0) ↔ c.full = true) := by
  rw [Controller.status]
  by_cases idle : c.busy = 0
  · cases full : c.full <;> simp [idle]
  · cases full : c.full <;> simp [idle]

/-- Waiting ends with an empty input buffer and changes nothing else but the time that is
left for an answer. -/
theorem callWaitCommand_finishes (chipset : s.chipset = c) (patient : c.busy < fuel) :
    ∃ s' filling, callWaitCommand (controllerChipset busyFor fillsFor refusal disk) layout fuel s =
        .ok s' ∧ s'.chipset = { c with busy := 0, filling := filling } := by
  obtain ⟨last, ⟨busy, filling, before⟩, done, ran⟩ :=
    poll_finishes (commandReady (controllerChipset busyFor fillsFor refusal disk))
      (fun s => ∃ busy filling, s.chipset = { c with busy := busy, filling := filling })
      (fun s => s.chipset.busy)
      (s := callTo (controllerChipset busyFor fillsFor refusal disk) layout.waitCommand s)
      (by
        rintro s ⟨busy, filling, same⟩ missed
        have answer : low (setLow s.ax s.chipset.status.1) &&& 0x02#8 ≠ 0 :=
          of_decide_eq_false missed
        rw [low_setLow] at answer
        have full : s.chipset.busy ≠ 0 := fun idle => answer ((low_status s.chipset).1.mpr idle)
        refine ⟨⟨busy - 1, filling - 1, ?_⟩, ?_⟩
        · show s.chipset.status.2 = _
          rw [same]
          rfl
        · show s.chipset.busy - 1 < s.chipset.busy
          omega)
      ⟨c.busy, c.filling, chipset⟩
      (by
        show s.chipset.busy < fuel
        rwa [chipset])
  have answer : low (setLow last.ax last.chipset.status.1) &&& 0x02#8 = 0 := of_decide_eq_true done
  rw [low_setLow] at answer
  have idle := (low_status last.chipset).1.mp answer
  rw [before] at idle
  refine ⟨_, filling - 1, by rw [callWaitCommand, ran]; rfl, ?_⟩
  show last.chipset.status.2 = _
  rw [before]
  show { c with busy := busy - 1, filling := filling - 1 } = _
  rw [show busy = 0 from idle]

theorem out_command (value : BitVec 8) (s : Board Controller) :
    (outAl (controllerChipset busyFor fillsFor refusal disk) 0x64#16 (movAl value s)).chipset =
      s.chipset.command busyFor fillsFor value := by
  show s.chipset.command busyFor fillsFor (low (setLow s.ax value)) = _
  rw [low_setLow]

theorem out_data (value : BitVec 8) (s : Board Controller) :
    (outAl (controllerChipset busyFor fillsFor refusal disk) 0x60#16 (movAl value s)).chipset =
      s.chipset.data busyFor value := by
  show s.chipset.data busyFor (low (setLow s.ax value)) = _
  rw [low_setLow]

/-- A command reaches a controller that is ready for it. -/
theorem sendCommand_finishes (chipset : s.chipset = c) (patient : c.busy < fuel)
    (value : BitVec 8) :
    ∃ s' filling,
      sendCommand (controllerChipset busyFor fillsFor refusal disk) layout value fuel s = .ok s' ∧
      s'.chipset =
        { c with busy := 0, filling := filling }.command busyFor fillsFor value := by
  rcases callWaitCommand_finishes busyFor fillsFor refusal disk layout chipset patient with
    ⟨s', filling, ran, waited⟩
  refine ⟨_, filling, by rw [sendCommand, ran]; rfl, ?_⟩
  rw [out_command, waited]

/-- The byte that is taken is one that the keyboard has left, or else the answer. -/
theorem receiveData_finishes {value : BitVec 8} (chipset : s.chipset = c)
    (asked : c.answer = some value) (patient : c.filling < fuel) :
    ∃ s' busy filling answer,
      receiveData (controllerChipset busyFor fillsFor refusal disk) layout fuel s = .ok s' ∧
      low s'.ax = c.received.getD value ∧ busy ≤ c.busy ∧
      s'.chipset =
        { c with busy := busy, filling := filling, received := none, answer := answer } := by
  obtain ⟨last, ⟨busy, filling, sooner, before⟩, done, ran⟩ :=
    poll_finishes (dataReady (controllerChipset busyFor fillsFor refusal disk))
      (fun s => ∃ busy filling, busy ≤ c.busy ∧
        s.chipset = { c with busy := busy, filling := filling })
      (fun s => s.chipset.filling)
      (s := callTo (controllerChipset busyFor fillsFor refusal disk) layout.waitData s)
      (by
        rintro s ⟨busy, filling, sooner, same⟩ missed
        have answer : ¬ low (setLow s.ax s.chipset.status.1) &&& 0x01#8 ≠ 0 :=
          of_decide_eq_false missed
        rw [low_setLow] at answer
        have empty : ¬ s.chipset.full = true :=
          fun full => answer ((low_status s.chipset).2.mpr full)
        have filled : s.chipset.filling ≠ 0 := by
          intro zero
          rw [same] at empty zero
          have zeroFilling : filling = 0 := zero
          apply empty
          simp [Controller.full, asked, zeroFilling]
        refine ⟨⟨busy - 1, filling - 1, by omega, ?_⟩, ?_⟩
        · show s.chipset.status.2 = _
          rw [same]
          rfl
        · show s.chipset.filling - 1 < s.chipset.filling
          omega)
      ⟨c.busy, c.filling, Nat.le_refl _, chipset⟩
      (by
        show s.chipset.filling < fuel
        rwa [chipset])
  have answer : low (setLow last.ax last.chipset.status.1) &&& 0x01#8 ≠ 0 := of_decide_eq_true done
  rw [low_setLow] at answer
  have full := (low_status last.chipset).2.mp answer
  have after : last.chipset.status.2 = { c with busy := busy - 1, filling := filling - 1 } := by
    rw [before]
    rfl
  rw [before] at full
  cases received : c.received with
  | some left =>
      have taken : last.chipset.status.2.takeData =
          (left, { c with busy := busy - 1, filling := filling - 1, received := none }) := by
        rw [after]
        simp only [Controller.takeData, received]
      refine ⟨_, busy - 1, filling - 1, c.answer, by rw [receiveData, callWaitData, ran]; rfl, ?_,
        by omega, ?_⟩
      · show low (setLow _ last.chipset.status.2.takeData.1) = _
        rw [low_setLow, taken, Option.getD_some]
      · show last.chipset.status.2.takeData.2 = _
        rw [taken]
  | none =>
      have ready : filling = 0 := by
        simpa [Controller.full, received, asked] using full
      have taken : last.chipset.status.2.takeData =
          (value, { c with busy := busy - 1, filling := filling - 1, answer := none }) := by
        rw [after]
        simp [Controller.takeData, received, Controller.full, asked, ready]
      refine ⟨_, busy - 1, filling - 1, none, by rw [receiveData, callWaitData, ran]; rfl, ?_,
        by omega, ?_⟩
      · show low (setLow _ last.chipset.status.2.takeData.1) = _
        rw [low_setLow, taken, Option.getD_none]
      · show last.chipset.status.2.takeData.2 = _
        rw [taken, ← received]

/-- The word on the stack comes back with bit 1 set. -/
theorem sendData_finishes {first : Registers} {base : Memory} {ax : BitVec 16}
    (held : Holds first base [ax] s) (segment : first.ss = 0#16) (chipset : s.chipset = c)
    (patient : c.busy < fuel) :
    ∃ s' filling, sendData (controllerChipset busyFor fillsFor refusal disk) layout fuel s =
        .ok s' ∧
      s'.chipset = { c with busy := 0, filling := filling }.data busyFor (low ax ||| 0x02#8) := by
  rcases callWaitCommand_finishes busyFor fillsFor refusal disk layout chipset patient with
    ⟨s', filling, ran, waited⟩
  have held' := ends_ok (callWaitCommand_holds held segment (by simp) fuel) ran
  have popped := (held'.over segment
    (line (controllerChipset busyFor fillsFor refusal disk) s')).pop.1
  have word : (popAx (controllerChipset busyFor fillsFor refusal disk) s').ax = ax := by
    rw [popAx, popped]
  have same : (popAx (controllerChipset busyFor fillsFor refusal disk) s').chipset = s'.chipset :=
    rfl
  refine ⟨_, filling, by rw [sendData, ran]; rfl, ?_⟩
  rw [out_data, word, same, waited]

/-! ## The whole way -/

/-- The controller answers within the patience of the loops, so often as it is asked. -/
structure Prompt (busyFor fillsFor : Nat → Nat) (fuel : Nat) (c : Controller) : Prop where
  now : c.busy < fuel
  busy : ∀ n < 5, busyFor (c.delays + n) < fuel
  fills : ∀ n < 5, fillsFor (c.delays + n) < fuel

/-- What the dialogue leaves of the controller: the byte that was taken is written to the
output port with bit 1 set, and the keyboard is on. -/
structure Served (c c' : Controller) : Prop where
  outputPort : c'.outputPort = c.received.getD c.outputPort ||| 0x02#8
  keyboard : c'.keyboard = true
  fast : c'.fast = c.fast

theorem dialogue_finishes {first : Registers} {base : Memory} (held : Holds first base [] s)
    (segment : first.ss = 0#16) (prompt : Prompt busyFor fillsFor fuel s.chipset) :
    ∃ s', tryUsingKeyboardController (controllerChipset busyFor fillsFor refusal disk) layout fuel
        s = .ok (A20KeyboardCheck (controllerChipset busyFor fillsFor refusal disk) layout s') ∧
      Holds first base [] s' ∧ Served s.chipset s'.chipset := by
  rcases sendCommand_finishes busyFor fillsFor refusal disk layout rfl prompt.now 0xAD#8 with
    ⟨s1, _, ran1, disabled⟩
  have held1 := ends_ok (sendCommand_holds held segment (by simp) 0xAD#8 fuel) ran1
  rcases sendCommand_finishes busyFor fillsFor refusal disk layout disabled
      (prompt.busy 0 (by decide)) 0xD0#8 with
    ⟨s2, _, ran2, asked⟩
  have held2 := ends_ok (sendCommand_holds held1 segment (by simp) 0xD0#8 fuel) ran2
  rcases receiveData_finishes busyFor fillsFor refusal disk layout asked rfl
      (prompt.fills 1 (by decide)) with
    ⟨s3, busy, _, _, ran3, taken, sooner, received⟩
  have held3 := ends_ok (receiveData_holds held2 segment (by simp) fuel) ran3
  rcases sendCommand_finishes busyFor fillsFor refusal disk layout received
      (Nat.lt_of_le_of_lt sooner (prompt.busy 1 (by decide))) 0xD1#8 with
    ⟨s4, _, ran4, announced⟩
  have held4 := ends_ok (sendCommand_holds held3 segment (by simp) 0xD1#8 fuel) ran4
  rcases sendData_finishes busyFor fillsFor refusal disk layout held4 segment announced
      (prompt.busy 2 (by decide)) with
    ⟨s5, _, ran5, answered⟩
  have held5 := ends_ok (sendData_holds held4 segment (by simp) fuel) ran5
  rcases sendCommand_finishes busyFor fillsFor refusal disk layout answered
      (prompt.busy 3 (by decide)) 0xAE#8 with
    ⟨s6, _, ran6, enabled⟩
  have held6 := ends_ok (sendCommand_holds held5 segment (by simp) 0xAE#8 fuel) ran6
  rcases callWaitCommand_finishes busyFor fillsFor refusal disk layout enabled
      (prompt.busy 4 (by decide)) with
    ⟨s7, _, ran7, waited⟩
  have held7 := ends_ok (callWaitCommand_holds held6 segment (by simp) fuel) ran7
  refine ⟨s7, ?_, held7, ⟨?_, ?_, ?_⟩⟩
  · simp only [tryUsingKeyboardController, ran1, ran2, ran3, ran4, ran5, ran6, ran7, bind,
      Except.bind, pure, Except.pure]
  · rw [waited]
    show low s3.ax ||| 0x02#8 = _
    rw [taken]
    rfl
  · rw [waited]
    rfl
  · rw [waited]
    rfl

theorem line_of_served {c c' : Controller} (served : Served c c') :
    (controllerChipset busyFor fillsFor refusal disk).a20 c' = true := by
  show (c'.outputPort.getLsbD 1 || c'.fast.getLsbD 1) = true
  rw [served.outputPort, BitVec.getLsbD_or]
  simp

/-- A line that is off is switched on by the dialogue. -/
theorem enableA20Gate_through_controller {first : Registers} {base : Memory}
    (held : Holds first base [] s) (segment : first.ss = 0#16)
    (off : line (controllerChipset busyFor fillsFor refusal disk) s = false)
    (prompt : Prompt busyFor fillsFor fuel s.chipset) :
    ∃ s', EnableA20Gate (controllerChipset busyFor fillsFor refusal disk) layout fuel s =
        .ok (true, s') ∧ Served s.chipset s'.chipset := by
  have search : ∀ {s : Board Controller}, Holds first base [] s →
      line (controllerChipset busyFor fillsFor refusal disk) s = false →
      (callTestA20 (controllerChipset busyFor fillsFor refusal disk) layout s).ax ≠ 1#16 ∧
        Holds first base []
          (callTestA20 (controllerChipset busyFor fillsFor refusal disk) layout s) := by
    intro s held off
    rcases callTestA20_spec _ layout held segment with ⟨answer, -, after⟩
    rw [off] at answer
    exact ⟨by rw [answer]; decide, after⟩
  rcases search held off with ⟨missed, held1⟩
  have asked : Holds first base [] (askBios (controllerChipset busyFor fillsFor refusal disk)
      (callTestA20 (controllerChipset busyFor fillsFor refusal disk) layout s)) :=
    held1.of_machine rfl rfl
  rcases search asked off with ⟨missed', held2⟩
  rcases dialogue_finishes busyFor fillsFor refusal disk layout held2 segment prompt with
     ⟨s', ran, held', served⟩
  rcases callTestA20_spec _ layout held' segment with ⟨answer, -, -⟩
  have lit : line (controllerChipset busyFor fillsFor refusal disk) s' = true :=
    line_of_served busyFor fillsFor refusal disk served
  rw [lit, if_pos rfl] at answer
  refine ⟨callTestA20 (controllerChipset busyFor fillsFor refusal disk) layout s', ?_, served⟩
  rw [EnableA20Gate, if_neg missed, tryUsingBIOS, if_neg missed', ran, A20KeyboardCheck,
    if_pos answer]

end Dialogue

end Os88.Loader.BootSector
