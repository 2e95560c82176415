/-
Module: Os88.Loader.PortDiscipline
Purpose: How the boot sector talks to the keyboard controller, whatever the controller
  answers and also when it is still waited for.
Trusted boundary: none
Main exports: Ready, Filled, Disciplined, Tidy, callWaitCommand_disciplined,
  tryUsingKeyboardController_disciplined, bootSector_disciplined
-/
import Os88.Loader.BootSector

namespace Os88.Loader.BootSector

open A20
open Waiting

/-- The last thing that went through the ports was a status of port 0x64 with an empty
input buffer. -/
def Ready : List PortEvent → Prop
  | .input port status :: _ => port = 0x64#16 ∧ status &&& 0x02#8 = 0#8
  | _ => False

/-- ... with a full output buffer. -/
def Filled : List PortEvent → Prop
  | .input port status :: _ => port = 0x64#16 ∧ status &&& 0x01#8 ≠ 0#8
  | _ => False

/-- Bytes for the controller find its input buffer empty, and its data is read from a full
output buffer. -/
inductive Disciplined : List PortEvent → Prop where
  | nil : Disciplined []
  | command {port : BitVec 16} {value : BitVec 8} {trace : List PortEvent}
      (controller : port = 0x60#16 ∨ port = 0x64#16) (ready : Ready trace)
      (before : Disciplined trace) : Disciplined (.output port value :: trace)
  | data {value : BitVec 8} {trace : List PortEvent} (filled : Filled trace)
      (before : Disciplined trace) : Disciplined (.input 0x60#16 value :: trace)
  | output {port : BitVec 16} {value : BitVec 8} {trace : List PortEvent}
      (other : port ≠ 0x60#16 ∧ port ≠ 0x64#16) (before : Disciplined trace) :
      Disciplined (.output port value :: trace)
  | input {port : BitVec 16} {value : BitVec 8} {trace : List PortEvent}
      (other : port ≠ 0x60#16) (before : Disciplined trace) :
      Disciplined (.input port value :: trace)

section Steps

variable {κ : Type} {hw : Chipset κ} {layout : Layout} {s : Board κ}

/-- The ports have been used properly so far. -/
def Tidy (s : Board κ) : Prop := Disciplined s.trace

theorem inAl_disciplined {port : BitVec 16} (before : Tidy s) (other : port ≠ 0x60#16) :
    Tidy (inAl hw port s) :=
  .input other before

theorem status_disciplined (s : Board κ) (before : Tidy s) : Tidy (inAl hw 0x64#16 s) :=
  inAl_disciplined before (by decide)

/-- What `WaitCommand` leaves allows a byte to be sent. -/
theorem callWaitCommand_disciplined (fuel : Nat) (before : Tidy s) :
    Ends Tidy (fun s => Tidy s ∧ Ready s.trace) (callWaitCommand hw layout fuel s) := by
  have called : Tidy (callTo hw layout.waitCommand s) := before
  refine ends_map (poll_ends (commandReady hw) status_disciplined called fuel) ?_
  rintro _ ⟨last, kept, polled⟩
  obtain ⟨empty, rfl⟩ := Prod.mk.inj polled
  have status : low (inAl hw 0x64#16 last).ax = (hw.inb 0x64#16 last.chipset).1 :=
    low_setLow _ _
  rw [status] at empty
  exact ⟨status_disciplined last kept, rfl, of_decide_eq_true empty⟩

/-- What `WaitData` leaves allows a byte to be taken. -/
theorem callWaitData_disciplined (fuel : Nat) (before : Tidy s) :
    Ends Tidy (fun s => Tidy s ∧ Filled s.trace) (callWaitData hw layout fuel s) := by
  have called : Tidy (callTo hw layout.waitData s) := before
  refine ends_map (poll_ends (dataReady hw) status_disciplined called fuel) ?_
  rintro _ ⟨last, kept, polled⟩
  obtain ⟨full, rfl⟩ := Prod.mk.inj polled
  have status : low (inAl hw 0x64#16 last).ax = (hw.inb 0x64#16 last.chipset).1 :=
    low_setLow _ _
  rw [status] at full
  exact ⟨status_disciplined last kept, rfl, of_decide_eq_true full⟩

theorem sendCommand_disciplined (command : BitVec 8) (fuel : Nat)
    (before : Tidy s) :
    Ends Tidy Tidy
      (sendCommand hw layout command fuel s) :=
  ends_map (callWaitCommand_disciplined fuel before) fun _ ⟨kept, ready⟩ =>
    .command (.inr rfl) ready kept

theorem sendData_disciplined (fuel : Nat) (before : Tidy s) :
    Ends Tidy Tidy
      (sendData hw layout fuel s) :=
  ends_map (callWaitCommand_disciplined fuel before) fun _ ⟨kept, ready⟩ =>
    .command (.inl rfl) ready kept

theorem receiveData_disciplined (fuel : Nat) (before : Tidy s) :
    Ends Tidy Tidy
      (receiveData hw layout fuel s) :=
  ends_map (callWaitData_disciplined fuel before) fun _ ⟨kept, filled⟩ =>
    .data filled kept

end Steps

/-! ## The whole sector -/

section Whole

variable {κ : Type} {hw : Chipset κ} {layout : Layout} {s : Board κ}

/-- A result whose ports have been used properly. -/
def Proper {α : Type} (result : α × Board κ) : Prop := Tidy result.2

theorem UseFastA20Method_disciplined (before : Tidy s) :
    Proper (UseFastA20Method hw layout s) :=
  .output ⟨by decide, by decide⟩ (inAl_disciplined before (by decide))

theorem A20KeyboardCheck_disciplined (before : Tidy s) :
    Proper (A20KeyboardCheck hw layout s) := by
  rw [A20KeyboardCheck]
  split
  · exact before
  · exact UseFastA20Method_disciplined before

theorem tryUsingKeyboardController_disciplined (fuel : Nat) (before : Tidy s) :
    Ends Tidy Proper
      (tryUsingKeyboardController hw layout fuel s) := by
  refine ends_bind (sendCommand_disciplined 0xAD#8 fuel before) fun s disabled => ?_
  refine ends_bind (sendCommand_disciplined 0xD0#8 fuel disabled) fun s asked => ?_
  refine ends_bind (receiveData_disciplined fuel asked) fun s received => ?_
  refine ends_bind (sendCommand_disciplined 0xD1#8 fuel received) fun s announced => ?_
  refine ends_bind (sendData_disciplined fuel announced) fun s answered => ?_
  refine ends_bind (sendCommand_disciplined 0xAE#8 fuel answered) fun s enabled => ?_
  refine ends_bind (callWaitCommand_disciplined fuel enabled) fun s waited => ?_
  exact A20KeyboardCheck_disciplined waited.1

theorem EnableA20Gate_disciplined (fuel : Nat) (before : Tidy s) :
    Ends Tidy Proper (EnableA20Gate hw layout fuel s) := by
  rw [EnableA20Gate]
  split
  · exact before
  · rw [tryUsingBIOS]
    split
    · exact before
    · exact tryUsingKeyboardController_disciplined fuel before

/-- Whatever is behind the ports, and wherever the boot sector is: no byte has been sent to
the keyboard controller but right after a status that showed its input buffer empty, and
none taken from it but right after a status that showed its output buffer full. -/
theorem bootSector_disciplined (hw : Chipset κ) (layout : Layout) (fuel : Nat)
    (machine : A20.Machine) (chipset : κ) :
    Ends Tidy Proper
      (bootSector hw layout fuel ⟨machine, chipset, []⟩) := by
  have started : Tidy (start hw layout ⟨machine, chipset, []⟩) := Disciplined.nil
  refine ends_bind (EnableA20Gate_disciplined fuel started) ?_
  rintro ⟨enabled, s⟩ kept
  cases enabled with
  | false => exact kept
  | true =>
      show Disciplined (LoadSecondStage hw layout s).2.trace
      rw [LoadSecondStage]
      split
      · exact kept
      · exact kept

end Whole

end Os88.Loader.BootSector
