/-
Module: Os88.Loader.BootSector
Purpose: oldbootloader1.asm from its first instruction to the jump into the second
  stage: the three ways to switch the address line on, and the loading of two sectors.
Trusted boundary: the chipset, the BIOS and the addresses of the labels are parameters.
  The flags, fs and gs, and the characters that `print` shows are left out.
Main exports: PortEvent, Chipset, Board, Layout, callTestA20, callWaitCommand, callWaitData,
  start, UseFastA20Method, A20KeyboardCheck, sendCommand, receiveData, sendData,
  tryUsingKeyboardController, tryUsingBIOS, EnableA20Gate, LoadSecondStage, Outcome,
  bootSector
-/
import Os88.Library.Waiting
import Os88.Loader.A20Line

namespace Os88.Loader.BootSector

open A20
open ByteMemory
open SegmentedMemory
open Waiting

/-! ## The machine -/

inductive PortEvent where
  | input (port : BitVec 16) (value : BitVec 8)
  | output (port : BitVec 16) (value : BitVec 8)

/-- The registers of INT 13h with AH = 2. -/
structure DiskRead where
  count : BitVec 8
  cylinder : BitVec 8
  sector : BitVec 8
  head : BitVec 8
  drive : BitVec 8
deriving DecidableEq

/-- `data` gives the bytes of the buffer that are stored; a read that fails may have
stored some. -/
structure DiskReply (κ : Type) where
  carry : Bool
  ax : BitVec 16
  data : Nat → Option (BitVec 8)
  chipset : κ

/-- What is outside the processor: the address line, the ports, and the two BIOS
functions, of which the first one gets AX. -/
structure Chipset (κ : Type) where
  a20 : κ → Bool
  inb : BitVec 16 → κ → BitVec 8 × κ
  outb : BitVec 16 → BitVec 8 → κ → κ
  int15 : BitVec 16 → κ → BitVec 16 × κ
  int13 : DiskRead → κ → DiskReply κ

/-- `trace` lists what has gone through the ports, the latest first. -/
structure Board (κ : Type) extends A20.Machine where
  chipset : κ
  trace : List PortEvent

/-- Where the assembler puts the labels. -/
structure Layout where
  testA20 : BitVec 16
  waitCommand : BitVec 16
  waitData : BitVec 16
  bootdev : BitVec 16

/-- The high byte of a word, and a word with another one. -/
def high (word : BitVec 16) : BitVec 8 := word.extractLsb' 8 8

def setHigh (word : BitVec 16) (value : BitVec 8) : BitVec 16 :=
  value ++ low word

section Program

variable {κ : Type} (hw : Chipset κ) (layout : Layout)

/-- The address line as it is now. -/
def line (s : Board κ) : Bool := hw.a20 s.chipset

def movAl (value : BitVec 8) (s : Board κ) : Board κ :=
  { s with ax := setLow s.ax value }

def inAl (port : BitVec 16) (s : Board κ) : Board κ :=
  let (value, chipset) := hw.inb port s.chipset
  { s with
    ax := setLow s.ax value
    chipset := chipset
    trace := .input port value :: s.trace }

def outAl (port : BitVec 16) (s : Board κ) : Board κ :=
  { s with
    chipset := hw.outb port (low s.ax) s.chipset
    trace := .output port (low s.ax) :: s.trace }

def callTo (target : BitVec 16) (s : Board κ) : Board κ :=
  { s with toMachine := call (line hw s) target s.toMachine }

def retFrom (s : Board κ) : Board κ :=
  { s with toMachine := ret (line hw s) s.toMachine }

def pushAx (s : Board κ) : Board κ :=
  { s with toMachine := push (line hw s) s.ax s.toMachine }

def popAx (s : Board κ) : Board κ :=
  let (ax, machine) := pop (line hw s) s.toMachine
  { s with toMachine := { machine with ax } }

def callTestA20 (s : Board κ) : Board κ :=
  let s := callTo hw layout.testA20 s
  { s with toMachine := TestA20 (line hw s) s.toMachine }

/-- One pass of `WaitCommand`: `in al, 0x64` and `test al, 2`. -/
def commandReady (s : Board κ) : Bool × Board κ :=
  let s := inAl hw 0x64#16 s
  (low s.ax &&& 0x02#8 = 0, s)

/-- One pass of `WaitData`: `in al, 0x64` and `test al, 1`. -/
def dataReady (s : Board κ) : Bool × Board κ :=
  let s := inAl hw 0x64#16 s
  (low s.ax &&& 0x01#8 ≠ 0, s)

def callWaitCommand (fuel : Nat) (s : Board κ) : Except (Board κ) (Board κ) :=
  (poll (commandReady hw) fuel (callTo hw layout.waitCommand s)).map (retFrom hw)

def callWaitData (fuel : Nat) (s : Board κ) : Except (Board κ) (Board κ) :=
  (poll (dataReady hw) fuel (callTo hw layout.waitData s)).map (retFrom hw)

/-! ## The address line -/

/-- The segments, the stack and the number of the boot device. -/
def start (s : Board κ) : Board κ :=
  let s := { s with ax := 0#16 }
  let s := { s with ds := s.ax, es := s.ax, ss := s.ax }
  let s := { s with bp := 0x7C00#16 }
  let s := { s with sp := s.bp }
  { s with toMachine := store (line hw s) s.ds layout.bootdev (low s.dx) s.toMachine }

/-- The last way; what it does not achieve is an error. -/
def UseFastA20Method (s : Board κ) : Bool × Board κ :=
  let s := inAl hw 0x92#16 s
  let s := movAl (low s.ax ||| 0x02#8) s
  let s := outAl hw 0x92#16 s
  let s := callTestA20 hw layout s
  (s.ax = 1#16, s)

def A20KeyboardCheck (s : Board κ) : Bool × Board κ :=
  let s := callTestA20 hw layout s
  if s.ax = 1#16 then (true, s) else UseFastA20Method hw layout s

/-- `call WaitCommand`, `mov al, command` and `out 0x64, al` -/
def sendCommand (command : BitVec 8) (fuel : Nat) (s : Board κ) :
    Except (Board κ) (Board κ) :=
  (callWaitCommand hw layout fuel s).map fun s => outAl hw 0x64#16 (movAl command s)

/-- `call WaitData`, `in al, 0x60` and `push ax` -/
def receiveData (fuel : Nat) (s : Board κ) : Except (Board κ) (Board κ) :=
  (callWaitData hw layout fuel s).map fun s => pushAx hw (inAl hw 0x60#16 s)

/-- `call WaitCommand`, `pop ax`, `or al, 2` and `out 0x60, al` -/
def sendData (fuel : Nat) (s : Board κ) : Except (Board κ) (Board κ) :=
  (callWaitCommand hw layout fuel s).map fun s =>
    let s := popAx hw s
    outAl hw 0x60#16 (movAl (low s.ax ||| 0x02#8) s)

/-- The keyboard is switched off, the output port is read and written back with bit 1
set, and the keyboard is switched on again. -/
def tryUsingKeyboardController (fuel : Nat) (s : Board κ) :
    Except (Board κ) (Bool × Board κ) := do
  let s ← sendCommand hw layout 0xAD#8 fuel s
  let s ← sendCommand hw layout 0xD0#8 fuel s
  let s ← receiveData hw layout fuel s
  let s ← sendCommand hw layout 0xD1#8 fuel s
  let s ← sendData hw layout fuel s
  let s ← sendCommand hw layout 0xAE#8 fuel s
  let s ← callWaitCommand hw layout fuel s
  return A20KeyboardCheck hw layout s

/-- `mov ax, 0x2401` and `int 0x15` -/
def askBios (s : Board κ) : Board κ :=
  let (ax, chipset) := hw.int15 0x2401#16 s.chipset
  { s with ax := ax, chipset := chipset }

def tryUsingBIOS (fuel : Nat) (s : Board κ) : Except (Board κ) (Bool × Board κ) :=
  let s := callTestA20 hw layout (askBios hw s)
  if s.ax = 1#16 then .ok (true, s) else tryUsingKeyboardController hw layout fuel s

/-- The result tells whether `A20Enabled` is reached, or else `A20Error`. -/
def EnableA20Gate (fuel : Nat) (s : Board κ) : Except (Board κ) (Bool × Board κ) :=
  let s := callTestA20 hw layout s
  if s.ax = 1#16 then .ok (true, s) else tryUsingBIOS hw layout fuel s

/-! ## The second stage -/

/-- `int 13h` with AH = 2: the sectors go to `es:bx`. -/
def readSectors (s : Board κ) : Bool × Board κ :=
  let reply := hw.int13 ⟨low s.ax, high s.cx, low s.cx, high s.dx, low s.dx⟩ s.chipset
  let buffer := physical (line hw s) s.es s.bx
  (reply.carry,
    { s with
      ax := reply.ax
      chipset := reply.chipset
      memory := fun a =>
        if buffer ≤ a ∧ a < buffer + 512 * (low s.ax).toNat then
          (reply.data (a - buffer)).getD (s.memory a)
        else s.memory a })

inductive Outcome where
  | secondStage
  | reboot (message : String)
deriving DecidableEq

def A20_error_msg : String :=
  "An Internal error occured. Press any key to reboot. Code: 0x02"

def disk_read_error_msg : String :=
  "Error Reading disk. Press any key to reboot. Code : 0x01"

/-- `mov dl, [bootdev]` -/
def loadBootdev (s : Board κ) : Board κ :=
  { s with dx := setLow s.dx (load (line hw s) s.ds layout.bootdev s.toMachine) }

/-- The registers of the request. -/
def requestSectors (s : Board κ) : Board κ :=
  let s := { s with toMachine := push (line hw s) s.es s.toMachine }
  let s := { s with ax := 0x7E0#16 }
  let s := { s with es := s.ax }
  let s := { s with dx := setHigh s.dx 0x00#8 }
  let s := { s with ax := setHigh s.ax 0x02#8 }
  let s := { s with ax := setLow s.ax 0x02#8 }
  let s := { s with cx := setHigh s.cx 0x00#8 }
  let s := { s with cx := setLow s.cx 0x02#8 }
  let s := loadBootdev hw layout s
  { s with bx := 0#16 }

/-- `pop es`, `mov dl, [bootdev]` and the far jump. -/
def load_success (s : Board κ) : Board κ :=
  let (es, machine) := pop (line hw s) s.toMachine
  let s := loadBootdev hw layout { s with toMachine := { machine with es } }
  { s with cs := 0x07E0#16, ip := 0x0000#16 }

def LoadSecondStage (s : Board κ) : Outcome × Board κ :=
  let read := readSectors hw (requestSectors hw layout s)
  if read.1 then (.reboot disk_read_error_msg, read.2)
  else (.secondStage, load_success hw layout read.2)

/-- The whole sector; an error prints its message, awaits a key and reboots, and the
registers do not matter any more. -/
def bootSector (fuel : Nat) (s : Board κ) : Except (Board κ) (Outcome × Board κ) := do
  let (enabled, s) ← EnableA20Gate hw layout fuel (start hw layout s)
  if enabled then return LoadSecondStage hw layout s
  else return (.reboot A20_error_msg, s)

end Program

end Os88.Loader.BootSector
