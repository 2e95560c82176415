/-
Module: Os88.Disk.Driver
Purpose: The LBA28 disk driver of kernel_main.c: int13h_read_o and
  int13h_write_o over the ports of the drive and the memory of the machine.
Trusted boundary: what is behind the ports is a parameter, and so are the two
  buffer addresses, whose macros lie outside the repository.
Main exports: PortBus, Machine, DiskConfig, int13hReadO, int13hWriteO
-/
import Os88.Library.Execution

namespace Os88.Disk

open Execution

/-- What answers on the ports, with a state of its own. -/
structure PortBus (β : Type) where
  inb : BitVec 16 → β → BitVec 8 × β
  inw : BitVec 16 → β → BitVec 16 × β
  outb : BitVec 16 → BitVec 8 → β → β
  outw : BitVec 16 → BitVec 16 → β → β

/-- `part_start_lba` and `part_length`, both of type `int`, and the addresses
DISK_READ_LOCATION and DISK_WRITE_LOCATION. -/
structure DiskConfig where
  partStartLba : BitVec 32
  partLength : BitVec 32
  readLocation : BitVec 32
  writeLocation : BitVec 32

/-- `written` lists the bytes sent to ports, the latest first. -/
structure Machine (β : Type) where
  bus : β
  ram : BitVec 32 → BitVec 8
  written : List (BitVec 16 × BitVec 8)

section Ports

variable {β : Type} (bus : PortBus β)

def inb (port : BitVec 16) (m : Machine β) : BitVec 8 × Machine β :=
  let (value, state) := bus.inb port m.bus
  (value, { m with bus := state })

def inw (port : BitVec 16) (m : Machine β) : BitVec 16 × Machine β :=
  let (value, state) := bus.inw port m.bus
  (value, { m with bus := state })

def outb (port : BitVec 16) (value : BitVec 8) (m : Machine β) : Machine β :=
  { m with bus := bus.outb port value m.bus, written := (port, value) :: m.written }

def outw (port : BitVec 16) (value : BitVec 16) (m : Machine β) : Machine β :=
  { m with bus := bus.outw port value m.bus }

end Ports

/-- Read an `unsigned short`. -/
def Machine.load16 {β : Type} (m : Machine β) (address : BitVec 32) : BitVec 16 :=
  m.ram (address + 1) ++ m.ram address

/-- Store an `unsigned short`. -/
def Machine.store16 {β : Type} (m : Machine β) (address : BitVec 32)
    (value : BitVec 16) : Machine β :=
  { m with ram := fun a =>
      if a = address then value.extractLsb' 0 8
      else if a = address + 1 then value.extractLsb' 8 8
      else m.ram a }

section Driver

variable {β : Type} (bus : PortBus β)

/-- `while (!(inb(0x1F7) & 0x08)) {}`, given up after `fuel` reads. -/
def waitData : Nat → Machine β → Option (Machine β)
  | 0, _ => none
  | fuel + 1, m =>
      let (status, m) := inb bus 0x1F7 m
      if status &&& 0x08 ≠ 0 then some m else waitData fuel m

/-- The endless loop of int13h_write_o that waits for the drive, given up after
`fuel` rounds.  Every test reads the status anew. -/
def waitReady : Nat → Machine β → Option (Machine β)
  | 0, _ => none
  | fuel + 1, m =>
      let (status, m) := inb bus 0x1F7 m
      if status &&& 0x01 = 0x01 then waitReady fuel m
      else
        let (status, m) := inb bus 0x1F7 m
        if status &&& 0x40 ≠ 0x40 then waitReady fuel m
        else
          let (status, m) := inb bus 0x1F7 m
          if status &&& 0x80 = 0x80 then waitReady fuel m
          else
            let (status, m) := inb bus 0x1F7 m
            if status &&& 0x08 ≠ 0x08 then waitReady fuel m else some m

/-- `while (inb(0x1F7) & 0x80) {}`, given up after `fuel` reads. -/
def waitIdle : Nat → Machine β → Option (Machine β)
  | 0, _ => none
  | fuel + 1, m =>
      let (status, m) := inb bus 0x1F7 m
      if status &&& 0x80 ≠ 0 then waitIdle fuel m else some m

/-- Send the LBA and the command to the drive. -/
def sendCommand (sector : BitVec 32) (numBlocks command : BitVec 8)
    (m : Machine β) : Machine β :=
  let m := outb bus 0x1F1 0 m
  let m := outb bus 0x1F2 numBlocks m
  let m := outb bus 0x1F3 (sector.setWidth 8) m
  let m := outb bus 0x1F4 ((sector >>> 8).setWidth 8) m
  let m := outb bus 0x1F5 ((sector >>> 16).setWidth 8) m
  let m := outb bus 0x1F6 ((0xE0#32 ||| ((sector >>> 24) &&& 0x0F#32)).setWidth 8) m
  outb bus 0x1F7 command m

/-- `buffer[idx] = inw(0x1F0)` -/
def readWord (buffer : BitVec 32) (idx : Nat) (m : Machine β) :
    Option (Machine β) :=
  let (value, m) := inw bus 0x1F0 m
  some (m.store16 (buffer + BitVec.ofNat 32 (2 * idx)) value)

/-- One sector of the read loop. -/
def readSector (fuel : Nat) (buffer : BitVec 32) (iterator : Nat)
    (m : Machine β) : Option (Machine β) := do
  let m ← waitData bus fuel m
  countLoop (readWord bus (buffer + BitVec.ofNat 32 (512 * iterator))) 0 256 m

/-- `outw(0x1F0, buffer[idx])` and the short delay. -/
def writeWord (buffer : BitVec 32) (idx : Nat) (m : Machine β) :
    Option (Machine β) :=
  let m := outw bus 0x1F0 (m.load16 (buffer + BitVec.ofNat 32 (2 * idx))) m
  let (_, m) := inb bus 0x323 m
  let (_, m) := inb bus 0x323 m
  let (_, m) := inb bus 0x323 m
  some m

/-- One sector of the write loop. -/
def writeSector (fuel : Nat) (buffer : BitVec 32) (iterator : Nat)
    (m : Machine β) : Option (Machine β) := do
  let m ← waitReady bus fuel m
  countLoop (writeWord bus (buffer + BitVec.ofNat 32 (512 * iterator))) 0 256 m

/-- `sector_offset + num_blocks > part_length`, in `unsigned long`. -/
def outOfBounds (cfg : DiskConfig) (sectorOffset : BitVec 32)
    (numBlocks : BitVec 8) : Bool :=
  cfg.partLength < sectorOffset + numBlocks.setWidth 32

/-- The result is the `int` returned and the machine afterwards, or `none` if
the driver still waits for the drive. -/
def int13hReadO (cfg : DiskConfig) (fuel : Nat) (sectorOffset : BitVec 32)
    (numBlocks : BitVec 8) (readLocationOffset : BitVec 32) (m : Machine β) :
    Option (BitVec 32 × Machine β) :=
  if outOfBounds cfg sectorOffset numBlocks then some (-1, m)
  else if 0x7F < numBlocks then some (-1, m)
  else do
    let sector := sectorOffset + cfg.partStartLba
    let m := sendCommand bus sector numBlocks 0x20 m
    let buffer := cfg.readLocation + readLocationOffset
    let m ← countLoop (readSector bus fuel buffer) 0 numBlocks.toNat m
    return (0, m)

def int13hWriteO (cfg : DiskConfig) (fuel : Nat) (sectorOffset : BitVec 32)
    (numBlocks : BitVec 8) (writeLocationOffset : BitVec 32) (m : Machine β) :
    Option (BitVec 32 × Machine β) :=
  if outOfBounds cfg sectorOffset numBlocks then some (-1, m)
  else if 0x7F < numBlocks then some (-1, m)
  else do
    let sector := sectorOffset + cfg.partStartLba
    let m := sendCommand bus sector numBlocks 0x30 m
    let buffer := cfg.writeLocation + writeLocationOffset
    let m ← countLoop (writeSector bus fuel buffer) 0 numBlocks.toNat m
    let m := outb bus 0x1F7 0xE7 m
    let m ← waitIdle bus fuel m
    return (0, m)

end Driver

end Os88.Disk
