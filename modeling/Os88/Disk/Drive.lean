/-
Module: Os88.Disk.Drive
Purpose: A drive behind the ports of the disk driver: an array of sectors that
  serves LBA28 requests word by word and keeps the driver waiting in between.
Trusted boundary: this is what the driver expects of a drive, not code of the
  repository.
Main exports: Drive, driveBus, waitData_drive, waitReady_drive, waitIdle_drive,
  sendCommand_starts
-/
import Os88.Library.ByteMemory
import Os88.Disk.Confinement

namespace Os88.Disk

open ByteMemory
open Execution

/-! ## The drive -/

/-- What the last command has left to transfer: `left` words from the byte
`pos` of the disk on. -/
inductive Transfer where
  | none
  | toHost (pos left : Nat)
  | toDisk (pos left : Nat)
deriving DecidableEq, Repr

/-- Sector `n` is the bytes from `512 * n` to `512 * n + 511` of `disk`.  `busy`
counts the status reads that still find the drive busy, `delays` the times it
has become so. -/
structure Drive where
  disk : Memory
  sectorCount : BitVec 8
  lbaLow : BitVec 8
  lbaMid : BitVec 8
  lbaHigh : BitVec 8
  device : BitVec 8
  transfer : Transfer
  busy : Nat
  delays : Nat

namespace Drive

def left (d : Drive) : Nat :=
  match d.transfer with
  | .none => 0
  | .toHost _ left => left
  | .toDisk _ left => left

/-- The 28-bit sector number. -/
def lba (d : Drive) : Nat :=
  d.lbaLow.toNat + d.lbaMid.toNat * 2 ^ 8 + d.lbaHigh.toNat * 2 ^ 16 +
    (d.device &&& 0x0F#8).toNat * 2 ^ 24

/-- The words of a request; a sector count of 0 stands for 256 sectors. -/
def words (d : Drive) : Nat :=
  256 * if d.sectorCount = 0 then 256 else d.sectorCount.toNat

/-- Busy, or ready and, with words left, requesting data. -/
def status (d : Drive) : BitVec 8 × Drive :=
  if d.busy ≠ 0 then (0x80, { d with busy := d.busy - 1 })
  else if d.left = 0 then (0x40, d)
  else (0x48, d)

section Delays

variable (latency : Nat → Nat)

/-- Become busy; how long is up to the drive. -/
def pause (d : Drive) : Drive :=
  { d with busy := latency d.delays, delays := d.delays + 1 }

/-- At the end of a sector the drive pauses. -/
def wordDone (left : Nat) (d : Drive) : Drive :=
  if left % 256 = 0 then d.pause latency else d

def dataIn (d : Drive) : BitVec 16 × Drive :=
  match d.transfer with
  | .toHost pos (left + 1) =>
      if d.busy = 0 then
        (load16 d.disk pos,
          wordDone latency left { d with transfer := .toHost (pos + 2) left })
      else (0xFFFF, d)
  | _ => (0xFFFF, d)

def dataOut (value : BitVec 16) (d : Drive) : Drive :=
  match d.transfer with
  | .toDisk pos (left + 1) =>
      if d.busy = 0 then
        wordDone latency left
          { d with
            disk := ByteMemory.store16 d.disk pos value
            transfer := .toDisk (pos + 2) left }
      else d
  | _ => d

/-- Read sectors, write sectors, flush the cache. -/
def command (code : BitVec 8) (d : Drive) : Drive :=
  if code = 0x20 then
    pause latency { d with transfer := .toHost (512 * d.lba) d.words }
  else if code = 0x30 then
    pause latency { d with transfer := .toDisk (512 * d.lba) d.words }
  else if code = 0xE7 then pause latency { d with transfer := .none }
  else d

def outb (port : BitVec 16) (value : BitVec 8) (d : Drive) : Drive :=
  if port = 0x1F2 then { d with sectorCount := value }
  else if port = 0x1F3 then { d with lbaLow := value }
  else if port = 0x1F4 then { d with lbaMid := value }
  else if port = 0x1F5 then { d with lbaHigh := value }
  else if port = 0x1F6 then { d with device := value }
  else if port = 0x1F7 then command latency value d
  else d

end Delays

end Drive

/-- The ports of the drive; the others are open. -/
def driveBus (latency : Nat → Nat) : PortBus Drive where
  inb port d := if port = 0x1F7 then d.status else (0xFF, d)
  inw port d := if port = 0x1F0 then d.dataIn latency else (0xFFFF, d)
  outb := Drive.outb latency
  outw port value d := if port = 0x1F0 then d.dataOut latency value else d

/-! ## Waiting -/

section Waiting

variable {latency : Nat → Nat} {m : Machine Drive}

/-- The machine when the drive's delay is over. -/
def Machine.rested (m : Machine Drive) : Machine Drive :=
  { m with bus := { m.bus with busy := 0 } }

/-- ... and one status read earlier. -/
def Machine.ticked (m : Machine Drive) : Machine Drive :=
  { m with bus := { m.bus with busy := m.bus.busy - 1 } }

theorem rested_ticked (m : Machine Drive) : m.ticked.rested = m.rested := rfl

theorem rested_of_busy (rested : m.bus.busy = 0) : m.rested = m := by
  rw [Machine.rested, ← rested]

theorem inb_busy (busy : m.bus.busy ≠ 0) :
    inb (driveBus latency) 0x1F7 m = (0x80, m.ticked) := by
  simp [inb, driveBus, Drive.status, busy, Machine.ticked]

theorem inb_done (rested : m.bus.busy = 0) (done : m.bus.left = 0) :
    inb (driveBus latency) 0x1F7 m = (0x40, m) := by
  simp [inb, driveBus, Drive.status, rested, done]

theorem inb_requesting (rested : m.bus.busy = 0) (more : m.bus.left ≠ 0) :
    inb (driveBus latency) 0x1F7 m = (0x48, m) := by
  simp [inb, driveBus, Drive.status, rested, more]

/-- The read loop waits for the data of a drive that has some. -/
theorem waitData_drive {fuel : Nat} (patient : m.bus.busy < fuel)
    (more : m.bus.left ≠ 0) :
    waitData (driveBus latency) fuel m = some m.rested := by
  induction fuel generalizing m with
  | zero => omega
  | succ fuel inductionHypothesis =>
      by_cases rested : m.bus.busy = 0
      · rw [waitData, inb_requesting rested more, rested_of_busy rested]
        rfl
      · have shorter : m.ticked.bus.busy < fuel := by
          show m.bus.busy - 1 < fuel
          omega
        rw [waitData, inb_busy rested, ← rested_ticked]
        exact inductionHypothesis shorter more

/-- The write loop waits until the drive accepts data. -/
theorem waitReady_drive {fuel : Nat} (patient : m.bus.busy < fuel)
    (more : m.bus.left ≠ 0) :
    waitReady (driveBus latency) fuel m = some m.rested := by
  induction fuel generalizing m with
  | zero => omega
  | succ fuel inductionHypothesis =>
      by_cases rested : m.bus.busy = 0
      · simp only [waitReady, inb_requesting rested more, rested_of_busy rested]
        rfl
      · by_cases once : m.ticked.bus.busy = 0
        · simp only [waitReady, inb_busy rested, inb_requesting once more]
          rw [← rested_ticked, rested_of_busy once]
          rfl
        · have shorter : m.ticked.ticked.bus.busy < fuel := by
            show m.bus.busy - 1 - 1 < fuel
            omega
          simp only [waitReady, inb_busy rested, inb_busy once]
          exact inductionHypothesis shorter more

/-- The end of a write waits until the drive is no longer busy. -/
theorem waitIdle_drive {fuel : Nat} (patient : m.bus.busy < fuel) :
    waitIdle (driveBus latency) fuel m = some m.rested := by
  induction fuel generalizing m with
  | zero => omega
  | succ fuel inductionHypothesis =>
      by_cases rested : m.bus.busy = 0
      · by_cases done : m.bus.left = 0
        · rw [waitIdle, inb_done rested done, rested_of_busy rested]
          rfl
        · rw [waitIdle, inb_requesting rested done, rested_of_busy rested]
          rfl
      · have shorter : m.ticked.bus.busy < fuel := by
          show m.bus.busy - 1 < fuel
          omega
        rw [waitIdle, inb_busy rested, ← rested_ticked]
        exact inductionHypothesis shorter

end Waiting

/-! ## Commands -/

section Commands

variable (latency : Nat → Nat) (sector : BitVec 32) (m : Machine Drive)

theorem sendCommand_drive (numBlocks code : BitVec 8) :
    (sendCommand (driveBus latency) sector numBlocks code m).ram = m.ram ∧
      (sendCommand (driveBus latency) sector numBlocks code m).bus =
        Drive.command latency code
          { m.bus with
            sectorCount := numBlocks
            lbaLow := sector.setWidth 8
            lbaMid := (sector >>> 8).setWidth 8
            lbaHigh := (sector >>> 16).setWidth 8
            device := (0xE0#32 ||| ((sector >>> 24) &&& 0x0F#32)).setWidth 8 } :=
  ⟨rfl, rfl⟩

/-- The transfer that a command starts, in bytes and words. -/
theorem Drive.words_eq {d : Drive} (some : 1 ≤ d.sectorCount.toNat) :
    d.words = 256 * d.sectorCount.toNat := by
  have nonzero : d.sectorCount ≠ 0 := by
    intro zero
    rw [zero] at some
    exact absurd some (by decide)
  rw [Drive.words, if_neg nonzero]

/-- A command that starts the transfer `start` finds the drive with the sector
number and the words of the request. -/
theorem sendCommand_starts {numBlocks : BitVec 8} (code : BitVec 8)
    (start : Nat → Nat → Transfer)
    (starts : ∀ d, Drive.command latency code d =
      Drive.pause latency { d with transfer := start (512 * d.lba) d.words })
    (some : 1 ≤ numBlocks.toNat) :
    ∃ m', sendCommand (driveBus latency) sector numBlocks code m = m' ∧
      m'.ram = m.ram ∧ m'.bus.disk = m.bus.disk ∧
      m'.bus.transfer =
        start (512 * (sector.toNat % 2 ^ 28)) (256 * numBlocks.toNat) ∧
      m'.bus.busy = latency m.bus.delays ∧ m'.bus.delays = m.bus.delays + 1 := by
  rcases sendCommand_drive latency sector m numBlocks code with ⟨ram, bus⟩
  refine ⟨_, rfl, ram, ?_⟩
  rw [bus, starts]
  refine ⟨rfl, ?_, rfl, rfl⟩
  rw [← address_registers, ← Drive.words_eq (d := { m.bus with sectorCount := numBlocks })
    some]
  rfl

end Commands

end Os88.Disk
