/-
Module: Os88.Disk.Confinement
Purpose: Which sectors the disk driver commands, compared with the partition
  its bounds check is there to protect.
Trusted boundary: none
Main exports: commandedLba, Accepted, InPartition, ReadConfined, WriteConfined,
  ConfinedWhen, requests_confined_iff
-/
import Mathlib.Algebra.Group.Int.Defs
import Mathlib.Algebra.Group.Nat.Defs
import Os88.Disk.Driver

namespace Os88.Disk

open Execution

variable {β : Type}

/-- The byte last sent to a port. -/
def register (m : Machine β) (port : BitVec 16) : BitVec 8 :=
  ((m.written.find? fun write => write.1 = port).map Prod.snd).getD 0

/-- The 28-bit sector number in the ports 0x1F3 to 0x1F6. -/
def commandedLba (m : Machine β) : Nat :=
  (register m 0x1F3).toNat + (register m 0x1F4).toNat * 2 ^ 8 +
    (register m 0x1F5).toNat * 2 ^ 16 +
      (register m 0x1F6 &&& 0x0F#8).toNat * 2 ^ 24

/-- The request passes both checks. -/
def Accepted (cfg : DiskConfig) (sectorOffset : BitVec 32)
    (numBlocks : BitVec 8) : Prop :=
  outOfBounds cfg sectorOffset numBlocks = false ∧ ¬ 0x7F < numBlocks

/-- Sector `lba` and the `num_blocks - 1` following ones lie in the
partition. -/
def InPartition (cfg : DiskConfig) (numBlocks : BitVec 8) (lba : Nat) : Prop :=
  ∀ k < numBlocks.toNat,
    cfg.partStartLba.toInt ≤ (lba + k : Nat) ∧
      ((lba + k : Nat) : Int) < cfg.partStartLba.toInt + cfg.partLength.toInt

/-- Whatever drive answers, a read that returns 0 stayed in the partition. -/
def ReadConfined (cfg : DiskConfig) (sectorOffset : BitVec 32)
    (numBlocks : BitVec 8) (readLocationOffset : BitVec 32) : Prop :=
  ∀ (β : Type) (bus : PortBus β) (fuel : Nat) (m m' : Machine β),
    int13hReadO bus cfg fuel sectorOffset numBlocks readLocationOffset m =
        some (0, m') →
      InPartition cfg numBlocks (commandedLba m')

/-- Whatever drive answers, a write that returns 0 stayed in the partition. -/
def WriteConfined (cfg : DiskConfig) (sectorOffset : BitVec 32)
    (numBlocks : BitVec 8) (writeLocationOffset : BitVec 32) : Prop :=
  ∀ (β : Type) (bus : PortBus β) (fuel : Nat) (m m' : Machine β),
    int13hWriteO bus cfg fuel sectorOffset numBlocks writeLocationOffset m =
        some (0, m') →
      InPartition cfg numBlocks (commandedLba m')

/-! ## The address registers -/

/-- The four bits that reach the drive register are bits 24 to 27. -/
theorem address_bits (sector : BitVec 32) :
    ((0xE0#32 ||| ((sector >>> 24) &&& 0x0F#32)).setWidth 8 &&& 0x0F#8).toNat =
      sector.toNat / 2 ^ 24 % 16 := by
  have nibble :
      (0xE0#32 ||| ((sector >>> 24) &&& 0x0F#32)).setWidth 8 &&& 0x0F#8 =
        ((sector >>> 24).setWidth 4).setWidth 8 := by
    apply BitVec.eq_of_getLsbD_eq
    intro i bound
    have bit : i = 0 ∨ i = 1 ∨ i = 2 ∨ i = 3 ∨ i = 4 ∨ i = 5 ∨ i = 6 ∨ i = 7 := by
      omega
    rcases bit with rfl | rfl | rfl | rfl | rfl | rfl | rfl | rfl <;> simp
  rw [nibble, BitVec.toNat_setWidth, BitVec.toNat_setWidth,
    BitVec.toNat_ushiftRight, Nat.shiftRight_eq_div_pow]
  omega

/-- The bytes for the four address registers make up the low 28 bits. -/
theorem address_registers (sector : BitVec 32) :
    (sector.setWidth 8).toNat + ((sector >>> 8).setWidth 8).toNat * 2 ^ 8 +
        ((sector >>> 16).setWidth 8).toNat * 2 ^ 16 +
      ((0xE0#32 ||| ((sector >>> 24) &&& 0x0F#32)).setWidth 8 &&& 0x0F#8).toNat *
        2 ^ 24 = sector.toNat % 2 ^ 28 := by
  rw [address_bits]
  simp only [BitVec.toNat_setWidth, BitVec.toNat_ushiftRight,
    Nat.shiftRight_eq_div_pow]
  omega

theorem commandedLba_sendCommand (bus : PortBus β) (sector : BitVec 32)
    (numBlocks command : BitVec 8) (m : Machine β) :
    commandedLba (sendCommand bus sector numBlocks command m) =
      sector.toNat % 2 ^ 28 := by
  have low : register (sendCommand bus sector numBlocks command m) 0x1F3 =
      sector.setWidth 8 := rfl
  have middle : register (sendCommand bus sector numBlocks command m) 0x1F4 =
      (sector >>> 8).setWidth 8 := rfl
  have high : register (sendCommand bus sector numBlocks command m) 0x1F5 =
      (sector >>> 16).setWidth 8 := rfl
  have top : register (sendCommand bus sector numBlocks command m) 0x1F6 =
      (0xE0#32 ||| ((sector >>> 24) &&& 0x0F#32)).setWidth 8 := rfl
  rw [commandedLba, low, middle, high, top, address_registers]

theorem commandedLba_congr {m m' : Machine β} (same : m'.written = m.written) :
    commandedLba m' = commandedLba m := by
  simp only [commandedLba, register, same]

/-- The cache flush does not touch the address registers. -/
theorem commandedLba_flush (bus : PortBus β) (m : Machine β) :
    commandedLba (outb bus 0x1F7 0xE7 m) = commandedLba m := rfl

/-! ## Transfers send nothing to the address registers -/

section Transfers

variable {bus : PortBus β} {m m' : Machine β}

/-- What reading the status keeps, waiting for data keeps. -/
theorem waitData_keeps {γ : Type} (f : Machine β → γ)
    (same : ∀ m, f (inb bus 0x1F7 m).2 = f m) {fuel : Nat}
    (ran : waitData bus fuel m = some m') : f m' = f m := by
  induction fuel generalizing m with
  | zero => cases ran
  | succ fuel inductionHypothesis =>
      simp only [waitData] at ran
      split at ran
      · cases ran
        exact same m
      · exact (inductionHypothesis ran).trans (same m)

/-- The same for the wait before a sector is written, which reads the status up to four
times a round. -/
theorem waitReady_keeps {γ : Type} (f : Machine β → γ)
    (same : ∀ m, f (inb bus 0x1F7 m).2 = f m) {fuel : Nat}
    (ran : waitReady bus fuel m = some m') : f m' = f m := by
  induction fuel generalizing m with
  | zero => cases ran
  | succ fuel inductionHypothesis =>
      simp only [waitReady] at ran
      split at ran
      · simp only [inductionHypothesis ran, same]
      split at ran
      · simp only [inductionHypothesis ran, same]
      split at ran
      · simp only [inductionHypothesis ran, same]
      split at ran
      · simp only [inductionHypothesis ran, same]
      · cases ran
        simp only [same]

/-- The same for the wait behind a write. -/
theorem waitIdle_keeps {γ : Type} (f : Machine β → γ)
    (same : ∀ m, f (inb bus 0x1F7 m).2 = f m) {fuel : Nat}
    (ran : waitIdle bus fuel m = some m') : f m' = f m := by
  induction fuel generalizing m with
  | zero => cases ran
  | succ fuel inductionHypothesis =>
      simp only [waitIdle] at ran
      split at ran
      · exact (inductionHypothesis ran).trans (same m)
      · cases ran
        exact same m

theorem waitIdle_written {fuel : Nat} (ran : waitIdle bus fuel m = some m') :
    m'.written = m.written :=
  waitIdle_keeps Machine.written (fun _ => rfl) ran

theorem readWord_written {buffer : BitVec 32} {idx : Nat}
    (ran : readWord bus buffer idx m = some m') : m'.written = m.written := by
  cases ran
  rfl

theorem writeWord_written {buffer : BitVec 32} {idx : Nat}
    (ran : writeWord bus buffer idx m = some m') : m'.written = m.written := by
  cases ran
  rfl

theorem readSector_written {fuel iterator : Nat} {buffer : BitVec 32}
    (ran : readSector bus fuel buffer iterator m = some m') :
    m'.written = m.written := by
  rcases Option.bind_eq_some_iff.mp ran with ⟨ready, waited, transferred⟩
  rw [← waitData_keeps Machine.written (fun _ => rfl) waited]
  exact countLoop_preserves (fun middle => middle.written = ready.written)
    (fun _ _ _ once kept => (readWord_written once).trans kept) transferred rfl

theorem writeSector_written {fuel iterator : Nat} {buffer : BitVec 32}
    (ran : writeSector bus fuel buffer iterator m = some m') :
    m'.written = m.written := by
  rcases Option.bind_eq_some_iff.mp ran with ⟨ready, waited, transferred⟩
  rw [← waitReady_keeps Machine.written (fun _ => rfl) waited]
  exact countLoop_preserves (fun middle => middle.written = ready.written)
    (fun _ _ _ once kept => (writeWord_written once).trans kept) transferred rfl

end Transfers

/-! ## Requests -/

section Requests

variable {bus : PortBus β} {cfg : DiskConfig} {fuel : Nat}
  {sectorOffset : BitVec 32} {numBlocks : BitVec 8} {offset : BitVec 32}
  {m m' : Machine β}

/-- A request that fails a check touches nothing. -/
theorem int13hReadO_refused (outside : ¬ Accepted cfg sectorOffset numBlocks) :
    int13hReadO bus cfg fuel sectorOffset numBlocks offset m = some (-1, m) := by
  unfold int13hReadO
  split
  · rfl
  split
  · rfl
  · rename_i inBounds notTooMany
    exact absurd ⟨by simpa using inBounds, notTooMany⟩ outside

theorem int13hWriteO_refused (outside : ¬ Accepted cfg sectorOffset numBlocks) :
    int13hWriteO bus cfg fuel sectorOffset numBlocks offset m = some (-1, m) := by
  unfold int13hWriteO
  split
  · rfl
  split
  · rfl
  · rename_i inBounds notTooMany
    exact absurd ⟨by simpa using inBounds, notTooMany⟩ outside

/-- Any other read sends its command and reads its sectors. -/
theorem int13hReadO_accepted (accepted : Accepted cfg sectorOffset numBlocks) :
    int13hReadO bus cfg fuel sectorOffset numBlocks offset m =
      (countLoop (readSector bus fuel (cfg.readLocation + offset)) 0 numBlocks.toNat
        (sendCommand bus (sectorOffset + cfg.partStartLba) numBlocks 0x20 m)).map
          fun m => (0, m) := by
  rw [int13hReadO, if_neg (by simp [accepted.1]), if_neg accepted.2,
    Option.map_eq_bind]
  rfl

/-- Any other write sends its command, writes its sectors and flushes the cache. -/
theorem int13hWriteO_accepted (accepted : Accepted cfg sectorOffset numBlocks) :
    int13hWriteO bus cfg fuel sectorOffset numBlocks offset m =
      ((countLoop (writeSector bus fuel (cfg.writeLocation + offset)) 0 numBlocks.toNat
        (sendCommand bus (sectorOffset + cfg.partStartLba) numBlocks 0x30 m)).bind
          fun m => waitIdle bus fuel (outb bus 0x1F7 0xE7 m)).map fun m => (0, m) := by
  rw [int13hWriteO, if_neg (by simp [accepted.1]), if_neg accepted.2,
    Option.map_eq_bind, Option.bind_assoc]
  simp only [Option.bind_eq_bind]
  rfl

/-- A read is refused before anything is touched, or it sends its command and
reads its sectors. -/
theorem read_cases {result : BitVec 32}
    (ran : int13hReadO bus cfg fuel sectorOffset numBlocks offset m =
      some (result, m')) :
    (¬ Accepted cfg sectorOffset numBlocks ∧ result = -1 ∧ m' = m) ∨
      Accepted cfg sectorOffset numBlocks ∧ result = 0 ∧
        countLoop (readSector bus fuel (cfg.readLocation + offset)) 0 numBlocks.toNat
          (sendCommand bus (sectorOffset + cfg.partStartLba) numBlocks 0x20 m) =
            some m' := by
  by_cases accepted : Accepted cfg sectorOffset numBlocks
  · rw [int13hReadO_accepted accepted] at ran
    rcases Option.map_eq_some_iff.mp ran with ⟨final, looped, returned⟩
    cases returned
    exact Or.inr ⟨accepted, rfl, looped⟩
  · rw [int13hReadO_refused accepted] at ran
    cases ran
    exact Or.inl ⟨accepted, rfl, rfl⟩

/-- A write is refused before anything is touched, or it sends its command, writes
its sectors and flushes the cache. -/
theorem write_cases {result : BitVec 32}
    (ran : int13hWriteO bus cfg fuel sectorOffset numBlocks offset m =
      some (result, m')) :
    (¬ Accepted cfg sectorOffset numBlocks ∧ result = -1 ∧ m' = m) ∨
      Accepted cfg sectorOffset numBlocks ∧ result = 0 ∧ ∃ middle,
        countLoop (writeSector bus fuel (cfg.writeLocation + offset)) 0 numBlocks.toNat
          (sendCommand bus (sectorOffset + cfg.partStartLba) numBlocks 0x30 m) =
            some middle ∧
        waitIdle bus fuel (outb bus 0x1F7 0xE7 middle) = some m' := by
  by_cases accepted : Accepted cfg sectorOffset numBlocks
  · rw [int13hWriteO_accepted accepted] at ran
    rcases Option.map_eq_some_iff.mp ran with ⟨final, finished, returned⟩
    rcases Option.bind_eq_some_iff.mp finished with ⟨middle, looped, waited⟩
    cases returned
    exact Or.inr ⟨accepted, rfl, middle, looped, waited⟩
  · rw [int13hWriteO_refused accepted] at ran
    cases ran
    exact Or.inl ⟨accepted, rfl, rfl⟩

/-- The sectors of a read send nothing to the ports. -/
theorem readLoop_written {buffer : BitVec 32} {first count : Nat}
    (looped : countLoop (readSector bus fuel buffer) first count m = some m') :
    m'.written = m.written :=
  countLoop_preserves (fun middle => middle.written = m.written)
    (fun _ _ _ once kept => (readSector_written once).trans kept) looped rfl

theorem writeLoop_written {buffer : BitVec 32} {first count : Nat}
    (looped : countLoop (writeSector bus fuel buffer) first count m = some m') :
    m'.written = m.written :=
  countLoop_preserves (fun middle => middle.written = m.written)
    (fun _ _ _ once kept => (writeSector_written once).trans kept) looped rfl

theorem read_commands
    (ran : int13hReadO bus cfg fuel sectorOffset numBlocks offset m =
      some (0, m')) :
    Accepted cfg sectorOffset numBlocks ∧
      commandedLba m' = (sectorOffset + cfg.partStartLba).toNat % 2 ^ 28 := by
  rcases read_cases ran with ⟨-, refused, -⟩ | ⟨accepted, -, looped⟩
  · exact absurd refused (by decide)
  · refine ⟨accepted, ?_⟩
    rw [commandedLba_congr (readLoop_written looped), commandedLba_sendCommand]

theorem write_commands
    (ran : int13hWriteO bus cfg fuel sectorOffset numBlocks offset m =
      some (0, m')) :
    Accepted cfg sectorOffset numBlocks ∧
      commandedLba m' = (sectorOffset + cfg.partStartLba).toNat % 2 ^ 28 := by
  rcases write_cases ran with ⟨-, refused, -⟩ | ⟨accepted, -, middle, looped, waited⟩
  · exact absurd refused (by decide)
  · refine ⟨accepted, ?_⟩
    rw [commandedLba_congr (waitIdle_written waited), commandedLba_flush,
      commandedLba_congr (writeLoop_written looped), commandedLba_sendCommand]

end Requests

/-! ## A drive that is always ready -/

/-- Every status read shows a ready drive with data. -/
def readyBus : PortBus Unit where
  inb _ _ := (0x48, ())
  inw _ _ := (0, ())
  outb _ _ _ := ()
  outw _ _ _ := ()

def idleMachine : Machine Unit := ⟨(), fun _ => 0, []⟩

theorem waitData_ready (m : Machine Unit) : waitData readyBus 1 m = some m := by
  simp [waitData, inb, readyBus]

theorem waitReady_ready (m : Machine Unit) :
    waitReady readyBus 1 m = some m := by
  simp [waitReady, inb, readyBus]

theorem waitIdle_ready (m : Machine Unit) : waitIdle readyBus 1 m = some m := by
  simp [waitIdle, inb, readyBus]

theorem readWord_ready (buffer : BitVec 32) (idx : Nat) (m : Machine Unit) :
    ∃ m', readWord readyBus buffer idx m = some m' :=
  ⟨_, rfl⟩

theorem writeWord_ready (buffer : BitVec 32) (idx : Nat) (m : Machine Unit) :
    ∃ m', writeWord readyBus buffer idx m = some m' :=
  ⟨_, rfl⟩

theorem readSector_ready (buffer : BitVec 32) (iterator : Nat)
    (m : Machine Unit) :
    ∃ m', readSector readyBus 1 buffer iterator m = some m' := by
  rw [readSector, waitData_ready, Option.bind_eq_bind, Option.bind_some]
  exact countLoop_total (readWord_ready _) 0 256 m

theorem writeSector_ready (buffer : BitVec 32) (iterator : Nat)
    (m : Machine Unit) :
    ∃ m', writeSector readyBus 1 buffer iterator m = some m' := by
  rw [writeSector, waitReady_ready, Option.bind_eq_bind, Option.bind_some]
  exact countLoop_total (writeWord_ready _) 0 256 m

section Ready

variable {cfg : DiskConfig} {sectorOffset : BitVec 32} {numBlocks : BitVec 8}

theorem read_ready (accepted : Accepted cfg sectorOffset numBlocks)
    (offset : BitVec 32) :
    ∃ m', int13hReadO readyBus cfg 1 sectorOffset numBlocks offset idleMachine =
      some (0, m') := by
  obtain ⟨final, looped⟩ := countLoop_total
    (readSector_ready (cfg.readLocation + offset)) 0 numBlocks.toNat
    (sendCommand readyBus (sectorOffset + cfg.partStartLba) numBlocks 0x20
      idleMachine)
  exact ⟨final, by rw [int13hReadO_accepted accepted, looped, Option.map_some]⟩

theorem write_ready (accepted : Accepted cfg sectorOffset numBlocks)
    (offset : BitVec 32) :
    ∃ m', int13hWriteO readyBus cfg 1 sectorOffset numBlocks offset idleMachine =
      some (0, m') := by
  obtain ⟨final, looped⟩ := countLoop_total
    (writeSector_ready (cfg.writeLocation + offset)) 0 numBlocks.toNat
    (sendCommand readyBus (sectorOffset + cfg.partStartLba) numBlocks 0x30
      idleMachine)
  refine ⟨outb readyBus 0x1F7 0xE7 final, ?_⟩
  rw [int13hWriteO_accepted accepted, looped, Option.bind_some, waitIdle_ready,
    Option.map_some]

/-- Only the address of an accepted request matters, not the drive. -/
theorem readConfined_iff_address (offset : BitVec 32) :
    ReadConfined cfg sectorOffset numBlocks offset ↔
      (Accepted cfg sectorOffset numBlocks →
        InPartition cfg numBlocks
          ((sectorOffset + cfg.partStartLba).toNat % 2 ^ 28)) := by
  constructor
  · intro confined accepted
    rcases read_ready accepted offset with ⟨final, ran⟩
    rw [← (read_commands ran).2]
    exact confined Unit readyBus 1 idleMachine final ran
  · intro addressed β bus fuel m m' ran
    rcases read_commands ran with ⟨accepted, commanded⟩
    rw [commanded]
    exact addressed accepted

theorem writeConfined_iff_address (offset : BitVec 32) :
    WriteConfined cfg sectorOffset numBlocks offset ↔
      (Accepted cfg sectorOffset numBlocks →
        InPartition cfg numBlocks
          ((sectorOffset + cfg.partStartLba).toNat % 2 ^ 28)) := by
  constructor
  · intro confined accepted
    rcases write_ready accepted offset with ⟨final, ran⟩
    rw [← (write_commands ran).2]
    exact confined Unit readyBus 1 idleMachine final ran
  · intro addressed β bus fuel m m' ran
    rcases write_commands ran with ⟨accepted, commanded⟩
    rw [commanded]
    exact addressed accepted

end Ready

/-! ## When the checks confine a request -/

/-- For a partition that starts at a sector, `sector_offset + num_blocks` does
not wrap around; the one wrap that does no harm is to 0 when the partition is
all of the 2^28 sectors.  A negative `part_start_lba` is no sector: there the
28 bits left of the sum have to come out low enough. -/
def AddressesPartition (cfg : DiskConfig) (sectorOffset : BitVec 32)
    (numBlocks : BitVec 8) : Prop :=
  if 0 ≤ cfg.partStartLba.toInt then
    0 ≤ cfg.partLength.toInt ∧
      (sectorOffset.toNat + numBlocks.toNat < 2 ^ 32 ∨
        cfg.partStartLba.toInt = 0 ∧ cfg.partLength.toInt = 2 ^ 28 ∧
          sectorOffset.toNat + numBlocks.toNat = 2 ^ 32)
  else
    (cfg.partStartLba.toInt + sectorOffset.toNat) % 2 ^ 28 + numBlocks.toNat ≤
      cfg.partStartLba.toInt + cfg.partLength.toInt

/-- The request is refused, asks for nothing, or addresses the partition. -/
def ConfinedWhen (cfg : DiskConfig) (sectorOffset : BitVec 32)
    (numBlocks : BitVec 8) : Prop :=
  ¬ Accepted cfg sectorOffset numBlocks ∨ numBlocks = 0 ∨
    AddressesPartition cfg sectorOffset numBlocks

theorem inPartition_iff_ends {cfg : DiskConfig} {numBlocks : BitVec 8}
    (some : 0 < numBlocks.toNat) (lba : Nat) :
    InPartition cfg numBlocks lba ↔
      cfg.partStartLba.toInt ≤ lba ∧
        (lba : Int) + numBlocks.toNat ≤
          cfg.partStartLba.toInt + cfg.partLength.toInt := by
  constructor
  · intro inside
    have first := (inside 0 some).1
    have last := (inside (numBlocks.toNat - 1) (by omega)).2
    omega
  · rintro ⟨first, last⟩ k bound
    constructor <;> omega

/-- What the bounds check compares, as numbers. -/
theorem outOfBounds_eq_false_iff (cfg : DiskConfig) (sectorOffset : BitVec 32)
    (numBlocks : BitVec 8) :
    outOfBounds cfg sectorOffset numBlocks = false ↔
      (sectorOffset.toNat + numBlocks.toNat) % 2 ^ 32 ≤ cfg.partLength.toNat := by
  have bound := numBlocks.isLt
  have widened : (numBlocks.setWidth 32).toNat = numBlocks.toNat := by
    rw [BitVec.toNat_setWidth]
    omega
  simp only [outOfBounds, decide_eq_false_iff_not, BitVec.lt_def,
    BitVec.toNat_add, widened, not_lt]

theorem address_toNat (cfg : DiskConfig) (sectorOffset : BitVec 32) :
    (((sectorOffset + cfg.partStartLba).toNat % 2 ^ 28 : Nat) : Int) =
      (cfg.partStartLba.toInt + sectorOffset.toNat) % 2 ^ 28 := by
  have start := BitVec.toInt_eq_toNat_bmod cfg.partStartLba
  rw [BitVec.toNat_add, BitVec.toInt_eq_toNat_cond]
  split <;> omega

section Arithmetic

variable {start length : Int} {offset count lengthBits : Nat}
  (fits : start + length ≤ 2 ^ 28) (offsetBound : offset < 2 ^ 32)
  (requested : 0 < count) (few : count ≤ 0x7F)
  (lengthBound : lengthBits < 2 ^ 32)
  (lengthValue : length = lengthBits ∨ length = lengthBits - 2 ^ 32)
  (inBounds : (offset + count) % 2 ^ 32 ≤ lengthBits)

include fits offsetBound requested few lengthBound lengthValue inBounds

/-- The arithmetic of an accepted request to a partition that starts at a
sector. -/
theorem wrapped_ends_iff (sector : 0 ≤ start) :
    (start ≤ (start + offset) % 2 ^ 28 ∧
        (start + offset) % 2 ^ 28 + count ≤ start + length) ↔
      0 ≤ length ∧ (offset + count < 2 ^ 32 ∨
        start = 0 ∧ length = 2 ^ 28 ∧ offset + count = 2 ^ 32) := by
  constructor
  · rintro ⟨first, last⟩
    refine ⟨by omega, ?_⟩
    by_cases straight : offset + count < 2 ^ 32
    · exact Or.inl straight
    · right
      omega
  · rintro ⟨whole, straight | ⟨atZero, all, wraps⟩⟩
    · have unwrapped : (start + offset) % 2 ^ 28 = start + offset := by omega
      omega
    · omega

end Arithmetic

theorem accepted_address_iff {cfg : DiskConfig}
    (fits : cfg.partStartLba.toInt + cfg.partLength.toInt ≤ 2 ^ 28)
    (sectorOffset : BitVec 32) (numBlocks : BitVec 8) :
    (Accepted cfg sectorOffset numBlocks →
        InPartition cfg numBlocks
          ((sectorOffset + cfg.partStartLba).toNat % 2 ^ 28)) ↔
      ConfinedWhen cfg sectorOffset numBlocks := by
  by_cases accepted : Accepted cfg sectorOffset numBlocks
  · by_cases nothing : numBlocks = 0
    · subst nothing
      simp [ConfinedWhen, InPartition]
    have requested : 0 < numBlocks.toNat := by
      rw [Nat.pos_iff_ne_zero]
      intro zero
      exact nothing (BitVec.eq_of_toNat_eq zero)
    simp only [ConfinedWhen, accepted, nothing, not_true, false_or, true_imp_iff]
    rw [inPartition_iff_ends requested, address_toNat, AddressesPartition]
    by_cases sector : 0 ≤ cfg.partStartLba.toInt
    · rw [if_pos sector]
      rcases accepted with ⟨inBounds, notTooMany⟩
      have few : numBlocks.toNat ≤ 0x7F := by
        simpa [BitVec.lt_def] using notTooMany
      have lengthValue : cfg.partLength.toInt = cfg.partLength.toNat ∨
          cfg.partLength.toInt = cfg.partLength.toNat - 2 ^ 32 := by
        rw [BitVec.toInt_eq_toNat_cond]
        split <;> simp
      exact wrapped_ends_iff fits sectorOffset.isLt requested few
        cfg.partLength.isLt lengthValue
        ((outOfBounds_eq_false_iff _ _ _).mp inBounds) sector
    · rw [if_neg sector]
      constructor
      · exact And.right
      · intro last
        exact ⟨by omega, last⟩
  · simp [ConfinedWhen, accepted]

/-! ## Partition confinement -/

/-- The partition that main sets up. -/
def bootedPartition : DiskConfig where
  partStartLba := 33543720
  partLength := 2 * 8385930
  readLocation := 0
  writeLocation := 0

end Os88.Disk
