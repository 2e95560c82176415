/-
Module: Os88.Disk.RoundTrip
Purpose: What the disk driver writes to a drive and reads back from it.
Trusted boundary: none beyond Os88.Disk.Drive
Main exports: written, loaded, WriteAt, ReadAt, int13hWriteO_drive,
  int13hReadO_drive, write_then_read
-/
import Os88.Disk.Drive
import Os88.Library.Waiting

namespace Os88.Disk

open ByteMemory
open Execution

/-! ## The bytes that have been transferred -/

/-- The disk with `n` bytes of the memory from `base` on written to it, from
byte `start` on. -/
def written (ram : BitVec 32 → BitVec 8) (base : BitVec 32) (start n : Nat)
    (disk : Memory) : Memory :=
  fun a => if start ≤ a ∧ a < start + n then ram (base + BitVec.ofNat 32 (a - start))
    else disk a

/-- The memory with `n` bytes of the disk from `start` on read into it, from
`base` on. -/
def loaded (disk : Memory) (start : Nat) (base : BitVec 32) (n : Nat)
    (ram : BitVec 32 → BitVec 8) : BitVec 32 → BitVec 8 :=
  fun a => if (a - base).toNat < n then disk (start + (a - base).toNat) else ram a

section Bytes

variable (ram : BitVec 32 → BitVec 8) (base : BitVec 32) (start n : Nat)
  (disk : Memory)

theorem written_zero : written ram base start 0 disk = disk := by
  funext a
  exact if_neg (by omega)

theorem loaded_zero : loaded disk start base 0 ram = ram := by
  funext a
  exact if_neg (Nat.not_lt_zero _)

theorem written_inside {i : Nat} (inside : i < n) :
    written ram base start n disk (start + i) = ram (base + BitVec.ofNat 32 i) := by
  rw [written, if_pos (by omega), Nat.add_sub_cancel_left]

theorem written_changed :
    ChangedWithin start (start + n) disk (written ram base start n disk) :=
  fun _ outside => if_neg (by omega)

/-- An address is an offset from `base`. -/
theorem eq_offset_iff {a : BitVec 32} {k : Nat} (small : k < 2 ^ 32) :
    a = base + BitVec.ofNat 32 k ↔ (a - base).toNat = k := by
  have aBound := a.isLt
  have baseBound := base.isLt
  rw [← BitVec.toNat_inj, BitVec.toNat_add, BitVec.toNat_sub, BitVec.toNat_ofNat]
  omega

theorem loaded_inside {i : Nat} (inside : i < n) (small : n ≤ 2 ^ 32) :
    loaded disk start base n ram (base + BitVec.ofNat 32 i) = disk (start + i) := by
  have offset : (base + BitVec.ofNat 32 i - base).toNat = i :=
    (eq_offset_iff base (by omega)).mp rfl
  rw [loaded, offset, if_pos inside]

theorem loaded_outside {a : BitVec 32}
    (outside : ∀ i < n, a ≠ base + BitVec.ofNat 32 i) :
    loaded disk start base n ram a = ram a := by
  apply if_neg
  intro inside
  exact outside _ inside ((eq_offset_iff base (a - base).isLt).mpr rfl)

/-- The second byte of a word. -/
theorem offset_succ (base : BitVec 32) (i : Nat) :
    base + BitVec.ofNat 32 i + 1 = base + BitVec.ofNat 32 (i + 1) := by
  rw [BitVec.ofNat_add, BitVec.add_assoc]
  rfl

/-- Sending one more word to the drive. -/
theorem written_word {m : Machine Drive} (memory : m.ram = ram) (i : Nat) :
    ByteMemory.store16 (written ram base start (2 * i) disk) (start + 2 * i)
        (m.load16 (base + BitVec.ofNat 32 (2 * i))) =
      written ram base start (2 * (i + 1)) disk := by
  rw [Machine.load16, memory, offset_succ, ByteMemory.store16, BitVec.extractLsb'_append_eq_right,
    BitVec.extractLsb'_append_eq_left]
  funext a
  by_cases low : a = start + 2 * i
  · subst low
    rw [store8_of_ne _ (by omega), store8_self,
      written_inside ram base start _ disk (by omega)]
  · by_cases high : a = start + 2 * i + 1
    · subst high
      rw [store8_self, Nat.add_assoc, written_inside ram base start _ disk (by omega)]
    · rw [store8_of_ne _ high, store8_of_ne _ low]
      have same : (start ≤ a ∧ a < start + 2 * i) ↔
          (start ≤ a ∧ a < start + 2 * (i + 1)) := by omega
      simp only [written, same]

/-- Reading one more word into the memory. -/
theorem loaded_word {m : Machine Drive} {i : Nat} (small : 2 * (i + 1) ≤ 2 ^ 32)
    (memory : m.ram = loaded disk start base (2 * i) ram) :
    (m.store16 (base + BitVec.ofNat 32 (2 * i)) (load16 disk (start + 2 * i))).ram =
      loaded disk start base (2 * (i + 1)) ram := by
  funext a
  rw [Machine.store16, offset_succ, load16, BitVec.extractLsb'_append_eq_right,
    BitVec.extractLsb'_append_eq_left]
  simp only [eq_offset_iff base (show 2 * i < 2 ^ 32 by omega),
    eq_offset_iff base (show 2 * i + 1 < 2 ^ 32 by omega), memory, loaded]
  by_cases low : (a - base).toNat = 2 * i
  · rw [if_pos low, if_pos (by omega), low]
  · rw [if_neg low]
    by_cases high : (a - base).toNat = 2 * i + 1
    · rw [if_pos high, if_pos (by omega), high, Nat.add_assoc]
    · rw [if_neg high]
      have same : (a - base).toNat < 2 * i ↔ (a - base).toNat < 2 * (i + 1) := by
        omega
      simp only [same]

end Bytes

/-! ## The pace of the drive -/

/-- After `i` words of whole sectors the drive has paused for the command, whose
delay is number `first`, and for every sector that is done. -/
structure Paced (fuel first i : Nat) (d : Drive) : Prop where
  patient : d.busy < fuel
  delays : d.delays = first + 1 + i / 256

section Pace

variable {latency : Nat → Nat} {fuel first i left : Nat} {d : Drive}

@[simp] theorem wordDone_disk : (d.wordDone latency left).disk = d.disk := by
  unfold Drive.wordDone
  split <;> rfl

@[simp] theorem wordDone_transfer :
    (d.wordDone latency left).transfer = d.transfer := by
  unfold Drive.wordDone
  split <;> rfl

/-- One more word; the drive stays ready until the end of the sector. -/
theorem Paced.wordDone (paced : Paced fuel first i d) (rested : d.busy = 0)
    (patient : latency (first + 1 + i / 256) < fuel)
    (sectors : (left + (i + 1)) % 256 = 0) :
    Paced fuel first (i + 1) (d.wordDone latency left) ∧
      ((i + 1) % 256 ≠ 0 → (d.wordDone latency left).busy = 0) := by
  have delays := paced.delays
  unfold Drive.wordDone
  split
  · refine ⟨⟨?_, ?_⟩, ?_⟩
    · show latency d.delays < fuel
      rwa [delays]
    · show d.delays + 1 = _
      omega
    · intro inside
      omega
  · refine ⟨⟨paced.patient, ?_⟩, fun _ => rested⟩
    omega

end Pace

/-! ## Writing -/

/-- The machine after `i` of `total` words have gone to the drive. -/
structure WriteAt (fuel first start total : Nat) (base : BitVec 32)
    (before : Machine Drive) (i : Nat) (m : Machine Drive) : Prop where
  ram : m.ram = before.ram
  disk : m.bus.disk = written before.ram base start (2 * i) before.bus.disk
  transfer : m.bus.transfer = .toDisk (start + 2 * i) (total - i)
  paced : Paced fuel first i m.bus

section Writing

variable {latency : Nat → Nat} {fuel first start blocks : Nat} {base : BitVec 32}
  {before m : Machine Drive}

theorem writeWord_spec {i idx : Nat} {buffer : BitVec 32}
    (address : buffer + BitVec.ofNat 32 (2 * idx) = base + BitVec.ofNat 32 (2 * i))
    (more : i < 256 * blocks) (patient : latency (first + 1 + i / 256) < fuel)
    (writes : WriteAt fuel first start (256 * blocks) base before i m)
    (rested : m.bus.busy = 0) :
    ∃ m', writeWord (driveBus latency) buffer idx m = some m' ∧
      WriteAt fuel first start (256 * blocks) base before (i + 1) m' ∧
      ((i + 1) % 256 ≠ 0 → m'.bus.busy = 0) := by
  have left : 256 * blocks - i = (256 * blocks - (i + 1)) + 1 := by omega
  have transfer := writes.transfer
  rw [left] at transfer
  have stored := written_word before.ram base start before.bus.disk writes.ram i
  rw [← writes.disk] at stored
  have sent : m.bus.dataOut latency (m.load16 (base + BitVec.ofNat 32 (2 * i))) =
      Drive.wordDone latency (256 * blocks - (i + 1))
        { m.bus with
          disk := written before.ram base start (2 * (i + 1)) before.bus.disk
          transfer := .toDisk (start + 2 * i + 2) (256 * blocks - (i + 1)) } := by
    simp only [Drive.dataOut, transfer, rested, stored, if_true]
  refine ⟨{ m with bus := m.bus.dataOut latency _ }, by rw [writeWord, address]; rfl, ?_⟩
  rw [sent]
  obtain ⟨paced, rested'⟩ := Paced.wordDone (d :=
      { m.bus with
        disk := written before.ram base start (2 * (i + 1)) before.bus.disk
        transfer := .toDisk (start + 2 * i + 2) (256 * blocks - (i + 1)) })
    ⟨writes.paced.patient, writes.paced.delays⟩ rested patient
    (show (256 * blocks - (i + 1) + (i + 1)) % 256 = 0 by omega)
  exact ⟨⟨writes.ram, wordDone_disk, wordDone_transfer, paced⟩, rested'⟩

/-- The words of sector `k` are addressed from the start of the buffer. -/
theorem word_address (base : BitVec 32) (k idx : Nat) :
    base + BitVec.ofNat 32 (512 * k) + BitVec.ofNat 32 (2 * idx) =
      base + BitVec.ofNat 32 (2 * (256 * k + idx)) := by
  rw [BitVec.add_assoc, ← BitVec.ofNat_add]
  congr 2
  omega

theorem writeSector_spec {k : Nat} (more : k < blocks)
    (patient : ∀ n ≤ blocks + 1, latency (first + n) < fuel)
    (writes : WriteAt fuel first start (256 * blocks) base before (256 * k) m) :
    ∃ m', writeSector (driveBus latency) fuel base k m = some m' ∧
      WriteAt fuel first start (256 * blocks) base before (256 * (k + 1)) m' := by
  have words : m.bus.left ≠ 0 := by
    rw [Drive.left, writes.transfer]
    show 256 * blocks - 256 * k ≠ 0
    omega
  have waited : waitReady (driveBus latency) fuel m = some m.rested :=
    waitReady_drive writes.paced.patient words
  have positive : 0 < fuel := Nat.lt_of_le_of_lt (Nat.zero_le _) writes.paced.patient
  have sector : ∃ m', countLoop
        (writeWord (driveBus latency) (base + BitVec.ofNat 32 (512 * k))) 0 256 m.rested =
          some m' ∧
      WriteAt fuel first start (256 * blocks) base before (256 * k + (0 + 256)) m' ∧
        (0 + 256 < 256 → m'.bus.busy = 0) := by
    apply countLoop_rule (fun idx m =>
      WriteAt fuel first start (256 * blocks) base before (256 * k + idx) m ∧
        (idx < 256 → m.bus.busy = 0))
    · exact ⟨⟨writes.ram, writes.disk, writes.transfer,
        ⟨positive, writes.paced.delays⟩⟩, fun _ => rfl⟩
    · rintro idx m - upper ⟨writes, rested⟩
      have number : (256 * k + idx) / 256 = k := by omega
      have delay : latency (first + 1 + (256 * k + idx) / 256) < fuel := by
        rw [number, Nat.add_assoc]
        exact patient _ (by omega)
      obtain ⟨m', sent, next, rested'⟩ := writeWord_spec (word_address base k idx)
        (by omega) delay writes (rested (by omega))
      exact ⟨m', sent, next, fun inside => rested' (by omega)⟩
  rcases sector with ⟨m', looped, reached, -⟩
  refine ⟨m', ?_, reached⟩
  rw [writeSector, waited, Option.bind_eq_bind, Option.bind_some, looped]

/-- All sectors of a request are written. -/
theorem writeLoop_spec (patient : ∀ n ≤ blocks + 1, latency (first + n) < fuel)
    (writes : WriteAt fuel first start (256 * blocks) base before 0 m) :
    ∃ m', countLoop (writeSector (driveBus latency) fuel base) 0 blocks m = some m' ∧
      WriteAt fuel first start (256 * blocks) base before (256 * blocks) m' := by
  have run : ∃ m', countLoop (writeSector (driveBus latency) fuel base) 0 blocks m =
        some m' ∧
      WriteAt fuel first start (256 * blocks) base before (256 * (0 + blocks)) m' := by
    apply countLoop_rule
      (fun k m => WriteAt fuel first start (256 * blocks) base before (256 * k) m) writes
    intro k m _ upper writes
    exact writeSector_spec (by omega) patient writes
  rwa [Nat.zero_add] at run

end Writing

/-! ## Reading -/

/-- The machine after `i` of `total` words have come from the drive. -/
structure ReadAt (fuel first start total : Nat) (base : BitVec 32)
    (before : Machine Drive) (i : Nat) (m : Machine Drive) : Prop where
  ram : m.ram = loaded before.bus.disk start base (2 * i) before.ram
  disk : m.bus.disk = before.bus.disk
  transfer : m.bus.transfer = .toHost (start + 2 * i) (total - i)
  paced : Paced fuel first i m.bus

section Reading

variable {latency : Nat → Nat} {fuel first start blocks : Nat} {base : BitVec 32}
  {before m : Machine Drive}

theorem readWord_spec {i idx : Nat} {buffer : BitVec 32}
    (address : buffer + BitVec.ofNat 32 (2 * idx) = base + BitVec.ofNat 32 (2 * i))
    (more : i < 256 * blocks) (small : 512 * blocks ≤ 2 ^ 32)
    (patient : latency (first + 1 + i / 256) < fuel)
    (reads : ReadAt fuel first start (256 * blocks) base before i m)
    (rested : m.bus.busy = 0) :
    ∃ m', readWord (driveBus latency) buffer idx m = some m' ∧
      ReadAt fuel first start (256 * blocks) base before (i + 1) m' ∧
      ((i + 1) % 256 ≠ 0 → m'.bus.busy = 0) := by
  have left : 256 * blocks - i = (256 * blocks - (i + 1)) + 1 := by omega
  have transfer := reads.transfer
  rw [left] at transfer
  have received : m.bus.dataIn latency =
      (load16 before.bus.disk (start + 2 * i),
        Drive.wordDone latency (256 * blocks - (i + 1))
          { m.bus with
            transfer := .toHost (start + 2 * i + 2) (256 * blocks - (i + 1)) }) := by
    simp only [Drive.dataIn, transfer, rested, reads.disk, if_true]
  obtain ⟨paced, rested'⟩ := Paced.wordDone (d :=
      { m.bus with
        transfer := .toHost (start + 2 * i + 2) (256 * blocks - (i + 1)) })
    ⟨reads.paced.patient, reads.paced.delays⟩ rested patient
    (show (256 * blocks - (i + 1) + (i + 1)) % 256 = 0 by omega)
  have ran : readWord (driveBus latency) buffer idx m =
      some (Machine.store16 { m with bus := (m.bus.dataIn latency).2 }
        (base + BitVec.ofNat 32 (2 * i)) (m.bus.dataIn latency).1) := by
    rw [readWord, ← address]
    rfl
  rw [received] at ran
  have stored := loaded_word before.ram base start before.bus.disk
    (m := { m with bus := _ }) (i := i) (by omega) reads.ram
  exact ⟨_, ran, ⟨stored, wordDone_disk.trans reads.disk, wordDone_transfer, paced⟩,
    rested'⟩

theorem readSector_spec {k : Nat} (more : k < blocks) (small : 512 * blocks ≤ 2 ^ 32)
    (patient : ∀ n ≤ blocks, latency (first + n) < fuel)
    (reads : ReadAt fuel first start (256 * blocks) base before (256 * k) m) :
    ∃ m', readSector (driveBus latency) fuel base k m = some m' ∧
      ReadAt fuel first start (256 * blocks) base before (256 * (k + 1)) m' := by
  have words : m.bus.left ≠ 0 := by
    rw [Drive.left, reads.transfer]
    show 256 * blocks - 256 * k ≠ 0
    omega
  have waited : waitData (driveBus latency) fuel m = some m.rested :=
    waitData_drive reads.paced.patient words
  have positive : 0 < fuel := Nat.lt_of_le_of_lt (Nat.zero_le _) reads.paced.patient
  have sector : ∃ m', countLoop
        (readWord (driveBus latency) (base + BitVec.ofNat 32 (512 * k))) 0 256 m.rested =
          some m' ∧
      ReadAt fuel first start (256 * blocks) base before (256 * k + (0 + 256)) m' ∧
        (0 + 256 < 256 → m'.bus.busy = 0) := by
    apply countLoop_rule (fun idx m =>
      ReadAt fuel first start (256 * blocks) base before (256 * k + idx) m ∧
        (idx < 256 → m.bus.busy = 0))
    · exact ⟨⟨reads.ram, reads.disk, reads.transfer,
        ⟨positive, reads.paced.delays⟩⟩, fun _ => rfl⟩
    · rintro idx m - upper ⟨reads, rested⟩
      have number : (256 * k + idx) / 256 = k := by omega
      have delay : latency (first + 1 + (256 * k + idx) / 256) < fuel := by
        rw [number, Nat.add_assoc]
        exact patient _ (by omega)
      obtain ⟨m', received, next, rested'⟩ := readWord_spec (word_address base k idx)
        (by omega) small delay reads (rested (by omega))
      exact ⟨m', received, next, fun inside => rested' (by omega)⟩
  rcases sector with ⟨m', looped, reached, -⟩
  refine ⟨m', ?_, reached⟩
  rw [readSector, waited, Option.bind_eq_bind, Option.bind_some, looped]

/-- All sectors of a request are read. -/
theorem readLoop_spec (small : 512 * blocks ≤ 2 ^ 32)
    (patient : ∀ n ≤ blocks, latency (first + n) < fuel)
    (reads : ReadAt fuel first start (256 * blocks) base before 0 m) :
    ∃ m', countLoop (readSector (driveBus latency) fuel base) 0 blocks m = some m' ∧
      ReadAt fuel first start (256 * blocks) base before (256 * blocks) m' := by
  have run : ∃ m', countLoop (readSector (driveBus latency) fuel base) 0 blocks m =
        some m' ∧
      ReadAt fuel first start (256 * blocks) base before (256 * (0 + blocks)) m' := by
    apply countLoop_rule
      (fun k m => ReadAt fuel first start (256 * blocks) base before (256 * k) m) reads
    intro k m _ upper reads
    exact readSector_spec (by omega) small patient reads
  rwa [Nat.zero_add] at run

end Reading

/-! ## Requests -/

/-- The first sector of a request, a number of 28 bits. -/
def firstSector (cfg : DiskConfig) (sectorOffset : BitVec 32) : Nat :=
  ((cfg.partStartLba.toInt + sectorOffset.toNat) % 2 ^ 28).toNat

/-- The request lies in the partition, and the partition on a disk of 2^28
sectors. -/
structure OnDisk (cfg : DiskConfig) (sectorOffset : BitVec 32)
    (numBlocks : BitVec 8) : Prop where
  some : 1 ≤ numBlocks.toNat
  few : numBlocks.toNat ≤ 0x7F
  inside : (sectorOffset.toNat + numBlocks.toNat : Int) ≤ cfg.partLength.toInt
  fits : cfg.partStartLba.toInt + cfg.partLength.toInt ≤ 2 ^ 28

section Requests

variable {latency : Nat → Nat} {fuel : Nat} {cfg : DiskConfig}
  {sectorOffset : BitVec 32} {numBlocks : BitVec 8}

theorem OnDisk.accepted (onDisk : OnDisk cfg sectorOffset numBlocks) :
    Accepted cfg sectorOffset numBlocks := by
  rcases onDisk with ⟨-, few, inside, -⟩
  have length : cfg.partLength.toInt = cfg.partLength.toNat := by
    rw [BitVec.toInt_eq_toNat_cond] at inside ⊢
    have bound := cfg.partLength.isLt
    split at inside <;> omega
  constructor
  · rw [outOfBounds_eq_false_iff]
    have bound := cfg.partLength.isLt
    omega
  · rw [BitVec.lt_def]
    exact Nat.not_lt.mpr few

/-- Every sector number that is not negative is the drive's own. -/
theorem OnDisk.firstSector_eq (onDisk : OnDisk cfg sectorOffset numBlocks)
    (sector : 0 ≤ cfg.partStartLba.toInt + sectorOffset.toNat) :
    (firstSector cfg sectorOffset : Int) =
      cfg.partStartLba.toInt + sectorOffset.toNat := by
  rcases onDisk with ⟨some, -, inside, fits⟩
  rw [firstSector]
  omega

/-- The drive gets the number of the first sector. -/
theorem address_firstSector (cfg : DiskConfig) (sectorOffset : BitVec 32) :
    (sectorOffset + cfg.partStartLba).toNat % 2 ^ 28 =
      firstSector cfg sectorOffset := by
  have address := address_toNat cfg sectorOffset
  rw [firstSector]
  omega

/-- A write request: the return value, and all that it changes. -/
theorem int13hWriteO_drive (accepted : Accepted cfg sectorOffset numBlocks)
    (nonempty : 1 ≤ numBlocks.toNat) (offset : BitVec 32) (m : Machine Drive)
    (patient : ∀ n ≤ numBlocks.toNat + 1, latency (m.bus.delays + n) < fuel) :
    ∃ m', int13hWriteO (driveBus latency) cfg fuel sectorOffset numBlocks offset m =
        some (0, m') ∧
      m'.ram = m.ram ∧
      m'.bus.disk = written m.ram (cfg.writeLocation + offset)
        (512 * firstSector cfg sectorOffset) (512 * numBlocks.toNat) m.bus.disk ∧
      m'.bus.delays = m.bus.delays + numBlocks.toNat + 2 ∧ m'.bus.left = 0 := by
  obtain ⟨sent, command, ram, disk, transfer, busy, delays⟩ :=
    sendCommand_starts latency (sectorOffset + cfg.partStartLba) m
      0x30 .toDisk (fun _ => rfl) nonempty
  rw [address_firstSector] at transfer
  have start : WriteAt fuel m.bus.delays (512 * firstSector cfg sectorOffset)
      (256 * numBlocks.toNat) (cfg.writeLocation + offset) m 0 sent := by
    refine ⟨ram, ?_, transfer, ?_, delays⟩
    · rw [disk]
      exact (written_zero _ _ _ _).symm
    · rw [busy]
      exact patient 0 (Nat.zero_le _)
  rcases writeLoop_spec patient start with ⟨transferred, looped, writes⟩
  have pause : transferred.bus.delays = m.bus.delays + (numBlocks.toNat + 1) := by
    have paused := writes.paced.delays
    omega
  have flush : (outb (driveBus latency) 0x1F7 0xE7 transferred).bus.busy < fuel := by
    show latency transferred.bus.delays < fuel
    rw [pause]
    exact patient _ (Nat.le_refl _)
  refine ⟨(outb (driveBus latency) 0x1F7 0xE7 transferred).rested, ?_, writes.ram, ?_, ?_,
    rfl⟩
  · rw [int13hWriteO_accepted accepted, command, looped, Option.bind_some,
      waitIdle_drive flush, Option.map_some]
  · show transferred.bus.disk = _
    rw [writes.disk, ← Nat.mul_assoc]
  · show transferred.bus.delays + 1 = _
    omega

/-- A read request receives all its words. -/
theorem int13hReadO_readAt (accepted : Accepted cfg sectorOffset numBlocks)
    (nonempty : 1 ≤ numBlocks.toNat) (offset : BitVec 32) (m : Machine Drive)
    (patient : ∀ n ≤ numBlocks.toNat, latency (m.bus.delays + n) < fuel) :
    ∃ m', int13hReadO (driveBus latency) cfg fuel sectorOffset numBlocks offset m =
        some (0, m') ∧
      ReadAt fuel m.bus.delays (512 * firstSector cfg sectorOffset)
        (256 * numBlocks.toNat) (cfg.readLocation + offset) m (256 * numBlocks.toNat) m' := by
  have few := numBlocks.isLt
  obtain ⟨sent, command, ram, disk, transfer, busy, delays⟩ :=
    sendCommand_starts latency (sectorOffset + cfg.partStartLba) m
      0x20 .toHost (fun _ => rfl) nonempty
  rw [address_firstSector] at transfer
  have start : ReadAt fuel m.bus.delays (512 * firstSector cfg sectorOffset)
      (256 * numBlocks.toNat) (cfg.readLocation + offset) m 0 sent := by
    refine ⟨?_, disk, transfer, ?_, delays⟩
    · rw [ram]
      exact (loaded_zero _ _ _ _).symm
    · rw [busy]
      exact patient 0 (Nat.zero_le _)
  rcases readLoop_spec (by omega) patient start with ⟨m', looped, reads⟩
  refine ⟨m', ?_, reads⟩
  rw [int13hReadO_accepted accepted, command, looped, Option.map_some]

/-- A read request: the return value, and all that it changes. -/
theorem int13hReadO_drive (accepted : Accepted cfg sectorOffset numBlocks)
    (nonempty : 1 ≤ numBlocks.toNat) (offset : BitVec 32) (m : Machine Drive)
    (patient : ∀ n ≤ numBlocks.toNat, latency (m.bus.delays + n) < fuel) :
    ∃ m', int13hReadO (driveBus latency) cfg fuel sectorOffset numBlocks offset m =
        some (0, m') ∧
      m'.bus.disk = m.bus.disk ∧
      m'.ram = loaded m.bus.disk (512 * firstSector cfg sectorOffset)
        (cfg.readLocation + offset) (512 * numBlocks.toNat) m.ram ∧
      m'.bus.left = 0 := by
  rcases int13hReadO_readAt accepted nonempty offset m patient with ⟨m', ran, reads⟩
  refine ⟨m', ran, reads.disk, ?_, ?_⟩
  · rw [reads.ram, ← Nat.mul_assoc]
  · rw [Drive.left, reads.transfer]
    exact Nat.sub_self _

end Requests

/-! ## The round trip -/

theorem exists_patience (latency : Nat → Nat) (first count : Nat) :
    ∃ enough, ∀ n < count, latency (first + n) < enough :=
  Waiting.exists_bound latency first count

/-- Data written to the partition is read back.  The first sector of the request
is `part_start_lba + sector_offset`.  With patience enough for the
drive's delays, the write returns 0 and puts the bytes of the write area into
the sectors of the request and nowhere else, and the read that follows returns 0
and puts those bytes into the read area and nowhere else. -/
theorem write_then_read (latency : Nat → Nat) {cfg : DiskConfig}
    {sectorOffset : BitVec 32} {numBlocks : BitVec 8}
    (onDisk : OnDisk cfg sectorOffset numBlocks)
    (writeLocationOffset readLocationOffset : BitVec 32) (m : Machine Drive) :
    (0 ≤ cfg.partStartLba.toInt + sectorOffset.toNat →
      (firstSector cfg sectorOffset : Int) =
        cfg.partStartLba.toInt + sectorOffset.toNat) ∧
    ∃ enough, ∀ fuel, enough ≤ fuel → ∃ m1 m2,
      int13hWriteO (driveBus latency) cfg fuel sectorOffset numBlocks
          writeLocationOffset m = some (0, m1) ∧
      int13hReadO (driveBus latency) cfg fuel sectorOffset numBlocks
          readLocationOffset m1 = some (0, m2) ∧
      m1.ram = m.ram ∧
      (∀ i < 512 * numBlocks.toNat,
        m1.bus.disk (512 * firstSector cfg sectorOffset + i) =
          m.ram (cfg.writeLocation + writeLocationOffset + BitVec.ofNat 32 i)) ∧
      ChangedWithin (512 * firstSector cfg sectorOffset)
        (512 * (firstSector cfg sectorOffset + numBlocks.toNat))
        m.bus.disk m1.bus.disk ∧
      m2.bus.disk = m1.bus.disk ∧
      (∀ i < 512 * numBlocks.toNat,
        m2.ram (cfg.readLocation + readLocationOffset + BitVec.ofNat 32 i) =
          m.ram (cfg.writeLocation + writeLocationOffset + BitVec.ofNat 32 i)) ∧
      ∀ a, (∀ i < 512 * numBlocks.toNat,
          a ≠ cfg.readLocation + readLocationOffset + BitVec.ofNat 32 i) →
        m2.ram a = m.ram a := by
  have few := onDisk.few
  obtain ⟨enough, patient⟩ :=
    exists_patience latency m.bus.delays (2 * numBlocks.toNat + 3)
  refine ⟨onDisk.firstSector_eq, enough, ?_⟩
  intro fuel much
  have patientWrite :
      ∀ n ≤ numBlocks.toNat + 1, latency (m.bus.delays + n) < fuel := by
    intro n small
    exact Nat.lt_of_lt_of_le (patient n (by omega)) much
  obtain ⟨m1, wrote, ram, disk, delays, -⟩ :=
    int13hWriteO_drive onDisk.accepted onDisk.some writeLocationOffset m patientWrite
  have patientRead : ∀ n ≤ numBlocks.toNat, latency (m1.bus.delays + n) < fuel := by
    intro n small
    rw [delays, Nat.add_assoc, Nat.add_assoc]
    exact Nat.lt_of_lt_of_le (patient _ (by omega)) much
  obtain ⟨m2, didRead, disk', ram', -⟩ :=
    int13hReadO_drive onDisk.accepted onDisk.some readLocationOffset m1 patientRead
  rw [ram] at ram'
  have inside : ∀ i < 512 * numBlocks.toNat,
      m1.bus.disk (512 * firstSector cfg sectorOffset + i) =
        m.ram (cfg.writeLocation + writeLocationOffset + BitVec.ofNat 32 i) := by
    intro i bound
    rw [disk, written_inside _ _ _ _ _ bound]
  refine ⟨m1, m2, wrote, didRead, ram, inside, ?_, disk', ?_, ?_⟩
  · rw [disk, Nat.mul_add]
    exact written_changed _ _ _ _ _
  · intro i bound
    rw [ram', loaded_inside _ _ _ _ _ bound (by omega), inside i bound]
  · intro a outside
    rw [ram', loaded_outside _ _ _ _ _ outside]

/-- An idle drive of zeros, and a memory whose byte `a` is `a` modulo 256. -/
def countingMachine : Machine Drive where
  bus :=
    { disk := fun _ => 0
      sectorCount := 0
      lbaLow := 0
      lbaMid := 0
      lbaHigh := 0
      device := 0
      transfer := .none
      busy := 0
      delays := 0 }
  ram := fun a => a.setWidth 8
  written := []

/-- Three sectors of the booted partition, on a drive that is busy for three
status reads after every sector. -/
theorem write_then_read_booted :
    ∃ enough, ∀ fuel, enough ≤ fuel → ∃ m1 m2,
      int13hWriteO (driveBus fun _ => 3) bootedPartition fuel 2 3 512 countingMachine =
        some (0, m1) ∧
      int13hReadO (driveBus fun _ => 3) bootedPartition fuel 2 3 1024 m1 =
        some (0, m2) ∧
      ∀ i < 1536, m2.ram (bootedPartition.readLocation + 1024 + BitVec.ofNat 32 i) =
        countingMachine.ram (bootedPartition.writeLocation + 512 + BitVec.ofNat 32 i) := by
  have onDisk : OnDisk bootedPartition 2 3 :=
    ⟨by decide, by decide, by decide, by decide⟩
  rcases write_then_read (fun _ => 3) onDisk 512 1024 countingMachine
    with ⟨-, enough, runs⟩
  refine ⟨enough, ?_⟩
  intro fuel much
  rcases runs fuel much with ⟨m1, m2, wrote, didRead, -, -, -, -, same, -⟩
  exact ⟨m1, m2, wrote, didRead, same⟩

end Os88.Disk
