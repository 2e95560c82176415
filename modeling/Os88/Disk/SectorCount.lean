/-
Module: Os88.Disk.SectorCount
Purpose: The sectors that the disk driver asks for against those it transfers.
Trusted boundary: none beyond Os88.Disk.Drive
Main exports: counted, commandedSectors, Balanced, read_counted, write_counted,
  AsksForWhatItMoves, requests_balanced_iff
-/
import Os88.Disk.RoundTrip

namespace Os88.Disk

open Execution

variable {β : Type}

/-! ## Counting the words -/

/-- The same ports, with a count of the words moved through port 0x1F0. -/
def counted (bus : PortBus β) : PortBus (β × Nat) where
  inb port s := ((bus.inb port s.1).1, (bus.inb port s.1).2, s.2)
  inw port s :=
    ((bus.inw port s.1).1, (bus.inw port s.1).2, if port = 0x1F0 then s.2 + 1 else s.2)
  outb port value s := (bus.outb port value s.1, s.2)
  outw port value s :=
    (bus.outw port value s.1, if port = 0x1F0 then s.2 + 1 else s.2)

/-- The sectors that port 0x1F2 asks for: 0 stands for 256. -/
def commandedSectors (m : Machine β) : Nat :=
  if register m 0x1F2 = 0 then 256 else (register m 0x1F2).toNat

section Counts

variable {bus : PortBus β} {m m' : Machine (β × Nat)}

theorem readWord_count {buffer : BitVec 32} {idx : Nat}
    (ran : readWord (counted bus) buffer idx m = some m') : m'.bus.2 = m.bus.2 + 1 := by
  cases ran
  rfl

theorem writeWord_count {buffer : BitVec 32} {idx : Nat}
    (ran : writeWord (counted bus) buffer idx m = some m') : m'.bus.2 = m.bus.2 + 1 := by
  cases ran
  rfl

/-- A loop whose passes move `words` words each. -/
theorem countLoop_count {body : Nat → Machine (β × Nat) → Option (Machine (β × Nat))}
    {words : Nat} (pass : ∀ i m m', body i m = some m' → m'.bus.2 = m.bus.2 + words)
    {first count : Nat} (ran : countLoop body first count m = some m') :
    m'.bus.2 = m.bus.2 + words * count := by
  induction count generalizing first m with
  | zero =>
      obtain rfl := Option.some.inj ran
      rfl
  | succ count inductionHypothesis =>
      rcases Option.bind_eq_some_iff.mp ran with ⟨middle, once, rest⟩
      rw [inductionHypothesis rest, pass first m middle once, Nat.mul_succ]
      omega

theorem readSector_count {fuel iterator : Nat} {buffer : BitVec 32}
    (ran : readSector (counted bus) fuel buffer iterator m = some m') :
    m'.bus.2 = m.bus.2 + 256 := by
  rcases Option.bind_eq_some_iff.mp ran with ⟨ready, waited, transferred⟩
  rw [countLoop_count (fun _ _ _ once => readWord_count once) transferred,
    waitData_keeps (fun m => m.bus.2) (fun _ => rfl) waited]

theorem writeSector_count {fuel iterator : Nat} {buffer : BitVec 32}
    (ran : writeSector (counted bus) fuel buffer iterator m = some m') :
    m'.bus.2 = m.bus.2 + 256 := by
  rcases Option.bind_eq_some_iff.mp ran with ⟨ready, waited, transferred⟩
  rw [countLoop_count (fun _ _ _ once => writeWord_count once) transferred,
    waitReady_keeps (fun m => m.bus.2) (fun _ => rfl) waited]

end Counts

/-! ## Requests -/

section Requests

variable {bus : PortBus β} {cfg : DiskConfig} {fuel : Nat} {sectorOffset : BitVec 32}
  {numBlocks : BitVec 8} {offset : BitVec 32}

theorem commandedSectors_congr {m m' : Machine β} (same : m'.written = m.written) :
    commandedSectors m' = commandedSectors m := by
  have register_same : register m' 0x1F2 = register m 0x1F2 := by
    rw [register, register, same]
  rw [commandedSectors, commandedSectors, register_same]

theorem commandedSectors_sendCommand (sector : BitVec 32) (numBlocks command : BitVec 8)
    (m : Machine β) :
    commandedSectors (sendCommand bus sector numBlocks command m) =
      if numBlocks = 0 then 256 else numBlocks.toNat :=
  rfl

/-- What a request does that is not refused. -/
def Balanced (numBlocks : BitVec 8) (m m' : Machine (β × Nat)) : Prop :=
  m'.bus.2 = m.bus.2 + 256 * numBlocks.toNat ∧
    commandedSectors m' = if numBlocks = 0 then 256 else numBlocks.toNat

theorem read_counted {m m' : Machine (β × Nat)} {result : BitVec 32}
    (ran : int13hReadO (counted bus) cfg fuel sectorOffset numBlocks offset m =
      some (result, m')) :
    (¬ Accepted cfg sectorOffset numBlocks ∧ result = -1 ∧ m' = m) ∨
      Accepted cfg sectorOffset numBlocks ∧ result = 0 ∧ Balanced numBlocks m m' := by
  rcases read_cases ran with refused | ⟨accepted, returned, looped⟩
  · exact Or.inl refused
  · refine Or.inr ⟨accepted, returned, ?_, ?_⟩
    · have moved := countLoop_count (fun _ _ _ once => readSector_count once) looped
      exact moved
    · rw [commandedSectors_congr (readLoop_written looped), commandedSectors_sendCommand]

theorem write_counted {m m' : Machine (β × Nat)} {result : BitVec 32}
    (ran : int13hWriteO (counted bus) cfg fuel sectorOffset numBlocks offset m =
      some (result, m')) :
    (¬ Accepted cfg sectorOffset numBlocks ∧ result = -1 ∧ m' = m) ∨
      Accepted cfg sectorOffset numBlocks ∧ result = 0 ∧ Balanced numBlocks m m' := by
  rcases write_cases ran with refused | ⟨accepted, returned, middle, looped, waited⟩
  · exact Or.inl refused
  · refine Or.inr ⟨accepted, returned, ?_, ?_⟩
    · have moved := countLoop_count (fun _ _ _ once => writeSector_count once) looped
      rw [waitIdle_keeps (fun m => m.bus.2) (fun _ => rfl) waited]
      exact moved
    · rw [commandedSectors_congr (waitIdle_written waited)]
      show commandedSectors middle = _
      rw [commandedSectors_congr (writeLoop_written looped), commandedSectors_sendCommand]

end Requests

/-! ## Balanced requests -/

/-- A request of the driver, over any ports, with the fuel for its waiting loops. -/
abbrev Request :=
  (β : Type) → PortBus β → Nat → Machine β → Option (BitVec 32 × Machine β)

/-- Whatever answers on the ports, the request is refused before it touches
anything, or it moves the sectors it asks for.  A drive lets it finish, and with
the result 0 the drive has nothing left to transfer. -/
def AsksForWhatItMoves (request : Request) : Prop :=
  (∀ (β : Type) (bus : PortBus β) (fuel : Nat) (m m' : Machine (β × Nat)) (result : BitVec 32),
    request (β × Nat) (counted bus) fuel m = some (result, m') →
      (result ≠ 0 ∧ m' = m) ∨
        (result = 0 ∧ m'.bus.2 = m.bus.2 + 256 * commandedSectors m')) ∧
  ∀ (latency : Nat → Nat) (m : Machine Drive), ∃ enough, ∀ fuel, enough ≤ fuel →
    ∃ result m', request Drive (driveBus latency) fuel m = some (result, m') ∧
      (result = 0 → m'.bus.left = 0)

def readRequest (cfg : DiskConfig) (sectorOffset : BitVec 32) (numBlocks : BitVec 8)
    (readLocationOffset : BitVec 32) : Request :=
  fun _ bus fuel m => int13hReadO bus cfg fuel sectorOffset numBlocks readLocationOffset m

def writeRequest (cfg : DiskConfig) (sectorOffset : BitVec 32) (numBlocks : BitVec 8)
    (writeLocationOffset : BitVec 32) : Request :=
  fun _ bus fuel m => int13hWriteO bus cfg fuel sectorOffset numBlocks writeLocationOffset m

section Balance

variable {cfg : DiskConfig} {sectorOffset : BitVec 32} {numBlocks : BitVec 8}

/-- The request for no sectors is refused beyond the end of the partition only. -/
theorem accepted_zero_iff :
    Accepted cfg sectorOffset 0 ↔ ¬ cfg.partLength < sectorOffset := by
  simp [Accepted, outOfBounds]

/-- The sectors asked for are those moved, unless there are none to move. -/
theorem Balanced.moved {m m' : Machine (β × Nat)} (balanced : Balanced numBlocks m m')
    (nonempty : numBlocks ≠ 0) :
    m'.bus.2 = m.bus.2 + 256 * commandedSectors m' := by
  rw [balanced.1, balanced.2, if_neg nonempty]

theorem Balanced.unmoved {m m' : Machine (β × Nat)} (balanced : Balanced 0 m m') :
    m'.bus.2 ≠ m.bus.2 + 256 * commandedSectors m' := by
  rw [balanced.1, balanced.2, if_pos rfl]
  simp

/-- A request whose outcomes are known asks for what it moves exactly if it is
refused or has sectors to move. -/
theorem asksForWhatItMoves_iff {request : Request}
    (outcomes : ∀ (β : Type) (bus : PortBus β) (fuel : Nat) (m m' : Machine (β × Nat))
      (result : BitVec 32), request (β × Nat) (counted bus) fuel m = some (result, m') →
        (¬ Accepted cfg sectorOffset numBlocks ∧ result = -1 ∧ m' = m) ∨
          Accepted cfg sectorOffset numBlocks ∧ result = 0 ∧ Balanced numBlocks m m')
    (drive : ∀ (latency : Nat → Nat) (m : Machine Drive), numBlocks ≠ 0 ∨
        ¬ Accepted cfg sectorOffset numBlocks → ∃ enough, ∀ fuel, enough ≤ fuel →
      ∃ result m', request Drive (driveBus latency) fuel m = some (result, m') ∧
        (result = 0 → m'.bus.left = 0))
    (served : numBlocks = 0 → Accepted cfg sectorOffset numBlocks →
      ∃ (m m' : Machine (Unit × Nat)),
        request (Unit × Nat) (counted readyBus) 1 m = some (0, m')) :
    AsksForWhatItMoves request ↔ numBlocks ≠ 0 ∨ ¬ Accepted cfg sectorOffset numBlocks := by
  constructor
  · rintro ⟨balanced, -⟩
    by_contra empty
    rw [not_or, not_not, not_not] at empty
    rcases empty with ⟨rfl, accepted⟩
    rcases served rfl accepted with ⟨m, m', ran⟩
    rcases outcomes Unit readyBus 1 m m' 0 ran with ⟨outside, -⟩ | ⟨-, -, counts⟩
    · exact outside accepted
    rcases balanced Unit readyBus 1 m m' 0 ran with ⟨refused, -⟩ | ⟨-, moved⟩
    · exact refused rfl
    · exact counts.unmoved moved
  · intro condition
    refine ⟨?_, fun latency m => drive latency m condition⟩
    intro β bus fuel m m' result ran
    rcases outcomes β bus fuel m m' result ran with
      ⟨-, rfl, untouched⟩ | ⟨accepted, returned, counts⟩
    · exact Or.inl ⟨by decide, untouched⟩
    · have nonempty := condition.resolve_right (fun outside => outside accepted)
      exact Or.inr ⟨returned, counts.moved nonempty⟩

/-- With patience for `pauses` delays a drive finishes the request and has nothing
left. -/
theorem drive_finishes {request : Request} (latency : Nat → Nat) (pauses : Nat)
    (m : Machine Drive) (condition : numBlocks ≠ 0 ∨ ¬ Accepted cfg sectorOffset numBlocks)
    (refused : ¬ Accepted cfg sectorOffset numBlocks → ∀ fuel,
      request Drive (driveBus latency) fuel m = some (-1, m))
    (served : Accepted cfg sectorOffset numBlocks → 1 ≤ numBlocks.toNat → ∀ fuel,
      (∀ n < pauses, latency (m.bus.delays + n) < fuel) →
        ∃ m', request Drive (driveBus latency) fuel m = some (0, m') ∧ m'.bus.left = 0) :
    ∃ enough, ∀ fuel, enough ≤ fuel → ∃ result m',
      request Drive (driveBus latency) fuel m = some (result, m') ∧
        (result = 0 → m'.bus.left = 0) := by
  by_cases accepted : Accepted cfg sectorOffset numBlocks
  · have nonempty := condition.resolve_right (fun outside => outside accepted)
    have positive : 1 ≤ numBlocks.toNat := by
      rw [Nat.one_le_iff_ne_zero]
      exact fun zero => nonempty (BitVec.eq_of_toNat_eq zero)
    obtain ⟨enough, patient⟩ := exists_patience latency m.bus.delays pauses
    refine ⟨enough, ?_⟩
    intro fuel much
    obtain ⟨m', ran, done⟩ := served accepted positive fuel
      fun n small => Nat.lt_of_lt_of_le (patient n small) much
    exact ⟨0, m', ran, fun _ => done⟩
  · refine ⟨0, fun fuel _ => ⟨-1, m, refused accepted fuel, ?_⟩⟩
    intro impossible
    exact absurd impossible (by decide)

theorem readRequest_drive (offset : BitVec 32) (latency : Nat → Nat) (m : Machine Drive)
    (condition : numBlocks ≠ 0 ∨ ¬ Accepted cfg sectorOffset numBlocks) :
    ∃ enough, ∀ fuel, enough ≤ fuel → ∃ result m',
      readRequest cfg sectorOffset numBlocks offset Drive (driveBus latency) fuel m =
        some (result, m') ∧ (result = 0 → m'.bus.left = 0) := by
  apply drive_finishes latency (numBlocks.toNat + 1) m condition
  · exact fun outside fuel => int13hReadO_refused outside
  · intro accepted positive fuel patient
    obtain ⟨m', ran, -, -, done⟩ := int13hReadO_drive accepted positive offset m
      fun n small => patient n (by omega)
    exact ⟨m', ran, done⟩

theorem writeRequest_drive (offset : BitVec 32) (latency : Nat → Nat) (m : Machine Drive)
    (condition : numBlocks ≠ 0 ∨ ¬ Accepted cfg sectorOffset numBlocks) :
    ∃ enough, ∀ fuel, enough ≤ fuel → ∃ result m',
      writeRequest cfg sectorOffset numBlocks offset Drive (driveBus latency) fuel m =
        some (result, m') ∧ (result = 0 → m'.bus.left = 0) := by
  apply drive_finishes latency (numBlocks.toNat + 2) m condition
  · exact fun outside fuel => int13hWriteO_refused outside
  · intro accepted positive fuel patient
    obtain ⟨m', ran, -, -, -, done⟩ := int13hWriteO_drive accepted positive offset m
      fun n small => patient n (by omega)
    exact ⟨m', ran, done⟩

/-- With no sectors to move the loops have no pass. -/
theorem readRequest_empty (accepted : Accepted cfg sectorOffset 0) (offset : BitVec 32)
    (bus : PortBus β) (fuel : Nat) (m : Machine β) :
    readRequest cfg sectorOffset 0 offset β bus fuel m =
      some (0, sendCommand bus (sectorOffset + cfg.partStartLba) 0 0x20 m) := by
  rw [readRequest, int13hReadO_accepted accepted]
  rfl

theorem writeRequest_empty (accepted : Accepted cfg sectorOffset 0) (offset : BitVec 32)
    (m : Machine (Unit × Nat)) :
    writeRequest cfg sectorOffset 0 offset (Unit × Nat) (counted readyBus) 1 m =
      some (0, outb (counted readyBus) 0x1F7 0xE7
        (sendCommand (counted readyBus) (sectorOffset + cfg.partStartLba) 0 0x30 m)) := by
  have idle : ∀ m : Machine (Unit × Nat), waitIdle (counted readyBus) 1 m = some m := by
    intro m
    simp [waitIdle, inb, counted, readyBus]
  have noPass : (0 : BitVec 8).toNat = 0 := rfl
  rw [writeRequest, int13hWriteO_accepted accepted, noPass, countLoop, Option.bind_some, idle,
    Option.map_some]

/-- Reads and writes ask for what they move exactly when a request for no sectors
is refused, which is when its offset lies behind the end of the partition. -/
theorem requests_balanced_iff (cfg : DiskConfig) (sectorOffset : BitVec 32)
    (numBlocks : BitVec 8) (offset : BitVec 32) :
    (AsksForWhatItMoves (readRequest cfg sectorOffset numBlocks offset) ↔
        (numBlocks = 0 → cfg.partLength < sectorOffset)) ∧
      (AsksForWhatItMoves (writeRequest cfg sectorOffset numBlocks offset) ↔
        (numBlocks = 0 → cfg.partLength < sectorOffset)) := by
  have condition : (numBlocks ≠ 0 ∨ ¬ Accepted cfg sectorOffset numBlocks) ↔
      (numBlocks = 0 → cfg.partLength < sectorOffset) := by
    rw [← imp_iff_not_or]
    constructor
    · intro refused empty
      subst empty
      exact not_not.mp (fun inside => refused rfl (accepted_zero_iff.mpr inside))
    · intro outside empty accepted
      subst empty
      exact accepted_zero_iff.mp accepted (outside rfl)
  rw [← condition]
  constructor
  · apply asksForWhatItMoves_iff
    · exact fun _ _ _ _ _ _ ran => read_counted ran
    · exact readRequest_drive offset
    · rintro rfl accepted
      exact ⟨⟨((), 0), fun _ => 0, []⟩, _, readRequest_empty accepted offset _ 1 _⟩
  · apply asksForWhatItMoves_iff
    · exact fun _ _ _ _ _ _ ran => write_counted ran
    · exact writeRequest_drive offset
    · rintro rfl accepted
      exact ⟨⟨((), 0), fun _ => 0, []⟩, _, writeRequest_empty accepted offset _⟩

/-- A read of no sectors from the start of the booted partition returns 0, has
moved nothing, and leaves the drive with 256 sectors to send. -/
theorem empty_read_leaves_sectors :
    ∃ m', int13hReadO (driveBus fun _ => 0) bootedPartition 1 0 0 0 countingMachine =
        some (0, m') ∧ m'.ram = countingMachine.ram ∧ m'.bus.left = 256 * 256 ∧
      ¬ AsksForWhatItMoves (readRequest bootedPartition 0 0 0) ∧
      ¬ AsksForWhatItMoves (writeRequest bootedPartition 0 0 0) := by
  have accepted : Accepted bootedPartition 0 0 := ⟨by decide, by decide⟩
  refine ⟨_, readRequest_empty accepted 0 (driveBus fun _ => 0) 1 countingMachine, rfl, rfl,
    ?_, ?_⟩
  · rintro ⟨balanced, -⟩
    rcases balanced Unit readyBus 1 ⟨((), 0), fun _ => 0, []⟩ _ 0
      (readRequest_empty accepted 0 _ 1 _) with ⟨refused, -⟩ | ⟨-, moved⟩
    · exact refused rfl
    · revert moved
      decide
  · rintro ⟨balanced, -⟩
    rcases balanced Unit readyBus 1 ⟨((), 0), fun _ => 0, []⟩ _ 0
      (writeRequest_empty accepted 0 _) with ⟨refused, -⟩ | ⟨-, moved⟩
    · exact refused rfl
    · revert moved
      decide

end Balance

end Os88.Disk
