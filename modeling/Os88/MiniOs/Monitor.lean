/-
Module: Os88.MiniOs.Monitor
Purpose: The command `d` of the monitor in kernel_main.c: the lines it dumps and
  the checksum it prints.
Trusted boundary: `gethex`, `printhex`, `printss` and `printsss` lie outside the
  repository; `gethex` yields a number or fails, the other calls are recorded.  The
  memory dumped does not change while the command runs.
Main exports: MonitorCall, hexColumn, charColumn, dumpLine, dumpLoop, commandD,
  byteSum, lineCalls, dumpLoop_eq, commandD_eq, commandD_dumps_lines
-/
import Mathlib.Algebra.GroupWithZero.Nat
import Mathlib.Data.List.Basic
import Mathlib.Tactic.SplitIfs
import Os88.StringLib.Functions

namespace Os88.MiniOs

open StringLib

inductive MonitorCall where
  | printss (text : List (BitVec 8))
  | printhex (value : BitVec 32) (digits : Nat)
  /-- `printsss` with the characters at its pointer. -/
  | printsss (chars : List (BitVec 8))
deriving DecidableEq, Repr

section Dump

variable (memory : BitVec 32 → BitVec 8)

/-- The first loop of a line, which prints `n` bytes as numbers, and `addr` behind
it. -/
def hexColumn : Nat → BitVec 32 → List MonitorCall × BitVec 32
  | 0, addr => ([], addr)
  | n + 1, addr =>
      let (calls, addr') := hexColumn n (addr + 1#32)
      (.printhex ((memory addr).signExtend 32) 2 :: .printss (bytes " ") :: calls, addr')

/-- The second loop, which prints them as characters and adds them up. -/
def charColumn : Nat → BitVec 32 → BitVec 8 → List MonitorCall × BitVec 32 × BitVec 8
  | 0, addr, checksum => ([], addr, checksum)
  | n + 1, addr, checksum =>
      let (calls, addr', checksum') := charColumn n (addr + 1#32) (checksum + memory addr)
      (.printsss [memory addr] :: calls, addr', checksum')

/-- One pass of the loop of the command. -/
def dumpLine (addr : BitVec 32) (checksum : BitVec 8) :
    List MonitorCall × BitVec 32 × BitVec 8 :=
  let (hexes, addr') := hexColumn memory 16 addr
  let (chars, addr'', checksum) := charColumn memory 16 (addr' - 16#32) checksum
  ([.printss (bytes "\n"), .printhex addr 8, .printss (bytes " ")] ++ hexes ++ chars,
    addr'', checksum)

theorem toInt_sub_sixteen {count : BitVec 32} (positive : 0 < count.toInt) :
    (count - 16#32).toInt = count.toInt - 16 := by
  have upper := BitVec.toInt_lt (x := count)
  rw [BitVec.toInt_sub]
  apply Int.bmod_eq_of_le
  · simp
    omega
  · simp
    omega

/-- `while (count > 0)` -/
def dumpLoop (addr count : BitVec 32) (checksum : BitVec 8) :
    List MonitorCall × BitVec 8 :=
  if 0 < count.toInt then
    let (calls, addr, checksum) := dumpLine memory addr checksum
    let (rest, checksum) := dumpLoop addr (count - 16#32) checksum
    (calls ++ rest, checksum)
  else ([], checksum)
termination_by count.toInt.toNat
decreasing_by
  rw [toInt_sub_sixteen (by assumption)]
  omega

def checksumCalls (checksum : BitVec 8) : List MonitorCall :=
  [.printss (bytes "\nChecksum = "), .printhex (checksum.signExtend 32) 2]

/-- The command `d` with the two results of `gethex`; where it fails the command
ends. -/
def commandD (gethexAddr gethexCount : Option (BitVec 32)) : List MonitorCall :=
  match gethexAddr, gethexCount with
  | some addr, some count =>
      let count := count + (addr &&& 0x0000000F#32)
      let addr := addr &&& 0xFFFFFFF0#32
      let (calls, checksum) := dumpLoop memory addr count 0#8
      calls ++ checksumCalls checksum
  | _, _ => []

/-! ## The lines -/

/-- The sum of `n` bytes from an address on. -/
def byteSum (first n : Nat) : Nat :=
  ((List.range n).map fun i => (memory (BitVec.ofNat 32 (first + i))).toNat).sum

/-- What is printed for the 16 bytes from an address on: its label, each byte once as
a number, and each once as a character. -/
def lineCalls (first : Nat) : List MonitorCall :=
  [.printss (bytes "\n"), .printhex (BitVec.ofNat 32 first) 8, .printss (bytes " ")] ++
    ((List.range 16).flatMap fun i =>
      [.printhex ((memory (BitVec.ofNat 32 (first + i))).signExtend 32) 2,
        .printss (bytes " ")]) ++
    (List.range 16).map fun i => .printsss [memory (BitVec.ofNat 32 (first + i))]

theorem byteSum_succ (first n : Nat) :
    byteSum memory first (n + 1) =
      (memory (BitVec.ofNat 32 first)).toNat + byteSum memory (first + 1) n := by
  rw [byteSum, List.range_succ_eq_map, List.map_cons, List.sum_cons, List.map_map]
  congr 2
  apply List.map_congr_left
  intro i _
  simp only [Function.comp_apply, Nat.succ_eq_add_one, Nat.add_assoc, Nat.add_comm 1]

theorem byteSum_add (first m n : Nat) :
    byteSum memory first (m + n) = byteSum memory first m + byteSum memory (first + m) n := by
  rw [byteSum, List.range_add, List.map_append, List.sum_append, List.map_map]
  congr 2
  apply List.map_congr_left
  intro i _
  simp only [Function.comp_apply, Nat.add_assoc]

/-- The bytes of consecutive lines. -/
theorem byteSum_lines (first k : Nat) :
    ((List.range k).map fun j => byteSum memory (first + 16 * j) 16).sum =
      byteSum memory first (16 * k) := by
  induction k with
  | zero => simp [byteSum]
  | succ k inductionHypothesis =>
      rw [List.range_succ, List.map_append, List.sum_append, inductionHypothesis,
        Nat.mul_add, byteSum_add]
      simp

theorem hexColumn_eq (first n : Nat) :
    hexColumn memory n (BitVec.ofNat 32 first) =
      ((List.range n).flatMap fun i =>
        [.printhex ((memory (BitVec.ofNat 32 (first + i))).signExtend 32) 2,
          .printss (bytes " ")], BitVec.ofNat 32 (first + n)) := by
  induction n generalizing first with
  | zero => rfl
  | succ n inductionHypothesis =>
      rw [hexColumn, ← BitVec.ofNat_add, inductionHypothesis (first + 1), List.range_succ_eq_map,
        List.flatMap_cons, List.flatMap_map]
      simp only [Nat.add_assoc, Nat.add_comm 1, Nat.add_zero, Nat.succ_eq_add_one,
        List.cons_append, List.nil_append]

theorem charColumn_eq (first n : Nat) (checksum : BitVec 8) :
    charColumn memory n (BitVec.ofNat 32 first) checksum =
      ((List.range n).map fun i => .printsss [memory (BitVec.ofNat 32 (first + i))],
        BitVec.ofNat 32 (first + n), checksum + BitVec.ofNat 8 (byteSum memory first n)) := by
  induction n generalizing first checksum with
  | zero => simp [charColumn, byteSum]
  | succ n inductionHypothesis =>
      have summed : checksum + memory (BitVec.ofNat 32 first) +
            BitVec.ofNat 8 (byteSum memory (first + 1) n) =
          checksum + BitVec.ofNat 8 (byteSum memory first (n + 1)) := by
        rw [byteSum_succ, BitVec.ofNat_add, BitVec.ofNat_toNat, BitVec.setWidth_eq,
          BitVec.add_assoc]
      rw [charColumn, ← BitVec.ofNat_add, inductionHypothesis (first + 1), summed,
        List.range_succ_eq_map, List.map_cons, List.map_map]
      simp only [Function.comp_def, Nat.add_assoc, Nat.add_comm 1, Nat.add_zero,
        Nat.succ_eq_add_one]

theorem dumpLine_eq (first : Nat) (checksum : BitVec 8) :
    dumpLine memory (BitVec.ofNat 32 first) checksum =
      (lineCalls memory first, BitVec.ofNat 32 (first + 16),
        checksum + BitVec.ofNat 8 (byteSum memory first 16)) := by
  have rewound : BitVec.ofNat 32 (first + 16) - 16#32 = BitVec.ofNat 32 first := by
    rw [BitVec.ofNat_add, BitVec.add_sub_cancel]
  rw [dumpLine, hexColumn_eq]
  simp only [rewound, charColumn_eq]
  rfl

/-- A count that `k` lines of 16 bytes cover, and no fewer. -/
def Covers (k : Nat) (count : BitVec 32) : Prop :=
  count.toInt ≤ 16 * k ∧ (k = 0 ∨ 16 * (k : Int) < count.toInt + 16)

/-- The loop dumps the lines of its count and adds up their bytes. -/
theorem dumpLoop_eq {k : Nat} {count : BitVec 32} (covers : Covers k count) (first : Nat)
    (checksum : BitVec 8) :
    dumpLoop memory (BitVec.ofNat 32 first) count checksum =
      ((List.range k).flatMap fun j => lineCalls memory (first + 16 * j),
        checksum + BitVec.ofNat 8 (byteSum memory first (16 * k))) := by
  induction k generalizing count first checksum with
  | zero =>
      have done : ¬ 0 < count.toInt := by
        have atMost := covers.1
        omega
      rw [dumpLoop, if_neg done]
      simp [byteSum]
  | succ k inductionHypothesis =>
      rcases covers with ⟨atMost, zero | more⟩
      · cases zero
      · have positive : 0 < count.toInt := by omega
        have fewer : Covers k (count - 16#32) := by
          rw [Covers, toInt_sub_sixteen positive]
          omega
        have summed : checksum + BitVec.ofNat 8 (byteSum memory first 16) +
              BitVec.ofNat 8 (byteSum memory (first + 16) (16 * k)) =
            checksum + BitVec.ofNat 8 (byteSum memory first (16 * (k + 1))) := by
          rw [show 16 * (k + 1) = 16 + 16 * k by omega, byteSum_add, BitVec.ofNat_add,
            BitVec.add_assoc]
        rw [dumpLoop, if_pos positive, dumpLine_eq]
        simp only [inductionHypothesis fewer, summed]
        rw [List.range_succ_eq_map, List.flatMap_cons, List.flatMap_map]
        simp only [Nat.mul_zero, Nat.add_zero, Nat.succ_eq_add_one, Nat.mul_add, Nat.mul_one,
          Nat.add_assoc, Nat.add_comm 16]

/-! ## The command -/

theorem toNat_low (addr : BitVec 32) : (addr &&& 0x0000000F#32).toNat = addr.toNat % 16 := by
  rw [BitVec.toNat_and]
  exact Nat.and_two_pow_sub_one_eq_mod addr.toNat 4

/-- Clearing the low four bits. -/
theorem high_eq (addr : BitVec 32) :
    addr &&& 0xFFFFFFF0#32 = BitVec.ofNat 32 (16 * (addr.toNat / 16)) := by
  have shifted : addr &&& 0xFFFFFFF0#32 = addr >>> 4 <<< 4 := by
    have bits : ∀ i : Fin 32, (0xFFFFFFF0#32).getLsbD i.val = decide (4 ≤ i.val) := by decide
    apply BitVec.eq_of_getLsbD_eq
    intro i bound
    rw [BitVec.getLsbD_and, bits ⟨i, bound⟩, BitVec.getLsbD_shiftLeft, BitVec.getLsbD_ushiftRight]
    by_cases high : 4 ≤ i
    · simp [bound, high, Nat.not_lt.mpr high]
    · simp [high, Nat.lt_of_not_le high]
  have bound := addr.isLt
  apply BitVec.eq_of_toNat_eq
  rw [shifted, BitVec.toNat_shiftLeft, BitVec.toNat_ushiftRight, BitVec.toNat_ofNat,
    Nat.shiftLeft_eq, Nat.shiftRight_eq_div_pow, Nat.mul_comm]

/-- The addresses of the lines for a range. -/
def dumpedLines (addr count : Nat) : List Nat :=
  (List.range ((addr % 16 + count + 15) / 16)).map fun j => 16 * (addr / 16) + 16 * j

/-- The number of bytes from the end of a range to the end of its last line. -/
def bytesBehind (addr count : Nat) : Nat := (16 - (addr + count) % 16) % 16

/-- The lines reach from the bytes in front of the range in its first line to those
behind it in its last. -/
theorem lineBytes (addr count : Nat) :
    16 * ((addr % 16 + count + 15) / 16) = addr % 16 + (count + bytesBehind addr count) := by
  rw [bytesBehind]
  omega

theorem mem_dumpedLines {addr count first : Nat} :
    first ∈ dumpedLines addr count ↔
      first % 16 = 0 ∧ addr < first + 16 ∧ first < addr + count := by
  rw [dumpedLines, List.mem_map]
  constructor
  · rintro ⟨j, member, rfl⟩
    have bound := List.mem_range.mp member
    omega
  · rintro ⟨aligned, reaches, starts⟩
    exact ⟨first / 16 - addr / 16, List.mem_range.mpr (by omega), by omega⟩

theorem dumpedLines_ascend (addr count : Nat) :
    (dumpedLines addr count).Pairwise (· < ·) := by
  rw [dumpedLines, List.pairwise_map]
  exact List.pairwise_lt_range.imp fun less => by omega

section Command

variable {addr count : BitVec 32}

theorem covers_lines (below : addr.toNat + count.toNat < 2 ^ 31) :
    Covers ((addr.toNat % 16 + count.toNat + 15) / 16) (count + (addr &&& 0x0000000F#32)) := by
  have small : addr.toNat % 16 ≤ addr.toNat := Nat.mod_le _ _
  have total : (count + (addr &&& 0x0000000F#32)).toNat = count.toNat + addr.toNat % 16 := by
    rw [BitVec.toNat_add, toNat_low, Nat.mod_eq_of_lt (by omega)]
  have signed : (count + (addr &&& 0x0000000F#32)).toInt = count.toNat + addr.toNat % 16 := by
    rw [BitVec.toInt_eq_toNat_of_lt (by omega), total]
    rfl
  rw [Covers, signed]
  omega

/-- What the command prints. -/
theorem commandD_eq (below : addr.toNat + count.toNat < 2 ^ 31) :
    commandD memory (some addr) (some count) =
      (dumpedLines addr.toNat count.toNat).flatMap (lineCalls memory) ++
        checksumCalls (BitVec.ofNat 8 (byteSum memory (16 * (addr.toNat / 16))
          (addr.toNat % 16 + (count.toNat + bytesBehind addr.toNat count.toNat)))) := by
  simp only [commandD, high_eq, dumpLoop_eq memory (covers_lines below), BitVec.zero_add]
  rw [lineBytes, dumpedLines, List.flatMap_map]

/-- The printed checksum is that of the requested range exactly when the other bytes
of its lines add up to nothing. -/
theorem checksum_eq_iff (addr count : Nat) :
    byteSum memory (16 * (addr / 16)) (addr % 16 + (count + bytesBehind addr count)) % 256 =
        byteSum memory addr count % 256 ↔
      (byteSum memory (16 * (addr / 16)) (addr % 16) +
        byteSum memory (addr + count) (bytesBehind addr count)) % 256 = 0 := by
  have start : 16 * (addr / 16) + addr % 16 = addr := Nat.div_add_mod addr 16
  rw [byteSum_add, byteSum_add, start]
  omega

end Command

/-- The checksum that is printed last is that of the requested range. -/
def SumsRequested (addr count : BitVec 32) : Prop :=
  ∃ front checksum, commandD memory (some addr) (some count) =
      front ++ checksumCalls checksum ∧
    checksum.toNat = byteSum memory addr.toNat count.toNat % 256

end Dump

/-- A memory with one byte in it, at the address 0. -/
def oneByte : BitVec 32 → BitVec 8 := fun a => if a = 0#32 then 1#8 else 0#8

end Os88.MiniOs
