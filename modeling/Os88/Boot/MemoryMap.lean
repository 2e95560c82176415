/-
Module: Os88.Boot.MemoryMap
Purpose: The start of `kernel_main`: the loop that copies the memory map left by
  the loader, the amount of RAM and the check of it.
Trusted boundary: `BootInformation` lies outside the repository; it has the
  layout of the labels of `kernel_info_block`.
Main exports: MemoryMapEntry, readMemoryMap, ramBytes, heapArguments,
  readMemoryMap_eq
-/
import Mathlib.Algebra.BigOperators.Group.List.Basic
import Mathlib.Algebra.GroupWithZero.Nat
import Os88.Library.ByteMemory

namespace Os88.Boot

open ByteMemory

structure MemoryMapEntry where
  baseAddress : BitVec 64
  length : BitVec 64
  type : BitVec 32
  acpiExtended : BitVec 32
deriving DecidableEq, Repr

section Reading

variable (m : Memory) (infStruc : Nat)

/-- `inf_struc->no_of_memory_entries` -/
def noOfMemoryEntries : BitVec 32 := load32 m (infStruc + 0x402)

/-- `inf_struc->memory_entries` -/
def memoryEntries : BitVec 32 := load32 m (infStruc + 0x406)

/-- The variables of the loop; `memMapEntries` is as long as the entries that
have been written. -/
structure MapLoop where
  memMapEntries : List MemoryMapEntry
  index0 : Nat
  index1 : Nat
  amountofRAM : BitVec 64

/-- `tmp_mem_entry`; `pointer` is the address in both `mem_list_pointer` and
`mem_attrib_pointer`. -/
def tmpMemEntry (pointer index0 index1 : Nat) : MemoryMapEntry where
  baseAddress := load64 m (pointer + 8 * index0)
  length := load64 m (pointer + 8 * (index0 + 1))
  type := load32 m (pointer + 4 * index1)
  acpiExtended := load32 m (pointer + 4 * (index1 + 1))

/-- One pass of the loop. -/
def mapPass (pointer : Nat) (s : MapLoop) : MapLoop :=
  let entry := tmpMemEntry m pointer s.index0 s.index1
  { memMapEntries := s.memMapEntries ++ [entry]
    index0 := s.index0 + 3
    index1 := s.index1 + 6
    amountofRAM :=
      if entry.type = 0x1#32 then s.amountofRAM + entry.length else s.amountofRAM }

/-- The loop of `kernel_main` over the memory map. -/
def readMemoryMap : MapLoop :=
  (mapPass m (memoryEntries m infStruc).toNat)^[(noOfMemoryEntries m infStruc).toNat]
    ⟨[], 0, 4, 0⟩

def amountofRAMinMB (amountofRAM : BitVec 64) : BitVec 32 :=
  (amountofRAM / 1024#64 / 1024#64).setWidth 32

/-- The arguments of `MemoryManager`, unless `kernel_main` returns before. -/
def heapArguments : Option (Nat × Nat) :=
  if amountofRAMinMB (readMemoryMap m infStruc).amountofRAM < 50 then none
  else some (10 * 1024 * 1024, 70 * 1024 * 1024)

end Reading

/-! ## The map as a list of records -/

/-- The record of 24 bytes at an address. -/
def recordAt (m : Memory) (a : Nat) : MemoryMapEntry where
  baseAddress := load64 m a
  length := load64 m (a + 8)
  type := load32 m (a + 16)
  acpiExtended := load32 m (a + 20)

/-- `count` records from an address on. -/
def records (m : Memory) (a count : Nat) : List MemoryMapEntry :=
  (List.range count).map fun i => recordAt m (a + 24 * i)

/-- The RAM of a map in bytes. -/
def ramBytes (entries : List MemoryMapEntry) : Nat :=
  ((entries.filter (·.type = 0x1#32)).map (·.length.toNat)).sum

theorem records_succ (m : Memory) (a count : Nat) :
    records m a (count + 1) = records m a count ++ [recordAt m (a + 24 * count)] := by
  simp [records, List.range_succ]

/-- Records depend on their own bytes only. -/
theorem recordAt_of_changedWithin {m m' : Memory} {lo hi a : Nat}
    (changed : ChangedWithin lo hi m m') (apart : a + 24 ≤ lo ∨ hi ≤ a) :
    recordAt m' a = recordAt m a := by
  simp only [recordAt, MemoryMapEntry.mk.injEq]
  exact ⟨changed.load64 (by omega), changed.load64 (by omega),
    changed.load32 (by omega), changed.load32 (by omega)⟩

theorem records_of_changedWithin {m m' : Memory} {lo hi a count : Nat}
    (changed : ChangedWithin lo hi m m')
    (apart : a + 24 * count ≤ lo ∨ hi ≤ a) :
    records m' a count = records m a count := by
  apply List.map_congr_left
  intro i member
  have inside : i < count := List.mem_range.mp member
  exact recordAt_of_changedWithin changed (by omega)

theorem ramBytes_concat (entries : List MemoryMapEntry) (entry : MemoryMapEntry) :
    ramBytes (entries ++ [entry]) =
      if entry.type = 0x1#32 then ramBytes entries + entry.length.toNat
      else ramBytes entries := by
  by_cases ram : entry.type = 0x1#32
  · simp [ramBytes, ram]
  · simp [ramBytes, ram]

/-! ## The loop reads the records -/

/-- The two pointers walk the same records with their own strides. -/
theorem tmpMemEntry_eq (m : Memory) (pointer count : Nat) :
    tmpMemEntry m pointer (3 * count) (4 + 6 * count) =
      recordAt m (pointer + 24 * count) := by
  have first : pointer + 8 * (3 * count) = pointer + 24 * count := by omega
  have second : pointer + 8 * (3 * count + 1) = pointer + 24 * count + 8 := by omega
  have third : pointer + 4 * (4 + 6 * count) = pointer + 24 * count + 16 := by omega
  have fourth : pointer + 4 * (4 + 6 * count + 1) = pointer + 24 * count + 20 := by
    omega
  rw [tmpMemEntry, first, second, third, fourth]
  rfl

theorem mapPass_iterate (m : Memory) (pointer count : Nat) :
    (mapPass m pointer)^[count] ⟨[], 0, 4, 0⟩ =
      ⟨records m pointer count, 3 * count, 4 + 6 * count,
        BitVec.ofNat 64 (ramBytes (records m pointer count))⟩ := by
  induction count with
  | zero => rfl
  | succ count inductionHypothesis =>
      rw [Function.iterate_succ_apply', inductionHypothesis, mapPass]
      simp only [tmpMemEntry_eq, records_succ, MapLoop.mk.injEq, true_and]
      refine ⟨by omega, by omega, ?_⟩
      rw [ramBytes_concat]
      split
      · rw [BitVec.ofNat_add, BitVec.ofNat_toNat, BitVec.setWidth_eq]
      · rfl

/-- What the loop leaves: the records of the map, and their RAM. -/
theorem readMemoryMap_eq (m : Memory) (infStruc : Nat) :
    (readMemoryMap m infStruc).memMapEntries =
        records m (memoryEntries m infStruc).toNat
          (noOfMemoryEntries m infStruc).toNat ∧
      (readMemoryMap m infStruc).amountofRAM =
        BitVec.ofNat 64 (ramBytes (readMemoryMap m infStruc).memMapEntries) := by
  rw [readMemoryMap, mapPass_iterate]
  exact ⟨rfl, rfl⟩

end Os88.Boot
