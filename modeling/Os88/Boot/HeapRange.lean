/-
Module: Os88.Boot.HeapRange
Purpose: Whether the range that `kernel_main` gives to its heap is RAM of the
  memory map.
Trusted boundary: none beyond Os88.Boot.MemoryMap
Main exports: BackedByRam, HeapBacked, RangeClosed, heapBacked_iff
-/
import Mathlib.Data.Nat.Init
import Os88.Boot.MemoryMap

namespace Os88.Boot

open ByteMemory

/-- The address after the entry. -/
def MemoryMapEntry.stop (e : MemoryMapEntry) : Nat :=
  e.baseAddress.toNat + e.length.toNat

/-- Some entry of type 1 contains the address. -/
def BackedByRam (entries : List MemoryMapEntry) (a : Nat) : Prop :=
  ∃ e ∈ entries, e.type = 0x1#32 ∧ e.baseAddress.toNat ≤ a ∧ a < e.stop

/-- If `kernel_main` constructs the heap, all of its addresses are RAM. -/
def HeapBacked (m : Memory) (infStruc : Nat) : Prop :=
  ∀ start stop, heapArguments m infStruc = some (start, stop) →
    ∀ a, start ≤ a → a < stop →
      BackedByRam (readMemoryMap m infStruc).memMapEntries a

/-- The range starts in RAM, and where an entry of RAM ends inside the range,
another one goes on. -/
def RangeClosed (entries : List MemoryMapEntry) (start stop : Nat) : Prop :=
  BackedByRam entries start ∧
    ∀ e ∈ entries, e.type = 0x1#32 → start < e.stop → e.stop < stop →
      BackedByRam entries e.stop

/-- A range is RAM as soon as no entry ends inside it without another one. -/
theorem range_backed_iff {entries : List MemoryMapEntry} {start stop : Nat}
    (nonempty : start < stop) :
    (∀ a, start ≤ a → a < stop → BackedByRam entries a) ↔
      RangeClosed entries start stop := by
  constructor
  · intro backed
    refine ⟨backed start (Nat.le_refl start) nonempty, ?_⟩
    intro e _ _ lower upper
    exact backed e.stop (Nat.le_of_lt lower) upper
  · rintro ⟨first, next⟩ a lower upper
    -- from one address to the next, inside an entry or over its end
    induction a, lower using Nat.le_induction with
    | base => exact first
    | succ a lower inductionHypothesis =>
        rcases inductionHypothesis (by omega) with ⟨e, member, ram, base, inside⟩
        by_cases ends : e.stop = a + 1
        · rw [← ends]
          exact next e member ram (by omega) (by omega)
        · exact ⟨e, member, ram, by omega, by omega⟩

/-- The memory check fails when the RAM, counted in 64 bits, makes less than 50
megabytes in 32 bits. -/
theorem heapArguments_eq_none_iff (m : Memory) (infStruc : Nat) :
    heapArguments m infStruc = none ↔
      ramBytes (readMemoryMap m infStruc).memMapEntries % 2 ^ 64 / 2 ^ 20 % 2 ^ 32 <
        50 := by
  have megabytes : (amountofRAMinMB (readMemoryMap m infStruc).amountofRAM).toNat =
      ramBytes (readMemoryMap m infStruc).memMapEntries % 2 ^ 64 / 2 ^ 20 % 2 ^ 32 := by
    rw [(readMemoryMap_eq m infStruc).2, amountofRAMinMB, BitVec.toNat_setWidth,
      BitVec.toNat_udiv, BitVec.toNat_udiv, BitVec.toNat_ofNat]
    show ramBytes _ % 2 ^ 64 / 1024 / 1024 % 2 ^ 32 = _
    rw [Nat.div_div_eq_div_mul, show 1024 * 1024 = 2 ^ 20 from rfl]
  rw [← megabytes, heapArguments]
  constructor
  · intro returned
    by_contra large
    rw [if_neg (by rw [BitVec.lt_def]; exact large)] at returned
    cases returned
  · intro small
    exact if_pos (by rw [BitVec.lt_def]; exact small)

/-- One entry of 60 MB of RAM from 4 GB on. -/
def highMemory : Memory :=
  store32 (store64 (store64
    (store32 (store32 (fun _ => 0#8) 0x8602 1#32) 0x8606 0x30000#32)
      0x30000 0x100000000#64) 0x30008 0x3C00000#64) 0x30010 1#32

theorem readMemoryMap_highMemory :
    (readMemoryMap highMemory 0x8200).memMapEntries =
      [⟨0x100000000#64, 0x3C00000#64, 1#32, 0#32⟩] := by
  decide +kernel

end Os88.Boot
