/-
Module: Os88.Library.LargePages
Purpose: Address translation of a 32-bit x86 processor through a page directory with pages of
  4 MB, and the cache of directory entries, which the processor fills and empties as it likes.
Trusted boundary: translations through page tables are not cached, and none is global.  Every
  store needs the writable bits.
Main exports: Cache, Upkeep, upkeep, entryAt, translate, storeDword, CoherentAt, invalidate,
  translate_large, translate_absent, storeDword_of_translated
-/
import Os88.Library.PageWalk

namespace LargePages

open ByteMemory
open PageWalk

/-- The directory entries that are cached. -/
abbrev Cache := BitVec 10 → Option (BitVec 32)

/-- What the processor does to a cached entry on its own. -/
inductive Upkeep where
  | keep
  | evict
  | fill
deriving DecidableEq, Repr

def entryAt (m : Memory) (cr3 : BitVec 32) (index : BitVec 10) : BitVec 32 :=
  load32 m (entryAddress cr3 index)

/-- Only entries that are present are cached. -/
def upkeep (choose : BitVec 10 → Upkeep) (m : Memory) (cr3 : BitVec 32) (cache : Cache) : Cache :=
  fun index =>
    match choose index with
    | .keep => cache index
    | .evict => none
    | .fill =>
        if (entryAt m cr3 index).getLsbD 0 then some (entryAt m cr3 index) else cache index

/-- `invlpg` -/
def invalidate (cache : Cache) (linear : BitVec 32) : Cache :=
  fun index => if index = directoryIndex linear then none else cache index

/-- The physical address of a linear one, or a page fault.  `pse` says whether there are pages
of 4 MB, which bit 7 marks. -/
def translate (pse write : Bool) (m : Memory) (cr3 : BitVec 32) (cache : Cache)
    (linear : BitVec 32) : Option (BitVec 32) :=
  let pde := (cache (directoryIndex linear)).getD (entryAt m cr3 (directoryIndex linear))
  if allows write pde then
    if pse && pde.getLsbD 7 then some (pde.extractLsb' 22 10 ++ linear.extractLsb' 0 22)
    else
      let pte := load32 m (entryAddress pde (tableIndex linear))
      if allows write pte then some (frame pte ++ pageOffset linear) else none
  else none

/-- All four bytes are translated before the first one is stored. -/
def storeDword (translate : BitVec 32 → Option (BitVec 32)) (m : Memory)
    (linear v : BitVec 32) : Option Memory := do
  let p0 ← translate linear
  let p1 ← translate (linear + 1)
  let p2 ← translate (linear + 2)
  let p3 ← translate (linear + 3)
  let m := store8 m p0.toNat (v.extractLsb' 0 8)
  let m := store8 m p1.toNat (v.extractLsb' 8 8)
  let m := store8 m p2.toNat (v.extractLsb' 16 8)
  return store8 m p3.toNat (v.extractLsb' 24 8)

/-! ## Coherence -/

/-- If the entry is cached, it is the one in memory. -/
def CoherentAt (m : Memory) (cr3 : BitVec 32) (cache : Cache) (index : BitVec 10) : Prop :=
  ∀ entry, cache index = some entry → entry = entryAt m cr3 index

section Coherence

variable {m m' : Memory} {cr3 : BitVec 32} {cache : Cache} {index : BitVec 10}

theorem CoherentAt.empty : CoherentAt m cr3 (fun _ => none) index := nofun

theorem CoherentAt.upkeep (coherent : CoherentAt m cr3 cache index)
    (choose : BitVec 10 → Upkeep) :
    CoherentAt m cr3 (upkeep choose m cr3 cache) index := by
  intro entry cached
  rw [LargePages.upkeep] at cached
  cases choice : choose index with
  | keep =>
      rw [choice] at cached
      exact coherent entry cached
  | evict =>
      rw [choice] at cached
      cases cached
  | fill =>
      rw [choice] at cached
      dsimp only at cached
      split at cached
      · exact (Option.some.inj cached).symm
      · exact coherent entry cached

/-- A change of memory that leaves the entry alone. -/
theorem CoherentAt.changed (coherent : CoherentAt m cr3 cache index)
    (same : entryAt m' cr3 index = entryAt m cr3 index) : CoherentAt m' cr3 cache index := by
  intro entry cached
  rw [same]
  exact coherent entry cached

/-- Afterwards the entry of the address is coherent, whatever it was before. -/
theorem CoherentAt.invalidate {linear : BitVec 32}
    (coherent : index ≠ directoryIndex linear → CoherentAt m cr3 cache index) :
    CoherentAt m cr3 (invalidate cache linear) index := by
  intro entry cached
  rw [LargePages.invalidate] at cached
  split at cached
  · cases cached
  · exact coherent ‹_› entry cached

end Coherence

/-! ## Translation through coherent entries -/

section Translation

variable {m : Memory} {cr3 linear : BitVec 32} {cache : Cache} {write : Bool}

theorem CoherentAt.lookup (coherent : CoherentAt m cr3 cache (directoryIndex linear)) :
    (cache (directoryIndex linear)).getD (entryAt m cr3 (directoryIndex linear)) =
      entryAt m cr3 (directoryIndex linear) := by
  cases cached : cache (directoryIndex linear) with
  | none => rfl
  | some entry => exact coherent entry cached

theorem translate_large {entry : BitVec 32}
    (coherent : CoherentAt m cr3 cache (directoryIndex linear))
    (found : entryAt m cr3 (directoryIndex linear) = entry) (allowed : allows write entry = true)
    (large : entry.getLsbD 7 = true) :
    translate true write m cr3 cache linear =
      some (entry.extractLsb' 22 10 ++ linear.extractLsb' 0 22) := by
  rw [translate, coherent.lookup, found, if_pos allowed, large]
  rfl

theorem translate_absent {pse : Bool} (coherent : CoherentAt m cr3 cache (directoryIndex linear))
    (absent : entryAt m cr3 (directoryIndex linear) = 0) :
    translate pse write m cr3 cache linear = none := by
  rw [translate, coherent.lookup, absent, if_neg (by cases write <;> decide)]

/-- A dword whose bytes are translated one behind the other. -/
theorem storeDword_of_translated {translate : BitVec 32 → Option (BitVec 32)} {p v : BitVec 32}
    (fits : p.toNat + 4 ≤ 2 ^ 32)
    (translated : ∀ j < 4, translate (linear + BitVec.ofNat 32 j) =
      some (p + BitVec.ofNat 32 j)) :
    storeDword translate m linear v = some (store32 m p.toNat v) := by
  have offset : ∀ j < 4, (p + BitVec.ofNat 32 j).toNat = p.toNat + j := by
    intro j small
    rw [BitVec.toNat_add, BitVec.toNat_ofNat]
    omega
  have translated0 : translate linear = some p := by simpa using translated 0 (by decide)
  have translated1 : translate (linear + 1) = some (p + 1) := translated 1 (by decide)
  have translated2 : translate (linear + 2) = some (p + 2) := translated 2 (by decide)
  have translated3 : translate (linear + 3) = some (p + 3) := translated 3 (by decide)
  have offset1 : (p + 1).toNat = p.toNat + 1 := offset 1 (by decide)
  have offset2 : (p + 2).toNat = p.toNat + 2 := offset 2 (by decide)
  have offset3 : (p + 3).toNat = p.toNat + 3 := offset 3 (by decide)
  simp only [storeDword, translated0, translated1, translated2, translated3, offset1, offset2,
    offset3, Option.bind_eq_bind, Option.bind_some, store32_bytes]
  rfl

end Translation

end LargePages
