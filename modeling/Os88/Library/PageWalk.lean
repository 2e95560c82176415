/-
Module: Os88.Library.PageWalk
Purpose: The two-level page walk of a 32-bit x86 processor over a byte memory,
  and when it maps an address to itself.
Trusted boundary: pages of 4 kB only.  Every store needs the writable bits.  The
  accessed and dirty bits and the cache of translations are left out.
Main exports: translate, readByte, writeByte, writeDword, pageEntry,
  IdentityEntry, IdentityEntry.translate_self
-/
import Mathlib.Algebra.Group.Nat.Defs
import Os88.Library.ByteMemory

namespace PageWalk

open ByteMemory

/-! ## The walk -/

def directoryIndex (linear : BitVec 32) : BitVec 10 := linear.extractLsb' 22 10

def tableIndex (linear : BitVec 32) : BitVec 10 := linear.extractLsb' 12 10

def pageNumber (linear : BitVec 32) : BitVec 20 := linear.extractLsb' 12 20

def pageOffset (linear : BitVec 32) : BitVec 12 := linear.extractLsb' 0 12

/-- The page frame that an entry or `cr3` points to. -/
def frame (entry : BitVec 32) : BitVec 20 := entry.extractLsb' 12 20

/-- The address of an entry in the table that `pointer` points to. -/
def entryAddress (pointer : BitVec 32) (index : BitVec 10) : Nat :=
  4096 * (frame pointer).toNat + 4 * index.toNat

/-- Bit 0 says present, bit 1 writable. -/
def allows (write : Bool) (entry : BitVec 32) : Bool :=
  entry.getLsbD 0 && (!write || entry.getLsbD 1)

/-- The physical address of a linear one, or a page fault. -/
def translate (write : Bool) (m : Memory) (cr3 linear : BitVec 32) :
    Option (BitVec 32) :=
  let pde := load32 m (entryAddress cr3 (directoryIndex linear))
  if allows write pde then
    let pte := load32 m (entryAddress pde (tableIndex linear))
    if allows write pte then some (frame pte ++ pageOffset linear) else none
  else none

/-! ## Accesses through the walk -/

def readByte (m : Memory) (cr3 linear : BitVec 32) : Option (BitVec 8) :=
  (translate false m cr3 linear).map fun physical => m physical.toNat

def writeByte (m : Memory) (cr3 linear : BitVec 32) (v : BitVec 8) :
    Option Memory :=
  (translate true m cr3 linear).map fun physical => store8 m physical.toNat v

/-- All four bytes are translated before the first one is stored. -/
def writeDword (m : Memory) (cr3 linear : BitVec 32) (v : BitVec 32) :
    Option Memory := do
  let p0 ← translate true m cr3 linear
  let p1 ← translate true m cr3 (linear + 1)
  let p2 ← translate true m cr3 (linear + 2)
  let p3 ← translate true m cr3 (linear + 3)
  let m := store8 m p0.toNat (v.extractLsb' 0 8)
  let m := store8 m p1.toNat (v.extractLsb' 8 8)
  let m := store8 m p2.toNat (v.extractLsb' 16 8)
  return store8 m p3.toNat (v.extractLsb' 24 8)

/-! ## Entries that map a page to itself -/

/-- The entry for page `n`: present and writable. -/
def pageEntry (n : Nat) : BitVec 32 := BitVec.ofNat 20 n ++ 0x003#12

@[simp] theorem frame_pageEntry (n : Nat) : frame (pageEntry n) = BitVec.ofNat 20 n :=
  BitVec.extractLsb'_append_eq_left

@[simp] theorem allows_pageEntry (write : Bool) (n : Nat) :
    allows write (pageEntry n) = true := by
  have present : (pageEntry n).getLsbD 0 = true := by
    rw [pageEntry, BitVec.getLsbD_append, if_pos (by decide)]
    rfl
  have writable : (pageEntry n).getLsbD 1 = true := by
    rw [pageEntry, BitVec.getLsbD_append, if_pos (by decide)]
    rfl
  rw [allows, present, writable, Bool.or_true, Bool.and_true]

theorem pageEntry_toNat (n : Nat) : (pageEntry n).toNat = n % 2 ^ 20 * 4096 + 3 := by
  rw [pageEntry, BitVec.toNat_append, ← Nat.shiftLeft_add_eq_or_of_lt (by decide),
    Nat.shiftLeft_eq, BitVec.toNat_ofNat]
  rfl

/-- Adding a page size leads to the entry of the next page. -/
theorem pageEntry_add (n : Nat) : pageEntry n + 0x1000 = pageEntry (n + 1) := by
  apply BitVec.eq_of_toNat_eq
  rw [BitVec.toNat_add, pageEntry_toNat, pageEntry_toNat]
  show (_ + 4096) % 2 ^ 32 = _
  omega

/-! ## Linear addresses in parts -/

theorem directoryIndex_toNat (linear : BitVec 32) :
    (directoryIndex linear).toNat = linear.toNat / 2 ^ 22 := by
  have bound := linear.isLt
  rw [directoryIndex, BitVec.extractLsb'_toNat, Nat.shiftRight_eq_div_pow]
  omega

/-- A page number consists of the two indices. -/
theorem pageNumber_eq (linear : BitVec 32) :
    pageNumber linear =
      BitVec.ofNat 20 (1024 * (directoryIndex linear).toNat + (tableIndex linear).toNat) := by
  have bound := linear.isLt
  apply BitVec.eq_of_toNat_eq
  rw [directoryIndex_toNat, pageNumber, tableIndex, BitVec.toNat_ofNat,
    BitVec.extractLsb'_toNat, BitVec.extractLsb'_toNat, Nat.shiftRight_eq_div_pow]
  omega

theorem pageNumber_append_pageOffset (linear : BitVec 32) :
    pageNumber linear ++ pageOffset linear = linear := by
  apply BitVec.eq_of_toNat_eq
  have bound := linear.isLt
  rw [BitVec.toNat_append, ← Nat.shiftLeft_add_eq_or_of_lt (pageOffset linear).isLt,
    Nat.shiftLeft_eq, pageNumber, pageOffset, BitVec.extractLsb'_toNat,
    BitVec.extractLsb'_toNat, Nat.shiftRight_eq_div_pow, Nat.shiftRight_eq_div_pow]
  omega

/-! ## Identity mappings -/

/-- The table in frame `f` maps the 4 MB of directory entry `d` to themselves. -/
def IdentityTable (m : Memory) (f d : Nat) : Prop :=
  WordsAt m (4096 * f) 1024 fun t => pageEntry (1024 * d + t)

/-- Directory entry `d` points to such a table. -/
def IdentityEntry (m : Memory) (cr3 : BitVec 32) (d : Nat) : Prop :=
  ∃ f < 2 ^ 20, load32 m (4096 * (frame cr3).toNat + 4 * d) = pageEntry f ∧
    IdentityTable m f d

/-- Through such an entry an address is mapped to itself, present and writable. -/
theorem IdentityEntry.translate_self {m : Memory} {cr3 linear : BitVec 32}
    (entry : IdentityEntry m cr3 (directoryIndex linear).toNat) (write : Bool) :
    translate write m cr3 linear = some linear := by
  rcases entry with ⟨f, small, pde, table⟩
  have pte : load32 m (entryAddress (pageEntry f) (tableIndex linear)) =
      pageEntry (1024 * (directoryIndex linear).toNat + (tableIndex linear).toNat) := by
    rw [entryAddress, frame_pageEntry, BitVec.toNat_ofNat, Nat.mod_eq_of_lt small]
    exact table _ (tableIndex linear).isLt
  have walk : load32 m (entryAddress cr3 (directoryIndex linear)) = pageEntry f := pde
  simp only [translate, walk, pte, allows_pageEntry, frame_pageEntry, if_true]
  rw [← pageNumber_eq, pageNumber_append_pageOffset]

section Accesses

variable {m : Memory} {cr3 : BitVec 32}

theorem readByte_identity {linear : BitVec 32}
    (identity : translate false m cr3 linear = some linear) :
    readByte m cr3 linear = some (m linear.toNat) := by
  rw [readByte, identity]
  rfl

theorem writeByte_identity {linear : BitVec 32}
    (identity : translate true m cr3 linear = some linear) (v : BitVec 8) :
    writeByte m cr3 linear v = some (store8 m linear.toNat v) := by
  rw [writeByte, identity]
  rfl

theorem writeDword_identity {linear : BitVec 32} (fits : linear.toNat + 4 ≤ 2 ^ 32)
    (identity : ∀ j < 4, translate true m cr3 (linear + BitVec.ofNat 32 j) =
      some (linear + BitVec.ofNat 32 j)) (v : BitVec 32) :
    writeDword m cr3 linear v = some (store32 m linear.toNat v) := by
  have offset : ∀ j < 4, (linear + BitVec.ofNat 32 j).toNat = linear.toNat + j := by
    intro j small
    rw [BitVec.toNat_add, BitVec.toNat_ofNat]
    omega
  have translated : translate true m cr3 linear = some linear := by
    simpa using identity 0 (by decide)
  have translated1 : translate true m cr3 (linear + 1) = some (linear + 1) :=
    identity 1 (by decide)
  have translated2 : translate true m cr3 (linear + 2) = some (linear + 2) :=
    identity 2 (by decide)
  have translated3 : translate true m cr3 (linear + 3) = some (linear + 3) :=
    identity 3 (by decide)
  have offset1 : (linear + 1).toNat = linear.toNat + 1 := offset 1 (by decide)
  have offset2 : (linear + 2).toNat = linear.toNat + 2 := offset 2 (by decide)
  have offset3 : (linear + 3).toNat = linear.toNat + 3 := offset 3 (by decide)
  simp only [writeDword, translated, translated1, translated2, translated3, offset1,
    offset2, offset3, Option.bind_eq_bind, Option.bind_some, store32_bytes]
  rfl

end Accesses

end PageWalk
