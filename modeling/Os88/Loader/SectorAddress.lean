/-
Module: Os88.Loader.SectorAddress
Purpose: `getchs` with its two divisions: the sector numbers that the cylinder,
  the head and the sector it stores lead back to.
Trusted boundary: none
Main exports: div, getchsDivisions, getchsDivisions_eq, Converts, address_divisions,
  getchs_fields, converts_iff, converts_of_large, converts_second_part
-/
import Os88.Loader.BootBlock

namespace Os88.Loader

/-- `div bx`: the quotient and the remainder of `dx:ax`.  A quotient of more than
16 bits is a divide error, as is a division by zero. -/
def div (dx ax bx : BitVec 16) : Option (BitVec 16 × BitVec 16) :=
  let dividend := dx.toNat * 2 ^ 16 + ax.toNat
  if bx = 0 ∨ 2 ^ 16 ≤ dividend / bx.toNat then none
  else some (BitVec.ofNat 16 (dividend / bx.toNat), BitVec.ofNat 16 (dividend % bx.toNat))

/-- `getchs` instruction by instruction. -/
def getchsDivisions (sectorsPerTrack numHeads ax : BitVec 16) : Option Chs := do
  let (ax, dx) ← div 0 ax sectorsPerTrack
  let dx := dx + 1
  let sect := dx.setWidth 8
  let (ax, dx) ← div 0 ax numHeads
  let cyl := ax.setWidth 8
  let head := dx.setWidth 8
  return { cyl, head, sect }

/-- With `dx` zero there is no overflow. -/
theorem div_zero_dx {bx : BitVec 16} (nonzero : bx ≠ 0) (ax : BitVec 16) :
    div 0 ax bx = some (ax / bx, ax % bx) := by
  have positive : 0 < bx.toNat := Nat.pos_of_ne_zero fun zero =>
    nonzero (BitVec.eq_of_toNat_eq zero)
  have small : ax.toNat / bx.toNat < 2 ^ 16 :=
    lt_of_le_of_lt (Nat.div_le_self _ _) ax.isLt
  have dividend : (0 : BitVec 16).toNat * 2 ^ 16 + ax.toNat = ax.toNat := by simp
  simp only [div, dividend]
  rw [if_neg (not_or.mpr ⟨nonzero, Nat.not_le.mpr small⟩), ← BitVec.toNat_udiv,
    ← BitVec.toNat_umod, BitVec.ofNat_toNat, BitVec.ofNat_toNat, BitVec.setWidth_eq,
    BitVec.setWidth_eq]

/-- The two forms of `getchs` are the same function. -/
theorem getchsDivisions_eq (sectorsPerTrack numHeads ax : BitVec 16) :
    getchsDivisions sectorsPerTrack numHeads ax = getchs sectorsPerTrack numHeads ax := by
  by_cases noSectors : sectorsPerTrack = 0
  · simp [getchsDivisions, getchs, div, noSectors]
  · by_cases noHeads : numHeads = 0
    · rw [getchs, if_pos (Or.inr noHeads), getchsDivisions, div_zero_dx noSectors]
      simp [div, noHeads]
    · rw [getchs, if_neg (not_or.mpr ⟨noSectors, noHeads⟩), getchsDivisions,
        div_zero_dx noSectors]
      simp only [Option.bind_eq_bind, Option.bind_some, div_zero_dx noHeads]
      rfl

/-- No divide error, and the stored bytes name a sector of the track and a head
that lead back to the number converted. -/
def Converts (sectorsPerTrack numHeads lba : BitVec 16) : Prop :=
  ∃ chs, getchsDivisions sectorsPerTrack numHeads lba = some chs ∧
    1 ≤ chs.sect.toNat ∧ chs.sect.toNat ≤ sectorsPerTrack.toNat ∧
    chs.head.toNat < numHeads.toNat ∧
    (chs.cyl.toNat * numHeads.toNat + chs.head.toNat) * sectorsPerTrack.toNat +
      chs.sect.toNat - 1 = lba.toNat

/-- The sector number behind `cyl` whole cylinders, `head` tracks and `sector`
sectors. -/
def address (sectors heads cyl head sector : Nat) : Nat :=
  (cyl * heads + head) * sectors + sector

/-- Dividing by the sectors and then by the heads inverts the address. -/
theorem address_divisions (sectors heads lba : Nat) :
    address sectors heads (lba / sectors / heads) (lba / sectors % heads) (lba % sectors) =
      lba := by
  rw [address, Nat.div_add_mod', Nat.div_add_mod']

/-- The address tells the cylinders apart. -/
theorem address_cylinder_inj {sectors heads cyl cyl' head sector : Nat}
    (someSectors : 0 < sectors) (someHeads : 0 < heads)
    (same : address sectors heads cyl head sector = address sectors heads cyl' head sector) :
    cyl = cyl' := by
  have tracks := Nat.eq_of_mul_eq_mul_right someSectors (Nat.add_right_cancel same)
  exact Nat.eq_of_mul_eq_mul_right someHeads (Nat.add_right_cancel tracks)

section Geometry

variable {sectorsPerTrack numHeads : BitVec 16}

/-- Of the three bytes only the cylinder can lose bits. -/
theorem getchs_fields (someSectors : 1 ≤ sectorsPerTrack.toNat)
    (sectors : sectorsPerTrack.toNat ≤ 63) (someHeads : 1 ≤ numHeads.toNat)
    (heads : numHeads.toNat ≤ 256) (lba : BitVec 16) :
    ∃ chs, getchsDivisions sectorsPerTrack numHeads lba = some chs ∧
      chs.cyl.toNat = lba.toNat / sectorsPerTrack.toNat / numHeads.toNat % 2 ^ 8 ∧
      chs.head.toNat = lba.toNat / sectorsPerTrack.toNat % numHeads.toNat ∧
      chs.sect.toNat = lba.toNat % sectorsPerTrack.toNat + 1 := by
  have noZero : ¬ (sectorsPerTrack = 0 ∨ numHeads = 0) := by
    rintro (rfl | rfl)
    · exact absurd someSectors (by decide)
    · exact absurd someHeads (by decide)
  have head := Nat.mod_lt (lba.toNat / sectorsPerTrack.toNat) someHeads
  have sector := Nat.mod_lt lba.toNat someSectors
  rw [getchsDivisions_eq, getchs, if_neg noZero]
  refine ⟨_, rfl, ?_, ?_, ?_⟩
  · simp only [BitVec.toNat_setWidth, BitVec.toNat_udiv]
  · simp only [BitVec.toNat_setWidth, BitVec.toNat_umod, BitVec.toNat_udiv]
    omega
  · have one : (1 : BitVec 16).toNat = 1 := rfl
    simp only [BitVec.toNat_setWidth, BitVec.toNat_add, BitVec.toNat_umod, one]
    omega

/-- A sector number is converted exactly when its cylinder fits the byte. -/
theorem converts_iff (someSectors : 1 ≤ sectorsPerTrack.toNat)
    (sectors : sectorsPerTrack.toNat ≤ 63) (someHeads : 1 ≤ numHeads.toNat)
    (heads : numHeads.toNat ≤ 256) (lba : BitVec 16) :
    Converts sectorsPerTrack numHeads lba ↔
      lba.toNat / sectorsPerTrack.toNat / numHeads.toNat < 2 ^ 8 := by
  rcases getchs_fields someSectors sectors someHeads heads lba with
    ⟨chs, ran, cyl, head, sect⟩
  have back := address_divisions sectorsPerTrack.toNat numHeads.toNat lba.toNat
  have sector := Nat.mod_lt lba.toNat someSectors
  constructor
  · rintro ⟨chs', ran', -, -, -, leads⟩
    obtain rfl := Option.some.inj (ran.symm.trans ran')
    rw [head, sect, ← Nat.add_assoc, Nat.add_sub_cancel] at leads
    rw [← address_cylinder_inj someSectors someHeads (leads.trans back.symm)]
    exact chs.cyl.isLt
  · intro small
    rw [Nat.mod_eq_of_lt small] at cyl
    refine ⟨chs, ran, by omega, by omega, ?_, ?_⟩
    · rw [head]
      exact Nat.mod_lt _ someHeads
    · rw [cyl, head, sect, ← Nat.add_assoc, Nat.add_sub_cancel]
      exact back

/-- A disk with 63 sectors and 16 heads. -/
theorem converts_iff_disk :
    1 ≤ (63#16).toNat ∧ (63#16).toNat ≤ 63 ∧ 1 ≤ (16#16).toNat ∧ (16#16).toNat ≤ 256 ∧
      Converts 63#16 16#16 65535#16 := by
  have someSectors : 1 ≤ (63#16).toNat := by decide
  have sectors : (63#16).toNat ≤ 63 := by decide
  have someHeads : 1 ≤ (16#16).toNat := by decide
  have heads : (16#16).toNat ≤ 256 := by decide
  exact ⟨someSectors, sectors, someHeads, heads,
    (converts_iff someSectors sectors someHeads heads 65535#16).mpr (by decide)⟩

/-- With one head and one sector to a track, sector 256 is taken for sector 0. -/
theorem not_converts_256 :
    getchsDivisions 1#16 1#16 256#16 = some { cyl := 0#8, head := 0#8, sect := 1#8 } ∧
    ¬ (∀ sectorsPerTrack numHeads lba : BitVec 16,
      1 ≤ sectorsPerTrack.toNat → sectorsPerTrack.toNat ≤ 63 →
      1 ≤ numHeads.toNat → numHeads.toNat ≤ 256 → Converts sectorsPerTrack numHeads lba) := by
  have ran : getchsDivisions 1#16 1#16 256#16 =
      some { cyl := 0#8, head := 0#8, sect := 1#8 } := rfl
  refine ⟨ran, fun all => ?_⟩
  rcases all 1#16 1#16 256#16 (by decide) (by decide) (by decide) (by decide) with
    ⟨chs, ran', -, -, -, leads⟩
  obtain rfl := Option.some.inj (ran.symm.trans ran')
  exact absurd leads (by decide)

/-- On disks with 256 sectors or more to a cylinder every number is converted. -/
theorem converts_of_large (someSectors : 1 ≤ sectorsPerTrack.toNat)
    (sectors : sectorsPerTrack.toNat ≤ 63) (someHeads : 1 ≤ numHeads.toNat)
    (heads : numHeads.toNat ≤ 256)
    (large : 2 ^ 8 ≤ sectorsPerTrack.toNat * numHeads.toNat) (lba : BitVec 16) :
    Converts sectorsPerTrack numHeads lba := by
  rw [converts_iff someSectors sectors someHeads heads, Nat.div_div_eq_div_mul,
    Nat.div_lt_iff_lt_mul (by omega)]
  calc lba.toNat < 2 ^ 8 * 2 ^ 8 := lba.isLt
    _ ≤ 2 ^ 8 * (sectorsPerTrack.toNat * numHeads.toNat) := Nat.mul_le_mul_left _ large

/-- The second part of the kernel is read from where it lies, on any disk. -/
theorem converts_second_part (someSectors : 1 ≤ sectorsPerTrack.toNat)
    (sectors : sectorsPerTrack.toNat ≤ 63) (someHeads : 1 ≤ numHeads.toNat)
    (heads : numHeads.toNat ≤ 256) : Converts sectorsPerTrack numHeads 123 := by
  rw [converts_iff someSectors sectors someHeads heads, Nat.div_div_eq_div_mul]
  have small : (123 : BitVec 16).toNat < 2 ^ 8 := by decide
  exact lt_of_le_of_lt (Nat.div_le_self _ _) small

end Geometry

end Os88.Loader
