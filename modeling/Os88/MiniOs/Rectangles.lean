/-
Module: Os88.MiniOs.Rectangles
Purpose: `fillrect` against pixel-by-pixel drawing on the 1280 x 1024 screen.
Trusted boundary: none
Main exports: OnScreen, componentByte, byteOf, paint_onScreen, paint_anyOrder,
  byteOf_distinct, fillrect_as_setpixels
-/
import Os88.MiniOs.Pixels

namespace Os88.MiniOs

/-- The pixel lies in the 1280 x 1024 pixels of the screen. -/
def OnScreen (p : Pixel) : Prop :=
  (0 ≤ p.1 ∧ p.1 < 1280) ∧ 0 ≤ p.2 ∧ p.2 < 1024

/-- The place of a pixel in the order of the rows. -/
def pixelNumber (p : Pixel) : Nat :=
  (p.1 + p.2 * 1280).toNat

/-- What `setpixel` stores in byte `k` of a pixel. -/
def componentByte (b g r : Int) (k : Nat) : BitVec 8 :=
  if k = 0 then BitVec.ofInt 8 b
  else if k = 1 then BitVec.ofInt 8 g
  else if k = 2 then BitVec.ofInt 8 r
  else 0#8

/-- The address of byte `k` of a pixel. -/
def byteOf (p : Pixel) (k : Nat) : BitVec 32 :=
  pixelOffset p.1 p.2 + BitVec.ofNat 32 k

/-! ## One pixel -/

section OnePixel

variable {p q : Pixel}

theorem pixelNumber_lt (onScreen : OnScreen p) : pixelNumber p < 1310720 := by
  rcases onScreen with ⟨⟨left, right⟩, above, below⟩
  rw [pixelNumber]
  omega

/-- Pixels of the screen have numbers of their own. -/
theorem pixelNumber_inj (first : OnScreen p) (second : OnScreen q)
    (same : pixelNumber p = pixelNumber q) : p = q := by
  rcases first with ⟨⟨left, right⟩, above, below⟩
  rcases second with ⟨⟨left', right'⟩, above', below'⟩
  rw [pixelNumber, pixelNumber] at same
  apply Prod.ext
  · omega
  · omega

theorem pixelOffset_toNat (onScreen : OnScreen p) :
    (pixelOffset p.1 p.2).toNat = 4 * pixelNumber p := by
  have bound := pixelNumber_lt onScreen
  rcases onScreen with ⟨⟨left, -⟩, above, -⟩
  rw [pixelOffset, BitVec.toNat_ofInt]
  rw [pixelNumber] at bound ⊢
  omega

theorem byteOf_toNat (onScreen : OnScreen p) {k : Nat} (component : k < 4) :
    (byteOf p k).toNat = 4 * pixelNumber p + k := by
  have bound := pixelNumber_lt onScreen
  rw [byteOf, BitVec.toNat_add, pixelOffset_toNat onScreen, BitVec.toNat_ofNat]
  omega

/-- `setpixel` changes the bytes whose address, divided by 4, is the number of
the pixel. -/
theorem colorAt_onScreen (onScreen : OnScreen p) (b g r : Int)
    (video : BitVec 32 → BitVec 8) (position : BitVec 32) :
    colorAt (pixelOffset p.1 p.2) b g r video position =
      if position.toNat / 4 = pixelNumber p then
        componentByte b g r (position.toNat % 4)
      else video position := by
  have atByte : ∀ k < 4, (position = pixelOffset p.1 p.2 + BitVec.ofNat 32 k ↔
      position.toNat = 4 * pixelNumber p + k) := by
    intro k component
    rw [← byteOf_toNat onScreen component, BitVec.toNat_inj]
    rfl
  have zero := atByte 0 (by omega)
  rw [BitVec.add_zero, Nat.add_zero] at zero
  simp only [colorAt, componentByte, zero, atByte 1 (by omega), atByte 2 (by omega),
    atByte 3 (by omega)]
  split
  · rw [if_pos (by omega), if_pos (by omega)]
  · split
    · rw [if_pos (by omega), if_neg (by omega), if_pos (by omega)]
    · split
      · rw [if_pos (by omega), if_neg (by omega), if_neg (by omega), if_pos (by omega)]
      · split
        · rw [if_pos (by omega), if_neg (by omega), if_neg (by omega),
            if_neg (by omega)]
        · rw [if_neg (by omega)]

end OnePixel

/-! ## Several pixels -/

section Several

variable {pixels : List Pixel} (b g r : Int) (video : BitVec 32 → BitVec 8)

/-- Of the pixels written only the numbers matter, not their order. -/
theorem paint_onScreen (onScreen : ∀ p ∈ pixels, OnScreen p) (position : BitVec 32) :
    paint b g r pixels video position =
      if ∃ p ∈ pixels, position.toNat / 4 = pixelNumber p then
        componentByte b g r (position.toNat % 4)
      else video position := by
  induction pixels generalizing video with
  | nil => simp [paint]
  | cons p rest inductionHypothesis =>
      have here := onScreen p (List.mem_cons_self ..)
      have later := inductionHypothesis (colorAt (pixelOffset p.1 p.2) b g r video)
        fun q member => onScreen q (List.mem_cons_of_mem p member)
      show paint b g r rest (colorAt (pixelOffset p.1 p.2) b g r video) position = _
      rw [later, colorAt_onScreen here]
      simp only [List.mem_cons, exists_eq_or_imp]
      by_cases inRest : ∃ q ∈ rest, position.toNat / 4 = pixelNumber q
      · rw [if_pos inRest, if_pos (Or.inr inRest)]
      · rw [if_neg inRest]
        simp only [inRest, or_false]

/-- Lists of the same pixels paint the same picture. -/
theorem paint_anyOrder {others : List Pixel} (onScreen : ∀ p ∈ pixels, OnScreen p)
    (same : ∀ p, p ∈ others ↔ p ∈ pixels) :
    paint b g r others video = paint b g r pixels video := by
  funext position
  rw [paint_onScreen b g r video onScreen,
    paint_onScreen b g r video fun p member => onScreen p ((same p).mp member)]
  simp only [same]

/-- Calling `setpixel` for one pixel after the other. -/
theorem setpixels_eq (pixels : List Pixel) (s : Screen) :
    pixels.foldl (fun s p => setpixel p.1 p.2 b g r s) s =
      { s with video := paint b g r pixels s.video } := by
  induction pixels generalizing s with
  | nil => rfl
  | cons p rest inductionHypothesis => exact inductionHypothesis _

end Several

/-! ## Rectangles -/

/-- Row `i` and column `j` of a rectangle of width `w` and height `h`. -/
def InBox (w h i j : Int) : Prop :=
  (0 ≤ i ∧ i < h) ∧ 0 ≤ j ∧ j < w

section Rectangle

variable {x y w h : Int}

theorem mem_fillrectPixels_iff {p : Pixel} :
    p ∈ fillrectPixels x y w h ↔ ∃ i j, InBox w h i j ∧ p = (x + j, y + i) := by
  rw [mem_fillrectPixels]
  constructor
  · rintro ⟨⟨left, right⟩, above, below⟩
    refine ⟨p.2 - y, p.1 - x, ⟨⟨?_, ?_⟩, ?_, ?_⟩, Prod.ext ?_ ?_⟩ <;> omega
  · rintro ⟨i, j, ⟨⟨top, bottom⟩, left, right⟩, rfl⟩
    dsimp only
    omega

theorem inBox_onScreen (left : 0 ≤ x) (top : 0 ≤ y) (right : x + w ≤ 1280)
    (bottom : y + h ≤ 1024) {i j : Int} (inside : InBox w h i j) :
    OnScreen (x + j, y + i) := by
  rcases inside with ⟨⟨above, below⟩, before, behind⟩
  refine ⟨⟨?_, ?_⟩, ?_, ?_⟩ <;> dsimp only <;> omega

/-- The bytes of different pixels, and different bytes of one pixel, have
different addresses. -/
theorem byteOf_distinct {p q : Pixel} (first : OnScreen p) (second : OnScreen q)
    {k l : Nat} (component : k < 4) (component' : l < 4)
    (same : byteOf p k = byteOf q l) : p = q ∧ k = l := by
  have numbers := congrArg BitVec.toNat same
  rw [byteOf_toNat first component, byteOf_toNat second component'] at numbers
  exact ⟨pixelNumber_inj first second (by omega), by omega⟩

/-- `fillrect` leaves the memory that a `setpixel` for every pixel of the
rectangle leaves, in whatever order they come.  The bytes of these pixels are
the colour, and no other byte changes. -/
theorem fillrect_as_setpixels (s : Screen) (b g r : Int) (left : 0 ≤ x) (top : 0 ≤ y)
    (right : x + w ≤ 1280) (bottom : y + h ≤ 1024) :
    (∀ calls : List Pixel,
      (∀ p, p ∈ calls ↔ ∃ i j, InBox w h i j ∧ p = (x + j, y + i)) →
      calls.foldl (fun s p => setpixel p.1 p.2 b g r s) s = fillrect x y w h b g r s) ∧
    (∀ i j k i' j' l, InBox w h i j → InBox w h i' j' → k < 4 → l < 4 →
      byteOf (x + j, y + i) k = byteOf (x + j', y + i') l → i = i' ∧ j = j' ∧ k = l) ∧
    (∀ i j k, InBox w h i j → k < 4 →
      (fillrect x y w h b g r s).video (byteOf (x + j, y + i) k) =
        componentByte b g r k) ∧
    ∀ position, (∀ i j k, InBox w h i j → k < 4 → position ≠ byteOf (x + j, y + i) k) →
      (fillrect x y w h b g r s).video position = s.video position := by
  have inScreen : ∀ i j, InBox w h i j → OnScreen (x + j, y + i) :=
    fun i j inside => inBox_onScreen left top right bottom inside
  have pixelsOnScreen : ∀ p ∈ fillrectPixels x y w h, OnScreen p := by
    intro p member
    rcases mem_fillrectPixels_iff.mp member with ⟨i, j, inside, rfl⟩
    exact inScreen i j inside
  refine ⟨?_, ?_, ?_, ?_⟩
  · intro calls all
    rw [setpixels_eq]
    have sameVideo : paint b g r calls s.video = (fillrect x y w h b g r s).video := by
      rw [fillrect_video]
      apply paint_anyOrder b g r s.video pixelsOnScreen
      intro p
      rw [all, mem_fillrectPixels_iff]
    rw [sameVideo]
    rfl
  · intro i j k i' j' l inside inside' component component' same
    rcases byteOf_distinct (inScreen i j inside) (inScreen i' j' inside') component
      component' same with ⟨samePixel, sameComponent⟩
    rw [Prod.mk.injEq] at samePixel
    exact ⟨by omega, by omega, sameComponent⟩
  · intro i j k inside component
    have place := byteOf_toNat (inScreen i j inside) component
    rw [fillrect_video, paint_onScreen b g r s.video pixelsOnScreen, if_pos, place]
    · congr 1
      omega
    · refine ⟨(x + j, y + i), mem_fillrectPixels_iff.mpr ⟨i, j, inside, rfl⟩, ?_⟩
      rw [place]
      omega
  · intro position elsewhere
    rw [fillrect_video, paint_onScreen b g r s.video pixelsOnScreen, if_neg]
    rintro ⟨p, member, same⟩
    rcases mem_fillrectPixels_iff.mp member with ⟨i, j, inside, rfl⟩
    have component : position.toNat % 4 < 4 := Nat.mod_lt _ (by decide)
    apply elsewhere i j (position.toNat % 4) inside component
    apply BitVec.eq_of_toNat_eq
    rw [byteOf_toNat (inScreen i j inside) component, ← same]
    omega

/-- The rectangle of 100 x 2 pixels in the lower right corner. -/
theorem fillrect_as_setpixels_corner :
    fillrect 1180 1022 100 2 1 2 3 ⟨0, 0, fun _ => 7#8⟩ =
        (fillrectPixels 1180 1022 100 2).reverse.foldl
          (fun s p => setpixel p.1 p.2 1 2 3 s) ⟨0, 0, fun _ => 7#8⟩ := by
  refine ((fillrect_as_setpixels ⟨0, 0, fun _ => 7#8⟩ 1 2 3 (by decide) (by decide)
    (by decide) (by decide)).1 _ fun p => ?_).symm
  rw [List.mem_reverse, mem_fillrectPixels_iff]

end Rectangle

end Os88.MiniOs
