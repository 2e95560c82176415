/-
Module: Os88.MiniOs.Pixels
Purpose: Which pixels `fillrect` and `drawtext` write.
Trusted boundary: none
Main exports: Pixel, paint, fillrectPixels, drawtextPixels, fillrect_video,
  drawtext_video, mem_fillrectPixels, drawGlyphPixels_bounds
-/
import Os88.MiniOs.Screen

namespace Os88.MiniOs

open Execution

/-- The coordinates of a pixel. -/
abbrev Pixel := Int × Int

/-- Pixels written one after the other in one colour. -/
def paint (b g r : Int) (pixels : List Pixel) (video : BitVec 32 → BitVec 8) :
    BitVec 32 → BitVec 8 :=
  pixels.foldl (fun video p => colorAt (pixelOffset p.1 p.2) b g r video) video

/-! ## The pixels -/

/-- Row `i` of a rectangle. -/
def rowPixels (x y w : Int) (i : Nat) : List Pixel :=
  (List.range w.toNat).map fun (j : Nat) => (x + j, y + i)

def fillrectPixels (x y w h : Int) : List Pixel :=
  (List.range h.toNat).flatMap (rowPixels x y w)

def drawDotPixels (i k : Nat) (s : Screen) : List Pixel :=
  [2 * (8 - i), 2 * (8 - i) + 1].flatMap fun (w : Nat) =>
    [2 * k, 2 * k + 1].map fun (h : Nat) => (w + s.width, h + s.height)

/-- Column `i` is set in row `k` of a character. -/
def dotLit (charnum : Int) (k i : Nat) : Bool :=
  (textarray (charnum * 8 + k)).any fun row => row &&& (1#8 <<< i) ≠ 0#8

def drawColumnPixels (charnum : Int) (k : Nat) (s : Screen) (i : Nat) : List Pixel :=
  if dotLit charnum k i then drawDotPixels i k s else []

def drawRowPixels (charnum : Int) (s : Screen) (k : Nat) : List Pixel :=
  (List.range 8).flatMap (drawColumnPixels charnum k s)

def drawGlyphPixels (charnum : Int) (s : Screen) : List Pixel :=
  (List.range 8).flatMap (drawRowPixels charnum s)

def eraseCellPixels (s : Screen) : List Pixel :=
  fillrectPixels (wrapCursor s).width (wrapCursor s).height 16 16

def drawtextPixels (charnum : Int) (s : Screen) : List Pixel :=
  if charnum = -1 then eraseCellPixels s
  else
    let s := wrapCursor s
    if charnum = 10 then eraseCellPixels s
    else if charnum = 8 then
      let first := eraseCell s
      let second := eraseCell { first with width := first.width - 32 }
      eraseCellPixels s ++ eraseCellPixels { first with width := first.width - 32 } ++
        eraseCellPixels second
    else drawGlyphPixels charnum s

/-- The colour `drawtext` writes in: black for what it erases, else white. -/
def drawtextInk (charnum : Int) : Int :=
  if charnum = -1 ∨ charnum = 10 ∨ charnum = 8 then 0 else 255

/-! ## The pixels are what is written -/

section Paint

variable {b g r : Int} {video : BitVec 32 → BitVec 8}

theorem paint_append (first second : List Pixel) :
    paint b g r (first ++ second) video =
      paint b g r second (paint b g r first video) :=
  List.foldl_append

/-- The next pixel of a row. -/
theorem pixelOffset_add_left (x y : Int) (j : Nat) :
    pixelOffset x y + BitVec.ofNat 32 (j * 4) = pixelOffset (x + j) y := by
  rw [pixelOffset, pixelOffset, ← BitVec.ofInt_natCast, ← BitVec.ofInt_add]
  congr 1
  omega

/-- The same pixel one row below. -/
theorem pixelOffset_add_row (x y : Int) :
    pixelOffset x y + 5120#32 = pixelOffset x (y + 1) := by
  have row : 5120#32 = BitVec.ofInt 32 5120 := by decide
  rw [pixelOffset, pixelOffset, row, ← BitVec.ofInt_add]
  congr 1
  omega

theorem row_video (x y w : Int) (i : Nat) :
    (List.range w.toNat).foldl (fun video j =>
        colorAt (pixelOffset x (y + i) + BitVec.ofNat 32 (j * 4)) b g r video) video =
      paint b g r (rowPixels x y w i) video := by
  rw [paint, rowPixels, List.foldl_map]
  simp only [pixelOffset_add_left]

/-- `fillrect` writes its pixels row by row. -/
theorem fillrect_video (x y w h b g r : Int) (s : Screen) :
    (fillrect x y w h b g r s).video = paint b g r (fillrectPixels x y w h) s.video := by
  have rows : ∀ n, (List.range n).foldl
      (fun (filled : BitVec 32 × (BitVec 32 → BitVec 8)) (_ : Nat) =>
        (filled.1 + 5120#32, (List.range w.toNat).foldl (fun video j =>
          colorAt (filled.1 + BitVec.ofNat 32 (j * 4)) b g r video) filled.2))
      (pixelOffset x y, s.video) =
        (pixelOffset x (y + n),
          paint b g r ((List.range n).flatMap (rowPixels x y w)) s.video) := by
    intro n
    induction n with
    | zero => simp [paint]
    | succ n inductionHypothesis =>
        rw [List.range_succ, List.foldl_append, inductionHypothesis,
          List.flatMap_append, paint_append]
        simp only [List.foldl_cons, List.foldl_nil, row_video, pixelOffset_add_row,
          List.flatMap_cons, List.flatMap_nil, List.append_nil, Int.natCast_succ,
          Int.add_assoc]
  exact congrArg Prod.snd (rows h.toNat)

end Paint

section Drawtext

variable {charnum : Int} {s : Screen}

theorem wrapCursor_video (s : Screen) : (wrapCursor s).video = s.video := by
  simp only [wrapCursor]
  split <;> split <;> rfl

/-- `drawtext(-1)` -/
theorem eraseCell_video (s : Screen) :
    (eraseCell s).video = paint 0 0 0 (eraseCellPixels s) s.video := by
  rw [← wrapCursor_video s]
  exact fillrect_video _ _ _ _ _ _ _ _

theorem drawDot_paint (i k : Nat) (s : Screen) :
    drawDot i k s =
      { s with video := paint 255 255 255 (drawDotPixels i k s) s.video } :=
  rfl

/-- A loop that paints in every pass paints the pixels of all its passes. -/
theorem countLoop_paint {body : Nat → Screen → Option Screen} {pixels : Nat → List Pixel}
    {b g r : Int} {n : Nat} (s : Screen)
    (pass : ∀ i < n, ∀ video, body i { s with video := video } =
      some { s with video := paint b g r (pixels i) video }) :
    countLoop body 0 n s =
      some { s with video := paint b g r ((List.range n).flatMap pixels) s.video } := by
  have run : ∃ s', countLoop body 0 n s = some s' ∧ s' =
      { s with video := paint b g r ((List.range (0 + n)).flatMap pixels) s.video } := by
    apply countLoop_rule (fun (i : Nat) (s' : Screen) => s' =
      { s with video := paint b g r ((List.range i).flatMap pixels) s.video })
    · rfl
    rintro i s' - bound rfl
    refine ⟨_, pass i (by omega) _, ?_⟩
    rw [List.range_succ, List.flatMap_append, paint_append]
    simp only [List.flatMap_cons, List.flatMap_nil, List.append_nil]
  rcases run with ⟨s', ran, rfl⟩
  rw [ran, Nat.zero_add]

theorem drawColumn_paint {k : Nat} (first : 0 ≤ charnum) (last : charnum < 257)
    (inside : k < 8) (i : Nat) (s : Screen) :
    drawColumn charnum k i s = some
      { s with video := paint 255 255 255 (drawColumnPixels charnum k s i) s.video } := by
  rcases @textarray_total (charnum * 8 + k) (by omega) (by omega) with ⟨row, read⟩
  rw [drawColumn, read, drawColumnPixels, dotLit, read]
  simp only [Option.bind_eq_bind, Option.bind_some, Option.any_some, decide_eq_true_eq]
  split
  · rw [drawDot_paint]
    rfl
  · rfl

/-- A character is painted white. -/
theorem drawGlyph_paint (first : 0 ≤ charnum) (last : charnum < 257) (s : Screen) :
    drawGlyph charnum s = some
      { s with
        width := s.width + 16
        video := paint 255 255 255 (drawGlyphPixels charnum s) s.video } := by
  have painted : countLoop (fun k => countLoop (drawColumn charnum k) 0 8) 0 8 s =
      some { s with video := paint 255 255 255 (drawGlyphPixels charnum s) s.video } := by
    apply countLoop_paint
    intro k inside video
    apply countLoop_paint
    intro i _ video
    exact drawColumn_paint first last inside i { s with video := video }
  rw [drawGlyph, painted]
  rfl

/-- `drawtext` writes the pixels listed for it, in its ink. -/
theorem drawtext_video (known : charnum = -1 ∨ 0 ≤ charnum) (last : charnum < 257)
    {s' : Screen} (drawn : drawtext charnum s = some s') :
    s'.video = paint (drawtextInk charnum) (drawtextInk charnum) (drawtextInk charnum)
      (drawtextPixels charnum s) s.video := by
  unfold drawtext at drawn
  unfold drawtextPixels drawtextInk
  by_cases erased : charnum = -1
  · rw [if_pos erased] at drawn
    obtain rfl := Option.some.inj drawn
    rw [if_pos erased, if_pos (Or.inl erased)]
    exact eraseCell_video s
  · rw [if_neg erased] at drawn
    rw [if_neg erased, ← wrapCursor_video s]
    dsimp only at drawn ⊢
    by_cases newline : charnum = 10
    · rw [if_pos newline] at drawn
      obtain rfl := Option.some.inj drawn
      rw [if_pos newline, if_pos (Or.inr (Or.inl newline))]
      exact eraseCell_video (wrapCursor s)
    · rw [if_neg newline] at drawn ⊢
      by_cases backspace : charnum = 8
      · rw [if_pos backspace] at drawn
        obtain rfl := Option.some.inj drawn
        have first := eraseCell_video (wrapCursor s)
        have second := eraseCell_video
          { eraseCell (wrapCursor s) with width := (eraseCell (wrapCursor s)).width - 32 }
        have third := eraseCell_video (eraseCell
          { eraseCell (wrapCursor s) with width := (eraseCell (wrapCursor s)).width - 32 })
        rw [if_pos backspace, if_pos (Or.inr (Or.inr backspace)), paint_append,
          paint_append, ← first, ← second]
        exact third
      · rw [if_neg backspace, drawGlyph_paint (known.resolve_left erased) last] at drawn
        obtain rfl := Option.some.inj drawn
        rw [if_neg backspace, if_neg (by simp [erased, newline, backspace])]

end Drawtext

/-! ## Where the pixels lie -/

section Bounds

variable {x y : Int} {p : Pixel}

theorem mem_fillrectPixels {w h : Int} :
    p ∈ fillrectPixels x y w h ↔
      (x ≤ p.1 ∧ p.1 < x + w) ∧ (y ≤ p.2 ∧ p.2 < y + h) := by
  rcases p with ⟨px, py⟩
  simp only [fillrectPixels, rowPixels, List.mem_flatMap, List.mem_map, List.mem_range,
    Prod.mk.injEq]
  constructor
  · rintro ⟨i, row, j, column, rfl, rfl⟩
    omega
  · rintro ⟨⟨left, right⟩, above, below⟩
    exact ⟨(py - y).toNat, by omega, (px - x).toNat, by omega, by omega, by omega⟩

/-- A character stays in its cell, which begins two pixels right of the cursor. -/
theorem drawGlyphPixels_bounds {charnum : Int} {s : Screen}
    (member : p ∈ drawGlyphPixels charnum s) :
    (s.width + 2 ≤ p.1 ∧ p.1 < s.width + 18) ∧ s.height ≤ p.2 ∧ p.2 < s.height + 16 := by
  rcases List.mem_flatMap.mp member with ⟨k, row, inRow⟩
  rcases List.mem_flatMap.mp inRow with ⟨i, column, inColumn⟩
  rw [List.mem_range] at row column
  rw [drawColumnPixels] at inColumn
  split at inColumn
  · simp only [drawDotPixels, List.mem_flatMap, List.mem_map, List.mem_cons,
      List.not_mem_nil, or_false] at inColumn
    rcases inColumn with ⟨w, atW, h, atH, rfl⟩
    dsimp only
    omega
  · cases inColumn

/-- The underscore reaches the last row of its cell. -/
theorem drawGlyphPixels_underscore (s : Screen) :
    (s.width + 16, s.height + 15) ∈ drawGlyphPixels 0x5F s := by
  have lit : dotLit 0x5F 7 0 = true := by decide
  refine List.mem_flatMap.mpr ⟨7, by simp, List.mem_flatMap.mpr ⟨0, by simp, ?_⟩⟩
  rw [drawColumnPixels, if_pos lit]
  simp [drawDotPixels, Int.add_comm]

end Bounds

end Os88.MiniOs
