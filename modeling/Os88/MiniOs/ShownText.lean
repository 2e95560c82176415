/-
Module: Os88.MiniOs.ShownText
Purpose: Which pixels of a typed line stay lit while the line grows.
Trusted boundary: none
Main exports: Lit, litBy, TextIntact, cellPixels, lit_paint_white, lit_paint_black,
  pressDrawings_screen, Shown, shown_press, shown_run, dotLit_of_overhang,
  narrow_keys, litBy_in_run, star_not_last, textIntact_of_narrow, textIntact_iff
-/
import Os88.MiniOs.ComparedLine
import Os88.MiniOs.Rectangles
import Os88.MiniOs.TextArea

namespace Os88.MiniOs

open Execution
open Keyboard
open StringLib

/-- A pixel is white. -/
def Lit (p : Pixel) (video : BitVec 32 → BitVec 8) : Prop :=
  ∀ k < 3, video (byteOf p k) = 255#8

/-- The screen on which a key draws its character: the cursor is erased. -/
def erasedScreen (s : Screen) : Screen :=
  let s := eraseCell { s with width := s.width - 16 }
  { s with width := s.width - 16 }

/-- The pixels that `drawtext` lights for the character of a scancode. -/
def litBy (buf : BitVec 8) (s : Keyboard) : List Pixel :=
  if buf &&& 0x80#8 = 0#8 then drawtextPixels (keyOf buf).toInt (erasedScreen s.screen) else []

/-- After each scancode every pixel that was lit for a character so far is lit. -/
def TextIntact (env : Surroundings) (codes : List (BitVec 8)) (s : Keyboard) : Prop :=
  ∀ before, before <+: codes → ∃ s', runAll (scan env) before s = some s' ∧
    ∀ earlier buf middle, earlier ++ [buf] <+: before →
      runAll (scan env) earlier s = some middle →
        ∀ p ∈ litBy buf middle, Lit p s'.screen.video

/-! ## Lit pixels -/

section Painting

variable {pixels : List Pixel} {p : Pixel} {video : BitVec 32 → BitVec 8}

/-- A byte of a pixel after painting. -/
theorem paint_byteOf (onScreen : ∀ q ∈ pixels, OnScreen q) (here : OnScreen p) (ink : Int)
    {k : Nat} (component : k < 4) :
    paint ink ink ink pixels video (byteOf p k) =
      if p ∈ pixels then componentByte ink ink ink k else video (byteOf p k) := by
  have number : (byteOf p k).toNat / 4 = pixelNumber p := by
    rw [byteOf_toNat here component]
    omega
  have place : (byteOf p k).toNat % 4 = k := by
    rw [byteOf_toNat here component]
    omega
  have same : (∃ q ∈ pixels, pixelNumber p = pixelNumber q) ↔ p ∈ pixels := by
    constructor
    · rintro ⟨q, member, numbers⟩
      rwa [pixelNumber_inj here (onScreen q member) numbers]
    · exact fun member => ⟨p, member, rfl⟩
  rw [paint_onScreen ink ink ink video onScreen, number, place]
  simp only [same]

theorem lit_paint_white (onScreen : ∀ q ∈ pixels, OnScreen q) (here : OnScreen p) :
    Lit p (paint 255 255 255 pixels video) ↔ p ∈ pixels ∨ Lit p video := by
  by_cases member : p ∈ pixels
  · refine iff_of_true ?_ (Or.inl member)
    intro k component
    rw [paint_byteOf onScreen here 255 (by omega), if_pos member]
    have white : ∀ k : Fin 3, componentByte 255 255 255 k.val = 255#8 := by decide
    exact white ⟨k, component⟩
  · simp only [member, false_or]
    apply forall_congr'
    intro k
    apply forall_congr'
    intro component
    rw [paint_byteOf onScreen here 255 (by omega), if_neg member]

theorem lit_paint_black (onScreen : ∀ q ∈ pixels, OnScreen q) (here : OnScreen p) :
    Lit p (paint 0 0 0 pixels video) ↔ p ∉ pixels ∧ Lit p video := by
  by_cases member : p ∈ pixels
  · refine iff_of_false ?_ fun both => both.1 member
    intro lit
    have dark := lit 0 (by decide)
    rw [paint_byteOf onScreen here 0 (by decide), if_pos member] at dark
    exact absurd dark (by decide)
  · simp only [member, not_false_eq_true, true_and]
    apply forall_congr'
    intro k
    apply forall_congr'
    intro component
    rw [paint_byteOf onScreen here 0 (by omega), if_neg member]

end Painting

/-! ## The drawings of a key on the first line -/

/-- The pixels of a character in cell `n` of the first line. -/
def cellPixels (ch : BitVec 8) (n : Nat) : List Pixel :=
  drawGlyphPixels ch.toInt ⟨16 * n, 35, fun _ => 0#8⟩

/-- The pixels of the cursor behind cell `n`. -/
def cursorPixels (n : Nat) : List Pixel :=
  drawGlyphPixels 0x5F ⟨16 * n + 14, 35, fun _ => 0#8⟩

/-- The pixels of a character depend on the cursor only. -/
theorem drawGlyphPixels_cursor {s s' : Screen} (width : s.width = s'.width)
    (height : s.height = s'.height) (charnum : Int) :
    drawGlyphPixels charnum s = drawGlyphPixels charnum s' := by
  have rows : drawRowPixels charnum s = drawRowPixels charnum s' := by
    funext k
    have columns : drawColumnPixels charnum k s = drawColumnPixels charnum k s' := by
      funext i
      simp only [drawColumnPixels, drawDotPixels, width, height]
    rw [drawRowPixels, drawRowPixels, columns]
  rw [drawGlyphPixels, drawGlyphPixels, rows]

section Drawing

variable {s : Screen} {ch : BitVec 8} {n : Nat}

/-- On a line that is not full the cursor is not moved. -/
theorem wrapCursor_inLine (left : 0 ≤ s.width) (right : s.width ≤ 1260) :
    wrapCursor s = s := by
  have within : ¬ 1260 < s.width := by omega
  have stays : ¬ (s.width < -2 ∧ 34 < s.height) := by omega
  simp only [wrapCursor, if_neg within, if_neg stays]

theorem eraseCell_inLine (left : 0 ≤ s.width) (right : s.width ≤ 1260) :
    eraseCell s = { s with
      width := s.width + 16
      video := paint 0 0 0 (fillrectPixels s.width s.height 16 16) s.video } := by
  have video := fillrect_video s.width s.height 16 16 0 0 0 s
  simp only [eraseCell, wrapCursor_inLine left right, video]
  rfl

/-- A printable character is one without a meaning of its own. -/
theorem toInt_of_printable (printable : Printable ch) :
    (32 ≤ ch.toInt ∧ ch.toInt ≤ 126) ∧ ch.toInt ≠ -1 ∧ ch.toInt ≠ 10 ∧ ch.toInt ≠ 8 := by
  have bounds : 0x20 ≤ ch.toNat ∧ ch.toNat ≤ 0x7E := printable
  have value : ch.toInt = ch.toNat := by
    rw [BitVec.toInt_eq_toNat_cond, if_pos (by omega)]
  omega

theorem drawtext_printable (printable : Printable ch) (left : 0 ≤ s.width)
    (right : s.width ≤ 1260) :
    drawtext ch.toInt s = some { s with
        width := s.width + 16
        video := paint 255 255 255 (drawGlyphPixels ch.toInt s) s.video } ∧
      drawtextPixels ch.toInt s = drawGlyphPixels ch.toInt s := by
  rcases toInt_of_printable printable with ⟨bounds, notErase, notEnter, notBackspace⟩
  constructor
  · simp only [drawtext, if_neg notErase, if_neg notEnter, if_neg notBackspace,
      wrapCursor_inLine left right]
    exact drawGlyph_paint (by omega) (by omega) s
  · simp only [drawtextPixels, if_neg notErase, if_neg notEnter, if_neg notBackspace,
      wrapCursor_inLine left right]

/-- The video memory after the character for cell `n`. -/
def pressedVideo (ch : BitVec 8) (n : Nat) (video : BitVec 32 → BitVec 8) :
    BitVec 32 → BitVec 8 :=
  paint 255 255 255 (cursorPixels n)
    (paint 255 255 255 (cellPixels ch n)
      (paint 0 0 0 (fillrectPixels (16 * n) 35 16 16) video))

/-- The cursor of the handler erased: the screen for the character. -/
theorem erasedScreen_inLine (short : n < 70) (width : s.width = 16 * n + 16)
    (height : s.height = 35) :
    erasedScreen s = ⟨16 * n, 35, paint 0 0 0 (fillrectPixels (16 * n) 35 16 16) s.video⟩ := by
  have left : s.width - 16 = 16 * n := by omega
  have erased := @eraseCell_inLine ⟨16 * n, 35, s.video⟩ (by dsimp only; omega)
    (by dsimp only; omega)
  simp only [erasedScreen, left, height]
  simp only [erased, Int.add_sub_cancel]

/-- The cursor drawn behind cell `n`. -/
theorem cursorDrawings_screen (short : n < 70) (width : s.width = 16 * n + 16)
    (height : s.height = 35) :
    runAll Drawing.apply cursorDrawings s =
      some ⟨16 * n + 32, 35, paint 255 255 255 (cursorPixels n) s.video⟩ := by
  have left : s.width + -2 = 16 * n + 14 := by omega
  have drawn := @drawGlyph_paint 0x5F (by decide) (by decide) ⟨16 * n + 14, 35, s.video⟩
  have cursor : drawtext 0x5F ⟨16 * n + 14, 35, s.video⟩ =
      drawGlyph 0x5F (wrapCursor ⟨16 * n + 14, 35, s.video⟩) := rfl
  rw [wrapCursor_inLine (by dsimp only; omega) (by dsimp only; omega), drawn] at cursor
  have pixels : drawGlyphPixels 0x5F ⟨16 * n + 14, 35, s.video⟩ = cursorPixels n :=
    drawGlyphPixels_cursor rfl rfl _
  simp only [cursorDrawings, runAll, Drawing.apply, Option.bind_some, left, height, cursor,
    pixels]
  refine congrArg some ?_
  rw [Screen.mk.injEq]
  exact ⟨by omega, rfl, rfl⟩

/-- The operations of a printable key behind a line of `n` characters. -/
theorem pressDrawings_screen (printable : Printable ch) (short : n < 70)
    (width : s.width = 16 * n + 16) (height : s.height = 35) (line : List (BitVec 8)) :
    runAll Drawing.apply (pressDrawings ch line) s =
      some ⟨16 * n + 32, 35, pressedVideo ch n s.video⟩ := by
  have noEnter : ch ≠ 0x0A#8 := by
    rintro rfl
    exact absurd printable (by decide)
  have drawings : pressDrawings ch line =
      [.shift (-16), .text (-1), .shift (-16)] ++ ([.text ch.toInt] ++ cursorDrawings) := by
    simp [pressDrawings, noEnter]
  have erased : runAll Drawing.apply [.shift (-16), .text (-1), .shift (-16)] s =
      some (erasedScreen s) := rfl
  have drawn := (@drawtext_printable
    ⟨16 * n, 35, paint 0 0 0 (fillrectPixels (16 * n) 35 16 16) s.video⟩ ch printable
    (by dsimp only; omega) (by dsimp only; omega)).1
  have glyph : drawGlyphPixels ch.toInt
      ⟨16 * n, 35, paint 0 0 0 (fillrectPixels (16 * n) 35 16 16) s.video⟩ = cellPixels ch n :=
    drawGlyphPixels_cursor rfl rfl _
  rw [glyph] at drawn
  rw [drawings, runAll_append, erased, Option.bind_some, erasedScreen_inLine short width height,
    List.singleton_append, runAll_cons, pressedVideo]
  show (drawtext _ _).bind _ = _
  rw [drawn, Option.bind_some]
  generalize paint 0 0 0 (fillrectPixels (16 * n) 35 16 16) s.video = erasedVideo
  exact cursorDrawings_screen short rfl rfl

end Drawing

/-! ## The cells -/

section Cells

variable {p : Pixel} {ch : BitVec 8} {n : Nat} {video : BitVec 32 → BitVec 8}

/-- A character begins two pixels right of its cell and ends two pixels right of it. -/
theorem cellPixels_bounds (member : p ∈ cellPixels ch n) :
    (16 * (n : Int) + 2 ≤ p.1 ∧ p.1 < 16 * n + 18) ∧ 35 ≤ p.2 ∧ p.2 < 51 := by
  have bounds := drawGlyphPixels_bounds member
  dsimp only at bounds
  omega

theorem cursorPixels_bounds (member : p ∈ cursorPixels n) :
    (16 * (n : Int) + 16 ≤ p.1 ∧ p.1 < 16 * n + 32) ∧ 35 ≤ p.2 ∧ p.2 < 51 := by
  have bounds := drawGlyphPixels_bounds member
  dsimp only at bounds
  omega

theorem cellPixels_onScreen (short : n < 70) : ∀ q ∈ cellPixels ch n, OnScreen q := by
  intro q member
  have bounds := cellPixels_bounds member
  rw [OnScreen]
  omega

/-- What is lit after a key. -/
theorem lit_pressedVideo (short : n < 70) (here : OnScreen p) :
    Lit p (pressedVideo ch n video) ↔
      p ∈ cursorPixels n ∨ p ∈ cellPixels ch n ∨
        (p ∉ fillrectPixels (16 * n) 35 16 16 ∧ Lit p video) := by
  have cursor : ∀ q ∈ cursorPixels n, OnScreen q := by
    intro q member
    have bounds := cursorPixels_bounds member
    rw [OnScreen]
    omega
  have erased : ∀ q ∈ fillrectPixels (16 * n) 35 16 16, OnScreen q := by
    intro q member
    have bounds := mem_fillrectPixels.mp member
    rw [OnScreen]
    omega
  rw [pressedVideo, lit_paint_white cursor here, lit_paint_white (cellPixels_onScreen short) here,
    lit_paint_black erased here]

/-- A pixel of an earlier character: the next key erases what reaches into its
cell, and later keys leave the pixel as it is. -/
theorem lit_earlier_cell {j : Nat} (earlier : j < n) (short : n < 70)
    (member : p ∈ cellPixels ch j) {ch' : BitVec 8} :
    Lit p (pressedVideo ch' n video) ↔
      (j + 1 = n → p.1 < 16 * ((j : Int) + 1)) ∧ Lit p video := by
  have bounds := cellPixels_bounds member
  have here := cellPixels_onScreen (by omega : j < 70) p member
  have notCursor : p ∉ cursorPixels n := by
    intro inCursor
    have cursor := cursorPixels_bounds inCursor
    omega
  have notCell : p ∉ cellPixels ch' n := by
    intro inCell
    have cell := cellPixels_bounds inCell
    omega
  rw [lit_pressedVideo short here, mem_fillrectPixels]
  simp only [notCursor, notCell, false_or]
  apply and_congr_left
  intro _
  constructor
  · intro outside next
    by_contra reaches
    exact outside (by omega)
  · intro before inside
    have next : j + 1 = n := by omega
    have left := before next
    omega

end Cells

/-! ## A line -/

/-- A line of printable characters on the first line of the screen: the pixels of a
character are lit, for all but the last without those in the next cell. -/
structure Shown (chars : List (BitVec 8)) (s : Keyboard) : Prop where
  editing : Editing chars s
  width : s.screen.width = 16 * chars.length + 16
  height : s.screen.height = 35
  lit : ∀ j ch, chars[j]? = some ch → ∀ p ∈ cellPixels ch j,
    (Lit p s.screen.video ↔ j + 1 = chars.length ∨ p.1 < 16 * ((j : Int) + 1))

section Lines

variable {env : Surroundings} {line : List (BitVec 8)} {s : Keyboard} {buf : BitVec 8}

theorem shown_press (shown : Shown line s) (pressed : buf &&& 0x80#8 = 0#8)
    (printable : Printable (keyOf buf)) (short : line.length < 70) :
    ∃ s', scan env buf s = some s' ∧ Shown (line ++ [keyOf buf]) s' := by
  have noEnter : keyOf buf ≠ 0x0A#8 := by
    intro enter
    rw [enter] at printable
    exact absurd printable (by decide)
  obtain ⟨s', ran, drawn, editing⟩ := @isrKeyb_editing_character env s buf line
    shown.editing pressed (by omega) noEnter
  rw [pressDrawings_screen printable short shown.width shown.height] at drawn
  have screen := Option.some.inj drawn
  refine ⟨s', by rw [scan, ran]; rfl, editing, ?_, ?_, ?_⟩
  · rw [← screen, List.length_append, List.length_singleton]
    dsimp only
    omega
  · rw [← screen]
  · intro j ch atPlace p member
    rw [← screen, List.length_append, List.length_singleton]
    rcases Nat.lt_trichotomy j line.length with earlier | rfl | beyond
    · rw [List.getElem?_append_left earlier] at atPlace
      have before := shown.lit j ch atPlace p member
      rw [lit_earlier_cell earlier short member, before]
      constructor
      · rintro ⟨next, last | left⟩
        · exact Or.inr (next last)
        · exact Or.inr left
      · rintro (last | left)
        · omega
        · exact ⟨fun _ => left, Or.inr left⟩
    · rw [List.getElem?_concat_length] at atPlace
      obtain rfl := Option.some.inj atPlace
      have here := cellPixels_onScreen short p member
      exact iff_of_true ((lit_pressedVideo short here).mpr (Or.inr (Or.inl member))) (Or.inl rfl)
    · rw [List.getElem?_eq_none (by simp; omega)] at atPlace
      cases atPlace

theorem shown_release (shown : Shown line s) (released : buf &&& 0x80#8 ≠ 0#8) :
    ∃ s', scan env buf s = some s' ∧ Shown line s' := by
  obtain ⟨s', ran, screen, editing⟩ :=
    @isrKeyb_editing_release env s buf line shown.editing released
  refine ⟨s', by rw [scan, ran]; rfl, editing, ?_, ?_, ?_⟩
  · rw [screen]
    exact shown.width
  · rw [screen]
    exact shown.height
  · rw [screen]
    exact shown.lit

/-- A line of at most 70 printable keys is shown. -/
theorem shown_run {codes : List (BitVec 8)} (start : Shown [] s)
    (printable : ∀ ch ∈ typed codes, Printable ch) (short : (typed codes).length ≤ 70) :
    ∃ s', runAll (scan env) codes s = some s' ∧ Shown (typed codes) s' := by
  refine @run_typed env codes s Shown Printable 70 start ?_ ?_ printable short
  · intro chars s buf shown pressed printable room
    exact shown_press shown pressed printable room
  · intro chars s buf shown released
    exact shown_release shown released

theorem litBy_press (shown : Shown line s) (pressed : buf &&& 0x80#8 = 0#8)
    (printable : Printable (keyOf buf)) (short : line.length < 70) :
    litBy buf s = cellPixels (keyOf buf) line.length := by
  have drawn := (@drawtext_printable (erasedScreen s.screen) _ printable
    (by rw [erasedScreen_inLine short shown.width shown.height]; dsimp only; omega)
    (by rw [erasedScreen_inLine short shown.width shown.height]; dsimp only; omega)).2
  rw [litBy, if_pos pressed, drawn, erasedScreen_inLine short shown.width shown.height]
  exact drawGlyphPixels_cursor rfl rfl _

end Lines

/-! ## Characters that reach into the next cell -/

/-- Only the lowest bit of a row is drawn behind the cell. -/
theorem dotLit_of_overhang {charnum : Int} {s : Screen} {p : Pixel}
    (member : p ∈ drawGlyphPixels charnum s) (reaches : s.width + 16 ≤ p.1) :
    ∃ k : Fin 8, dotLit charnum k.val 0 = true := by
  rcases List.mem_flatMap.mp member with ⟨k, row, inRow⟩
  rcases List.mem_flatMap.mp inRow with ⟨i, column, inColumn⟩
  rw [List.mem_range] at row column
  rw [drawColumnPixels] at inColumn
  split at inColumn
  case isTrue lit =>
    simp only [drawDotPixels, List.mem_flatMap, List.mem_map, List.mem_cons,
      List.not_mem_nil, or_false] at inColumn
    rcases inColumn with ⟨w, atW, h, atH, rfl⟩
    have lowest : i = 0 := by
      dsimp only at reaches
      omega
    rw [lowest] at lit
    exact ⟨⟨k, row⟩, lit⟩
  case isFalse => cases inColumn

/-- Of the printable keys only the star has that bit. -/
theorem narrow_keys : ∀ ch ∈ kbdus, Printable ch → ch ≠ 0x2A#8 →
    ∀ k : Fin 8, dotLit ch.toInt k.val 0 = false := by
  decide +kernel

theorem keyOf_mem {buf : BitVec 8} (printable : Printable (keyOf buf)) :
    keyOf buf ∈ kbdus := by
  rw [keyOf] at printable ⊢
  by_cases listed : buf.toNat < kbdus.length
  · rw [List.getD_eq_getElem _ _ listed]
    exact List.getElem_mem listed
  · rw [List.getD_eq_default _ _ (Nat.le_of_not_lt listed)] at printable
    exact absurd printable (by decide)

/-- A key other than the star stays in front of the next cell. -/
theorem cellPixels_narrow {buf : BitVec 8} {j : Nat} {p : Pixel}
    (printable : Printable (keyOf buf)) (other : keyOf buf ≠ 0x2A#8)
    (member : p ∈ cellPixels (keyOf buf) j) : p.1 < 16 * ((j : Int) + 1) := by
  by_contra reaches
  rcases dotLit_of_overhang member (by dsimp only; omega) with ⟨k, lit⟩
  rw [narrow_keys _ (keyOf_mem printable) printable other k] at lit
  cases lit

/-- The star has a pixel in the next cell. -/
theorem star_reaches (j : Nat) : (16 * (j : Int) + 16, 41) ∈ cellPixels 0x2A#8 j := by
  have lit : dotLit (0x2A#8).toInt 3 0 = true := by decide
  refine List.mem_flatMap.mpr ⟨3, by simp, List.mem_flatMap.mpr ⟨0, by simp, ?_⟩⟩
  rw [drawColumnPixels, if_pos lit]
  simp [drawDotPixels, Int.add_comm]

/-! ## The keys of a run -/

theorem typed_append (first second : Line) :
    typed (first ++ second) = typed first ++ typed second := by
  rw [typed, List.filter_append, List.map_append]
  rfl

/-- The scancode of a typed character. -/
theorem exists_scancode {codes : Line} {j : Nat} {ch : BitVec 8}
    (atPlace : (typed codes)[j]? = some ch) :
    ∃ earlier buf, earlier ++ [buf] <+: codes ∧ buf &&& 0x80#8 = 0#8 ∧ keyOf buf = ch ∧
      (typed earlier).length = j := by
  induction codes using List.reverseRecOn with
  | nil => cases atPlace
  | append_singleton codes buf inductionHypothesis =>
      have grow : ∀ {earlier : Line}, earlier <+: codes → earlier <+: codes ++ [buf] :=
        fun isPrefix => isPrefix.trans (List.prefix_append _ _)
      by_cases pressed : buf &&& 0x80#8 = 0#8
      · rw [typed_concat_press pressed] at atPlace
        rcases Nat.lt_trichotomy j (typed codes).length with before | rfl | beyond
        · rw [List.getElem?_append_left before] at atPlace
          rcases inductionHypothesis atPlace with ⟨earlier, other, isPrefix, rest⟩
          exact ⟨earlier, other, grow isPrefix, rest⟩
        · rw [List.getElem?_concat_length] at atPlace
          exact ⟨codes, buf, List.prefix_refl _, pressed, Option.some.inj atPlace, rfl⟩
        · rw [List.getElem?_eq_none (by simp; omega)] at atPlace
          cases atPlace
      · rw [typed_concat_release pressed] at atPlace
        rcases inductionHypothesis atPlace with ⟨earlier, other, isPrefix, rest⟩
        exact ⟨earlier, other, grow isPrefix, rest⟩

section Runs

variable {env : Surroundings} {codes : Line} {s : Keyboard}

/-- A key pressed in a run: the characters around it and the pixels it lights. -/
theorem litBy_in_run (start : Shown [] s) (printable : ∀ ch ∈ typed codes, Printable ch)
    (short : (typed codes).length ≤ 70) {earlier : Line} {buf : BitVec 8} {middle : Keyboard}
    (inside : earlier ++ [buf] <+: codes) (pressed : buf &&& 0x80#8 = 0#8)
    (ran : runAll (scan env) earlier s = some middle) :
    (typed codes)[(typed earlier).length]? = some (keyOf buf) ∧
      litBy buf middle = cellPixels (keyOf buf) (typed earlier).length := by
  rcases inside with ⟨rest, rfl⟩
  rw [typed_append, typed_concat_press pressed, List.append_assoc] at printable short ⊢
  rw [List.length_append, List.length_append, List.length_singleton] at short
  rcases @shown_run env s earlier start
      (fun ch member => printable ch (List.mem_append_left _ member)) (by omega) with
    ⟨reached, ran', shown⟩
  obtain rfl := Option.some.inj (ran.symm.trans ran')
  refine ⟨?_, litBy_press shown pressed (printable _ (by simp)) (by omega)⟩
  rw [List.getElem?_append_right (Nat.le_refl _), Nat.sub_self]
  rfl

/-- A run reaches the scancode of each of its prefixes with the line typed so far. -/
theorem shown_before (start : Shown [] s) (printable : ∀ ch ∈ typed codes, Printable ch)
    (short : (typed codes).length ≤ 70) {before : Line} (isPrefix : before <+: codes) :
    ∃ s', runAll (scan env) before s = some s' ∧ Shown (typed before) s' := by
  rcases isPrefix with ⟨rest, rfl⟩
  rw [typed_append] at printable short
  rw [List.length_append] at short
  exact shown_run start (fun ch member => printable ch (List.mem_append_left _ member)) (by omega)

/-- A star that is not the last character loses a pixel. -/
theorem star_not_last (start : Shown [] s) (printable : ∀ ch ∈ typed codes, Printable ch)
    (short : (typed codes).length ≤ 70) (star : 0x2A#8 ∈ (typed codes).dropLast) :
    ¬ TextIntact env codes s := by
  intro intact
  rcases List.getElem?_of_mem star with ⟨j, atPlace⟩
  have inside : j < (typed codes).length - 1 := by
    have bound := (List.getElem?_eq_some_iff.mp atPlace).1
    rwa [List.length_dropLast] at bound
  rw [List.getElem?_dropLast, if_pos inside] at atPlace
  rcases exists_scancode atPlace with ⟨earlier, buf, isPrefix, pressed, key, rfl⟩
  rcases intact codes (List.prefix_refl _) with ⟨s', ran, lit⟩
  rcases @shown_run env s codes start printable short with ⟨reached, ran', shown⟩
  obtain rfl := Option.some.inj (ran.symm.trans ran')
  rcases @shown_before env codes s start printable short earlier
      ((List.prefix_append _ _).trans isPrefix) with ⟨middle, toMiddle, -⟩
  have pixels := (litBy_in_run start printable short isPrefix pressed toMiddle).2
  rw [key] at pixels
  have reaches := star_reaches (typed earlier).length
  have stays := lit earlier buf middle isPrefix toMiddle _ (by rw [pixels]; exact reaches)
  rcases (shown.lit _ _ atPlace _ reaches).mp stays with last | left
  · omega
  · dsimp only at left
    omega

/-- Without such a star every character stays in front of the next cell. -/
theorem textIntact_of_narrow (start : Shown [] s) (printable : ∀ ch ∈ typed codes, Printable ch)
    (short : (typed codes).length ≤ 70) (narrow : 0x2A#8 ∉ (typed codes).dropLast) :
    TextIntact env codes s := by
  intro before isPrefix
  rcases @shown_before env codes s start printable short before isPrefix with ⟨s', ran, shown⟩
  refine ⟨s', ran, ?_⟩
  intro earlier buf middle inBefore toMiddle p member
  by_cases pressed : buf &&& 0x80#8 = 0#8
  case neg =>
    rw [litBy, if_neg pressed] at member
    cases member
  rcases isPrefix with ⟨rest, rfl⟩
  rw [typed_append] at printable short narrow
  rw [List.length_append] at short
  have printableBefore : ∀ ch ∈ typed before, Printable ch :=
    fun ch inLine => printable ch (List.mem_append_left _ inLine)
  have shortBefore : (typed before).length ≤ 70 := by omega
  rcases litBy_in_run start printableBefore shortBefore inBefore pressed toMiddle with
    ⟨atPlace, pixels⟩
  rw [pixels] at member
  rw [shown.lit _ _ atPlace p member]
  by_cases last : (typed earlier).length + 1 = (typed before).length
  · exact Or.inl last
  · refine Or.inr (cellPixels_narrow (printableBefore _ (List.mem_of_getElem? atPlace)) ?_ member)
    intro star
    rw [star] at atPlace
    have bound := (List.getElem?_eq_some_iff.mp atPlace).1
    have inside : (typed earlier).length < (typed before ++ typed rest).length - 1 := by
      rw [List.length_append]
      omega
    apply narrow
    apply List.mem_of_getElem?
    rw [List.getElem?_dropLast, if_pos inside, List.getElem?_append_left bound, atPlace]

end Runs

/-! ## From the cursor of main -/

/-- The line that `main` begins. -/
theorem shown_mainCursor (video : BitVec 32 → BitVec 8) :
    ∃ screen, mainCursor video = some screen ∧ Shown [] (powerOn screen) := by
  have drawn : mainCursor video = _ := drawGlyph_paint (by decide) (by decide) ⟨0, 35, video⟩
  rcases mainCursor_follows video with ⟨screen, cursor, -, follows⟩
  have state := Option.some.inj (cursor.symm.trans drawn)
  refine ⟨screen, cursor, follows.editing, ?_, ?_, ?_⟩
  · rw [state]
    rfl
  · rw [state]
    rfl
  · intro j ch atPlace
    rw [List.getElem?_nil] at atPlace
    cases atPlace

/-- From the state that `main` leaves: the text of a line of printable keys is shown
intact exactly when a star is at most its last key. -/
theorem textIntact_iff (env : Surroundings) (video : BitVec 32 → BitVec 8) {codes : Line}
    (printable : ∀ ch ∈ typed codes, Printable ch) (short : (typed codes).length ≤ 70) :
    ∃ screen, mainCursor video = some screen ∧
      (TextIntact env codes (powerOn screen) ↔ 0x2A#8 ∉ (typed codes).dropLast) := by
  rcases shown_mainCursor video with ⟨screen, cursor, start⟩
  refine ⟨screen, cursor, ?_, textIntact_of_narrow start printable short⟩
  intro intact star
  exact star_not_last start printable short star intact

theorem textIntact_iff_two_letters :
    ∃ screen, mainCursor (fun _ => 0#8) = some screen ∧
      (TextIntact ⟨id, id⟩ [0x1E#8, 0x9E#8, 0x1F#8] (powerOn screen) ↔
        0x2A#8 ∉ (typed [0x1E#8, 0x9E#8, 0x1F#8]).dropLast) :=
  textIntact_iff ⟨id, id⟩ (fun _ => 0#8) (by decide) (by decide)

/-- The key behind a star erases the pixel of the star in its cell. -/
theorem star_loses_pixel :
    ¬ ∀ (env : Surroundings) (video : BitVec 32 → BitVec 8) (codes : Line),
        (∀ ch ∈ typed codes, Printable ch) → (typed codes).length ≤ 70 →
          ∃ screen, mainCursor video = some screen ∧
            TextIntact env codes (powerOn screen) := by
  intro claimed
  rcases claimed ⟨id, id⟩ (fun _ => 0#8) [0x37#8, 0x1E#8] (by decide) (by decide) with
    ⟨screen, cursor, intact⟩
  rcases shown_mainCursor (fun _ => 0#8) with ⟨screen', cursor', start⟩
  obtain rfl : screen = screen' := Option.some.inj (cursor.symm.trans cursor')
  exact star_not_last start (by decide) (by decide) (by decide) intact

end Os88.MiniOs
