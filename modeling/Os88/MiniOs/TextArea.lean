/-
Module: Os88.MiniOs.TextArea
Purpose: The cursor as a position in a text of 60 lines of 79 columns, and when
  typing stays between the two banners.
Trusted boundary: none
Main exports: InTextArea, InText, StaysInText, Near, Resting, press_rests,
  TextState, Fits, typing_stays_inside_iff
-/
import Os88.MiniOs.KeyDrawings
import Os88.MiniOs.LineHistory

namespace Os88.MiniOs

open Execution
open Keyboard
open StringLib

/-! ## The text area -/

/-- The pixels on the screen and strictly between the banners. -/
def InTextArea (p : Pixel) : Prop :=
  (0 ≤ p.1 ∧ p.1 < 1280) ∧ 28 ≤ p.2 ∧ p.2 < 996

def Inside (pixels : List Pixel) : Prop := ∀ p ∈ pixels, InTextArea p

@[simp] theorem inside_append {first second : List Pixel} :
    Inside (first ++ second) ↔ Inside first ∧ Inside second :=
  List.forall_mem_append

@[simp] theorem inside_nil : Inside [] := fun _ impossible => nomatch impossible

/-- Position `n` is column `n % 79` of line `n / 79`. -/
def InText (n : Int) : Prop := 0 ≤ n ∧ n < 60 * 79

instance (n : Int) : Decidable (InText n) := inferInstanceAs (Decidable (_ ∧ _))

/-- Where a character that is not Enter leads. -/
def move (n : Int) (ch : BitVec 8) : Int := if ch = 0x08#8 then n - 1 else n + 1

/-- The start of the next line. -/
def newline (n : Int) : Int := 79 * (n / 79 + 1)

/-- The characters never lead out of the text. -/
def StaysInText : Int → List (BitVec 8) → Prop
  | n, [] => InText n
  | n, ch :: rest => InText n ∧ StaysInText (move n ch) rest

instance decidableStaysInText : ∀ n line, Decidable (StaysInText n line)
  | n, [] => inferInstanceAs (Decidable (InText n))
  | n, ch :: rest =>
      have := decidableStaysInText (move n ch) rest
      inferInstanceAs (Decidable (InText n ∧ StaysInText (move n ch) rest))

theorem StaysInText.inText {n : Int} {line : List (BitVec 8)}
    (stays : StaysInText n line) : InText n := by
  cases line with
  | nil => exact stays
  | cons ch rest => exact stays.1

theorem StaysInText.last {n : Int} {line : List (BitVec 8)}
    (stays : StaysInText n line) : InText (line.foldl move n) := by
  induction line generalizing n with
  | nil => exact stays
  | cons ch rest inductionHypothesis => exact inductionHypothesis stays.2

/-! ## The cursor of the screen -/

/-- The cursor is in the cell of position `n`, at most four pixels right of its
left edge. -/
def InCell (n : Int) (s : Screen) : Prop :=
  ∃ offset, (0 ≤ offset ∧ offset ≤ 4) ∧ s.width = 16 * (n % 79) + offset ∧
    s.height = 35 + 16 * (n / 79)

/-- The cursor is in the cell of position `n`, or has left its line by one cell
and is not yet moved to the other line. -/
def Near (n : Int) (s : Screen) : Prop :=
  ∃ row column offset, (0 ≤ row ∧ -1 ≤ column ∧ column ≤ 79) ∧
    (0 ≤ offset ∧ offset ≤ 4) ∧ n = 79 * row + column ∧
    s.width = 16 * column + offset ∧ s.height = 35 + 16 * row

/-- Between two keys the cursor stands one cell further. -/
def Resting (n : Int) (s : Screen) : Prop := InCell n { s with width := s.width - 16 }

section Cursor

variable {n : Int} {s : Screen}

/-- The tests of `drawtext` move the cursor to its cell, also when it is drawn up
to two pixels further left. -/
theorem Near.wrap_shifted (near : Near n s) {s' : Screen} {distance : Int}
    (short : 0 ≤ distance ∧ distance ≤ 2) (width : s'.width = s.width - distance)
    (height : s'.height = s.height) :
    ∃ offset, (-distance ≤ offset ∧ offset ≤ 4 - distance) ∧
      (wrapCursor s').width = 16 * (n % 79) + offset ∧
      (wrapCursor s').height = 35 + 16 * (n / 79) := by
  rcases near with ⟨row, column, offset, ⟨positive, left, right⟩, range, position,
    atColumn, atRow⟩
  by_cases end_ : column = 79
  · have further : 1260 < s'.width := by omega
    have stays : ¬ ((0 : Int) < -2 ∧ 34 < s'.height + 16) := by omega
    simp only [wrapCursor, if_pos further, if_neg stays]
    exact ⟨0, by omega, by omega, by omega⟩
  · have within : ¬ 1260 < s'.width := by omega
    by_cases before : column = -1
    · have back : s'.width < -2 ∧ 34 < s'.height := by omega
      simp only [wrapCursor, if_neg within, if_pos back]
      exact ⟨2, by omega, by omega, by omega⟩
    · have stays : ¬ (s'.width < -2 ∧ 34 < s'.height) := by omega
      simp only [wrapCursor, if_neg within, if_neg stays]
      exact ⟨offset - distance, by omega, by omega, by omega⟩

theorem Near.wrap (near : Near n s) : InCell n (wrapCursor s) := by
  rcases near.wrap_shifted (by omega : (0 : Int) ≤ 0 ∧ (0 : Int) ≤ 2)
    (Int.sub_zero s.width).symm rfl with ⟨offset, range, width, height⟩
  exact ⟨offset, by omega, width, height⟩

theorem InCell.near (inCell : InCell n s) (positive : 0 ≤ n) : Near n s := by
  rcases inCell with ⟨offset, range, width, height⟩
  exact ⟨n / 79, n % 79, offset, by omega, range, by omega, width, height⟩

/-- One cell to the right. -/
theorem InCell.right {s' : Screen} (inCell : InCell n s) (positive : 0 ≤ n)
    (width : s'.width = s.width + 16) (height : s'.height = s.height) :
    Near (n + 1) s' := by
  rcases inCell with ⟨offset, range, width', height'⟩
  exact ⟨n / 79, n % 79 + 1, offset, by omega, range, by omega, by omega, by omega⟩

/-- One cell to the left. -/
theorem InCell.left {s' : Screen} (inCell : InCell n s) (positive : 0 ≤ n)
    (width : s'.width = s.width - 16) (height : s'.height = s.height) :
    Near (n - 1) s' := by
  rcases inCell with ⟨offset, range, width', height'⟩
  exact ⟨n / 79, n % 79 - 1, offset, by omega, range, by omega, by omega, by omega⟩

/-- The rectangle of a cell lies in the text area when its position is in the
text. -/
theorem inside_eraseCellPixels (near : Near n s) :
    Inside (eraseCellPixels s) ↔ InText n := by
  rcases near.wrap with ⟨offset, range, width, height⟩
  constructor
  · intro inside
    have corner := inside ((wrapCursor s).width, (wrapCursor s).height)
      (mem_fillrectPixels.mpr (by dsimp only; omega))
    have opposite := inside ((wrapCursor s).width, (wrapCursor s).height + 15)
      (mem_fillrectPixels.mpr (by dsimp only; omega))
    simp only [InTextArea] at corner opposite
    rw [InText]
    omega
  · rintro ⟨first, last⟩ p member
    have bounds := mem_fillrectPixels.mp member
    rw [InTextArea]
    omega

theorem eraseCell_near (near : Near n s) (positive : 0 ≤ n) :
    Near (n + 1) (eraseCell s) :=
  near.wrap.right positive rfl rfl

/-- Two cells back from there. -/
theorem eraseCell_back {s' : Screen} (near : Near n s) (positive : 0 ≤ n)
    (width : s'.width = (eraseCell s).width - 32) (height : s'.height = (eraseCell s).height) :
    Near (n - 1) s' := by
  refine near.wrap.left positive (width.trans ?_) height
  show (wrapCursor s).width + 16 - 32 = _
  omega

/-- A character is drawn up to two pixels left of its cell and up to two right. -/
theorem inside_drawGlyphPixels {charnum : Int} {offset : Int}
    (range : -2 ≤ offset ∧ offset ≤ 4) (width : s.width = 16 * (n % 79) + offset)
    (height : s.height = 35 + 16 * (n / 79)) (inText : InText n) :
    Inside (drawGlyphPixels charnum s) := by
  intro p member
  have bounds := drawGlyphPixels_bounds member
  rw [InTextArea]
  rw [InText] at inText
  omega

/-! ## Characters -/

/-- An Enter erases its cell and goes to the next line. -/
theorem text_newline (near : Near n s) (positive : 0 ≤ n) :
    ∃ s', drawtext 10 s = some s' ∧ Near (newline n) s' ∧
      (Inside (drawtextPixels 10 s) ↔ InText n) := by
  have again : Near n (wrapCursor s) := near.wrap.near positive
  have cell := again.wrap
  refine ⟨_, rfl, ?_, inside_eraseCellPixels again⟩
  rcases cell with ⟨offset, range, width, height⟩
  refine ⟨n / 79 + 1, 0, 0, by omega, by omega, by rw [newline]; omega, rfl, ?_⟩
  show (wrapCursor (wrapCursor s)).height + 16 = _
  omega

/-- A backspace erases its cell and the one before. -/
theorem text_backspace (near : Near n s) (positive : 0 ≤ n) :
    ∃ s', drawtext 8 s = some s' ∧ (0 < n → Near (n - 1) s') ∧
      (Inside (drawtextPixels 8 s) ↔ InText n ∧ InText (n - 1)) := by
  have again : Near n (wrapCursor s) := near.wrap.near positive
  have before : Near (n - 1)
      { eraseCell (wrapCursor s) with width := (eraseCell (wrapCursor s)).width - 32 } :=
    eraseCell_back again positive rfl rfl
  refine ⟨_, rfl, ?_, ?_⟩
  · intro later
    have back := eraseCell_near before (by omega)
    rw [Int.sub_add_cancel] at back
    exact eraseCell_back back positive rfl rfl
  · show Inside (eraseCellPixels _ ++ eraseCellPixels _ ++ eraseCellPixels _) ↔ _
    rw [inside_append, inside_append, inside_eraseCellPixels again,
      inside_eraseCellPixels before]
    constructor
    · exact fun inside => inside.1
    · rintro ⟨here, inText⟩
      have back := eraseCell_near before inText.1
      rw [Int.sub_add_cancel] at back
      exact ⟨⟨here, inText⟩, (inside_eraseCellPixels back).mpr here⟩

/-- Every other character is drawn in its cell. -/
theorem text_character (near : Near n s) (positive : 0 ≤ n) {ch : BitVec 8}
    (ascii : ch.toNat < 128) (noEnter : ch ≠ 0x0A#8) (noBackspace : ch ≠ 0x08#8) :
    ∃ s', drawtext ch.toInt s = some s' ∧ Near (n + 1) s' ∧
      (InText n → Inside (drawtextPixels ch.toInt s)) := by
  have value : ch.toInt = ch.toNat := by
    rw [BitVec.toInt_eq_toNat_cond, if_pos (by omega)]
  have notErase : ¬ ch.toInt = -1 := by omega
  have notEnter : ¬ ch.toInt = 10 := by
    intro same
    exact noEnter (BitVec.eq_of_toNat_eq (by simp; omega))
  have notBackspace : ¬ ch.toInt = 8 := by
    intro same
    exact noBackspace (BitVec.eq_of_toNat_eq (by simp; omega))
  have drawn : drawtext ch.toInt s = drawGlyph ch.toInt (wrapCursor s) := by
    simp only [drawtext, if_neg notErase, if_neg notEnter, if_neg notBackspace]
  have pixels : drawtextPixels ch.toInt s = drawGlyphPixels ch.toInt (wrapCursor s) := by
    simp only [drawtextPixels, if_neg notErase, if_neg notEnter, if_neg notBackspace]
  rw [drawGlyph_paint (by omega) (by omega)] at drawn
  refine ⟨_, drawn, near.wrap.right positive rfl rfl, ?_⟩
  rcases near.wrap with ⟨offset, range, width, height⟩
  rw [pixels]
  exact inside_drawGlyphPixels (by omega) width height

/-- Any character but Enter: where it leads, and what it tells that its pixels
are inside. -/
theorem text_move (near : Near n s) (positive : 0 ≤ n) {ch : BitVec 8}
    (ascii : ch.toNat < 128) (noEnter : ch ≠ 0x0A#8) :
    ∃ s', drawtext ch.toInt s = some s' ∧ (0 ≤ move n ch → Near (move n ch) s') ∧
      (InText n → InText (move n ch) → Inside (drawtextPixels ch.toInt s)) ∧
      (Inside (drawtextPixels ch.toInt s) →
        0 ≤ move n ch ∧ (InText (move n ch) → InText n)) := by
  by_cases backspace : ch = 0x08#8
  · subst backspace
    have back : move n 0x08#8 = n - 1 := if_pos rfl
    rcases text_backspace near positive with ⟨s', drawn, near', inside⟩
    refine ⟨s', drawn, ?_, ?_, ?_⟩
    · intro later
      rw [back] at later ⊢
      exact near' (by omega)
    · intro here before
      rw [back] at before
      exact inside.mpr ⟨here, before⟩
    · intro allInside
      rcases inside.mp allInside with ⟨here, before⟩
      rw [back]
      exact ⟨before.1, fun _ => here⟩
  · have further : move n ch = n + 1 := if_neg backspace
    rcases text_character near positive ascii noEnter backspace with ⟨s', drawn, near', inside⟩
    rw [further]
    refine ⟨s', drawn, fun _ => near', fun here _ => inside here, fun _ => ⟨by omega, ?_⟩⟩
    rintro ⟨-, last⟩
    exact ⟨positive, by omega⟩

/-! ## Key presses -/

/-- The cursor is drawn, two pixels to the left, and then rests. -/
theorem cursor_rests (near : Near n s) :
    ∃ s', runAll Drawing.apply cursorDrawings s = some s' ∧ Resting n s' ∧
      (0 ≤ n → (Inside (pixelsOf cursorDrawings s) ↔ InText n)) := by
  rcases @Near.wrap_shifted n s near { s with width := s.width + -2 } 2 (by decide) rfl rfl
    with ⟨offset, range, width, height⟩
  have drawn := @drawGlyph_paint 0x5F (by decide) (by decide)
    (wrapCursor { s with width := s.width + -2 })
  have text : drawtext 0x5F { s with width := s.width + -2 } = drawGlyph 0x5F
    (wrapCursor { s with width := s.width + -2 }) := rfl
  rw [drawn] at text
  have pixels : pixelsOf cursorDrawings s =
      drawGlyphPixels 0x5F (wrapCursor { s with width := s.width + -2 }) := by
    simp only [cursorDrawings, pixelsOf, Drawing.pixels, Drawing.apply, text,
      Option.map_some, Option.getD_some, List.nil_append, List.append_nil]
    rfl
  have ran := congrArg (fun drawn => drawn.bind (runAll Drawing.apply [.shift 2])) text
  generalize wrapCursor { s with width := s.width + -2 } = cell at *
  refine ⟨_, ran, ⟨offset + 2, by omega, ?_, height⟩, ?_⟩
  · show cell.width + 16 + 2 - 16 = _
    omega
  · intro positive
    rw [pixels]
    constructor
    · intro inside
      have low := (inside _ (drawGlyphPixels_underscore cell)).2.2
      rw [InText]
      dsimp only at low
      omega
    · exact inside_drawGlyphPixels (by omega) width height

/-- The drawings are inside exactly under a condition, and under it they leave
the cursor at rest. -/
structure RestsWhen (condition : Prop) (n : Int) (drawings : List Drawing) (s : Screen) :
    Prop where
  rests : condition → ∃ s', runAll Drawing.apply drawings s = some s' ∧ Resting n s'
  inside : Inside (pixelsOf drawings s) ↔ condition

/-- Drawings in front that are inside. -/
theorem RestsWhen.after {condition : Prop} {first rest : List Drawing} {s' : Screen}
    (later : RestsWhen condition n rest s') (ran : runAll Drawing.apply first s = some s')
    (inside : Inside (pixelsOf first s)) : RestsWhen condition n (first ++ rest) s := by
  constructor
  · rw [runAll_append, ran]
    exact later.rests
  · rw [pixelsOf_append ran, inside_append]
    exact (and_iff_right inside).trans later.inside

/-- A line that is repeated and the cursor behind it: all pixels are inside
exactly when the line never leads out of the text. -/
theorem echo_rests {line : List (BitVec 8)} (near : Near n s) (positive : 0 ≤ n)
    (ascii : ∀ ch ∈ line, ch.toNat < 128) (oneLine : 0x0A#8 ∉ line) :
    RestsWhen (StaysInText n line) (line.foldl move n)
      (echoDrawings line ++ cursorDrawings) s := by
  induction line generalizing n s with
  | nil =>
      rcases cursor_rests near with ⟨s', ran, resting, inside⟩
      exact ⟨fun _ => ⟨s', ran, resting⟩, inside positive⟩
  | cons ch rest inductionHypothesis =>
      have noEnter : ch ≠ 0x0A#8 := fun same => oneLine (by simp [same])
      rcases text_move near positive (ascii ch (List.mem_cons_self ..)) noEnter with
        ⟨middle, drawn, near', inside, outside⟩
      have later := fun possible => inductionHypothesis (near' possible) possible
        (fun other member => ascii other (List.mem_cons_of_mem ch member))
        (fun member => oneLine (List.mem_cons_of_mem ch member))
      have applied : (Drawing.text ch.toInt).apply s = some middle := drawn
      constructor
      · rintro ⟨-, stays⟩
        rw [echoDrawings, List.map_cons, List.cons_append, runAll_cons, applied]
        exact (later stays.inText.1).rests stays
      · rw [echoDrawings, List.map_cons, List.cons_append, pixelsOf, applied,
          Option.map_some, Option.getD_some, inside_append]
        constructor
        · rintro ⟨first, others⟩
          rcases outside first with ⟨possible, here⟩
          have stays := (later possible).inside.mp others
          exact ⟨here stays.inText, stays⟩
        · rintro ⟨here, stays⟩
          exact ⟨inside here stays.inText, (later stays.inText.1).inside.mpr stays⟩

/-- The cursor is erased. -/
theorem resting_erased (resting : Resting n s) (inText : InText n) :
    ∃ s', runAll Drawing.apply [.shift (-16), .text (-1), .shift (-16)] s = some s' ∧
      Near n s' ∧ Inside (pixelsOf [.shift (-16), .text (-1), .shift (-16)] s) := by
  have cell : InCell n { s with width := s.width + -16 } := resting
  have near := cell.near inText.1
  have back : Near n { eraseCell { s with width := s.width + -16 } with
      width := (eraseCell { s with width := s.width + -16 }).width + -16 } := by
    rcases near.wrap with ⟨offset, range, width, height⟩
    refine InCell.near ⟨offset, range, ?_, height⟩ inText.1
    rw [← width]
    show (wrapCursor _).width + 16 + -16 = _
    omega
  refine ⟨_, rfl, back, ?_⟩
  show Inside ([] ++ (eraseCellPixels _ ++ ([] ++ [])))
  simp only [List.nil_append, List.append_nil]
  exact (inside_eraseCellPixels near).mpr inText

end Cursor

/-! ## Typing -/

/-- The position of the cursor and the line that is being typed. -/
structure TextState where
  position : Int
  line : List (BitVec 8)
deriving DecidableEq, Repr

/-- Where the drawing of a key begins, and the characters it draws. -/
def TextState.route (ch : BitVec 8) (a : TextState) : Int × List (BitVec 8) :=
  if ch = 0x0A#8 then (newline a.position, a.line) else (a.position, [ch])

/-- The state after a scancode. -/
def TextState.press (a : TextState) (buf : BitVec 8) : TextState :=
  if buf &&& 0x80#8 = 0#8 then
    { position := (a.route (keyOf buf)).2.foldl move (a.route (keyOf buf)).1
      line := nextLine (keyOf buf) a.line }
  else a

/-- The key finds room in the line buffer, and what it draws stays in the text. -/
def Fits (buf : BitVec 8) (a : TextState) : Prop :=
  buf &&& 0x80#8 = 0#8 →
    a.line.length < 100 ∧ StaysInText (a.route (keyOf buf)).1 (a.route (keyOf buf)).2

instance (buf : BitVec 8) (a : TextState) : Decidable (Fits buf a) :=
  inferInstanceAs (Decidable (_ → _))

/-- The screen and the line buffer are in the state. -/
structure Follows (s : Keyboard) (a : TextState) : Prop where
  editing : Editing a.line s
  resting : Resting a.position s.screen
  inText : InText a.position

/-- All pixels of a scancode are inside. -/
def PixelsInside (buf : BitVec 8) (s : Keyboard) : Prop :=
  Inside (pixelsOf (keyDrawings buf s) s.screen)

section Typing

variable {s : Keyboard} {a : TextState} {buf ch : BitVec 8}

theorem Editing.line_ascii {line : List (BitVec 8)} (editing : Editing line s) :
    ∀ ch ∈ line, ch.toNat < 128 := by
  intro ch member
  rw [← editing.held] at member
  rcases List.getElem_of_mem (List.mem_of_mem_take member) with ⟨i, inside, rfl⟩
  have read := editing.ascii i
  rwa [byte, List.getD_eq_getElem _ _ inside] at read

/-- The drawings of Enter: the cursor is erased, the line ends, what was typed is
drawn again, and the cursor rests behind it. -/
theorem enter_rests (follows : Follows s a) :
    RestsWhen (StaysInText (newline a.position) a.line)
      (a.line.foldl move (newline a.position)) (pressDrawings 0x0A#8 a.line) s.screen := by
  have positive := follows.inText.1
  rcases resting_erased follows.resting follows.inText with ⟨middle, erased, near, inside⟩
  have drawings : pressDrawings 0x0A#8 a.line =
      [.shift (-16), .text (-1), .shift (-16)] ++
        ([.text 10] ++ (echoDrawings a.line ++ cursorDrawings)) := rfl
  rcases text_newline near positive with ⟨next, drawn, near', insideNewline⟩
  have start : 0 ≤ newline a.position := by
    rw [newline]
    omega
  have later := echo_rests near' start follows.editing.line_ascii follows.editing.oneLine
  have ran : runAll Drawing.apply [.text 10] middle = some next := by
    rw [runAll_cons]
    show (drawtext 10 middle).bind _ = _
    rw [drawn]
    rfl
  have insideEnter : Inside (pixelsOf [.text 10] middle) := by
    simp only [pixelsOf, Drawing.pixels, Drawing.apply, drawn, Option.map_some,
      Option.getD_some, List.append_nil]
    exact insideNewline.mpr follows.inText
  rw [drawings]
  exact (later.after ran insideEnter).after erased inside

/-- The drawings of any other key: the cursor is erased, the key is drawn, and
the cursor rests behind it. -/
theorem character_rests (follows : Follows s a) (ascii : ch.toNat < 128)
    (enter : ch ≠ 0x0A#8) :
    RestsWhen (StaysInText a.position [ch]) ([ch].foldl move a.position)
      (pressDrawings ch a.line) s.screen := by
  rcases resting_erased follows.resting follows.inText with ⟨middle, erased, near, inside⟩
  have drawings : pressDrawings ch a.line =
      [.shift (-16), .text (-1), .shift (-16)] ++
        (echoDrawings [ch] ++ cursorDrawings) := by
    simp [pressDrawings, if_neg enter, echoDrawings]
  have later : RestsWhen (StaysInText a.position [ch]) ([ch].foldl move a.position)
      (echoDrawings [ch] ++ cursorDrawings) middle :=
    echo_rests near follows.inText.1 (by simpa using ascii) (by simpa using Ne.symm enter)
  rw [drawings]
  exact later.after erased inside

/-- The drawings of a key press. -/
theorem press_rests (follows : Follows s a) (ascii : ch.toNat < 128) :
    RestsWhen (StaysInText (a.route ch).1 (a.route ch).2)
      ((a.route ch).2.foldl move (a.route ch).1) (pressDrawings ch a.line) s.screen := by
  by_cases enter : ch = 0x0A#8
  · subst enter
    exact enter_rests follows
  · rw [TextState.route, if_neg enter]
    exact character_rests follows ascii enter

theorem screen_releases (released : buf &&& 0x80#8 ≠ 0#8) (s : Keyboard) :
    PixelsInside buf s := by
  rw [PixelsInside, keyDrawings, if_neg released]
  exact inside_nil

/-- A scancode that fits is served with all pixels inside. -/
theorem scan_fits (env : Surroundings) (follows : Follows s a)
    (noCommand : keyOf buf = 0x0A#8 → buf &&& 0x80#8 = 0#8 → NoCommand a.line)
    (fits : Fits buf a) :
    ∃ s', scan env buf s = some s' ∧ PixelsInside buf s ∧ Follows s' (a.press buf) := by
  by_cases pressed : buf &&& 0x80#8 = 0#8
  · rcases fits pressed with ⟨room, stays⟩
    have drawn := press_rests follows (keyOf_lt buf)
    obtain ⟨branch, s', ran, screen, editing⟩ := @isrKeyb_editing env s buf a.line
      follows.editing pressed room fun enter => noCommand enter pressed
    have drawings : keyDrawings buf s = pressDrawings (keyOf buf) a.line := by
      rw [keyDrawings, if_pos pressed, follows.editing.held]
    rcases drawn.rests stays with ⟨final, reached, resting⟩
    rw [drawings, reached] at screen
    obtain rfl := Option.some.inj screen
    refine ⟨s', by rw [scan, ran]; rfl, ?_, ?_⟩
    · rw [PixelsInside, drawings]
      exact drawn.inside.mpr stays
    · rw [TextState.press, if_pos pressed]
      exact ⟨editing, resting, stays.last⟩
  · obtain ⟨s', ran, screen, editing⟩ :=
      @isrKeyb_editing_release env s buf a.line follows.editing pressed
    refine ⟨s', by rw [scan, ran]; rfl, screen_releases pressed s, ?_⟩
    rw [TextState.press, if_neg pressed]
    refine ⟨editing, ?_, follows.inText⟩
    rw [screen]
    exact follows.resting

/-- A scancode that does not fit faults or draws outside. -/
theorem scan_not_fits (env : Surroundings) (follows : Follows s a) (outside : ¬ Fits buf a)
    {s' : Keyboard} (ran : scan env buf s = some s') : ¬ PixelsInside buf s := by
  rw [Fits, Classical.not_imp, not_and_or] at outside
  rcases outside with ⟨pressed, full | leaves⟩
  · rw [scan, isrKeyb_overrun pressed (by rw [follows.editing.cntr]; omega)] at ran
    cases ran
  · rw [PixelsInside, keyDrawings, if_pos pressed, follows.editing.held,
      (press_rests follows (keyOf_lt buf)).inside]
    exact leaves

end Typing

/-! ## Runs -/

/-- What main draws before it waits for keys. -/
def mainCursor (video : BitVec 32 → BitVec 8) : Option Screen :=
  drawtext 0x5F ⟨0, 35, video⟩

/-- No Enter ends a line that spells a command. -/
def NoCommands (codes : List (BitVec 8)) : Prop :=
  ∀ before buf, before ++ [buf] <+: codes →
    keyOf buf = 0x0A#8 → buf &&& 0x80#8 = 0#8 →
    NoCommand (before.foldl TextState.press ⟨0, []⟩).line

theorem noCommands_iff_meets {codes : List (BitVec 8)} :
    NoCommands codes ↔
      RunMeets (fun buf a => some (TextState.press a buf))
        (fun buf a => keyOf buf = 0x0A#8 → buf &&& 0x80#8 = 0#8 → NoCommand a.line) codes
        ⟨0, []⟩ := by
  rw [runMeets_iff_everywhere TextState.press]
  rfl

theorem mainCursor_follows (video : BitVec 32 → BitVec 8) :
    ∃ screen, mainCursor video = some screen ∧ Inside (drawtextPixels 0x5F ⟨0, 35, video⟩) ∧
      Follows (powerOn screen) ⟨0, []⟩ := by
  have drawn : mainCursor video = _ := drawGlyph_paint (by decide) (by decide) ⟨0, 35, video⟩
  have pixels : drawtextPixels 0x5F ⟨0, 35, video⟩ =
      drawGlyphPixels 0x5F ⟨0, 35, video⟩ := rfl
  refine ⟨_, drawn, ?_, ?_, ⟨0, by decide, rfl, rfl⟩, by decide⟩
  · rw [pixels]
    exact @inside_drawGlyphPixels 0 ⟨0, 35, video⟩ 0x5F 0 (by decide) rfl rfl (by decide)
  · exact ⟨rfl, rfl, List.not_mem_nil, @Typing.ascii [] [] _ (typing_powerOn _)⟩

/-- From the state that main leaves: no key faults and all pixels are inside
exactly when every key fits. -/
theorem typing_stays_inside_iff (env : Surroundings) (video : BitVec 32 → BitVec 8)
    {codes : List (BitVec 8)} (noCommands : NoCommands codes) :
    ∃ screen, mainCursor video = some screen ∧
      Inside (drawtextPixels 0x5F ⟨0, 35, video⟩) ∧
      (RunKeeps (scan env) (fun buf s _ => PixelsInside buf s) codes (powerOn screen) ↔
        ∀ before buf, before ++ [buf] <+: codes →
          Fits buf (before.foldl TextState.press ⟨0, []⟩)) := by
  rcases mainCursor_follows video with ⟨screen, drawn, inside, follows⟩
  refine ⟨screen, drawn, inside, ?_⟩
  rw [← runMeets_iff_everywhere TextState.press]
  apply runKeeps_iff_meets_within Follows TextState.press follows
    (noCommands_iff_meets.mp noCommands)
  · intro buf s a related noCommand fits
    exact scan_fits env related noCommand fits
  · intro buf s a related _ outside s' ran
    exact scan_not_fits env related outside ran

/-- The line `a`, which is not a command. -/
theorem noCommands_a : NoCommands [0x1E#8, 0x1C#8] := by
  refine noCommands_iff_meets.mpr ⟨by decide, ?_⟩
  intro a pressed
  obtain rfl := Option.some.inj pressed
  exact ⟨fun _ _ => by decide, fun _ _ => trivial⟩

theorem typing_stays_inside_iff_a :
    ∃ screen, mainCursor (fun _ => 0#8) = some screen ∧
      Inside (drawtextPixels 0x5F ⟨0, 35, fun _ => 0#8⟩) ∧
      (RunKeeps (scan ⟨id, id⟩) (fun buf s _ => PixelsInside buf s) [0x1E#8, 0x1C#8]
          (powerOn screen) ↔
        ∀ before buf, before ++ [buf] <+: [0x1E#8, 0x1C#8] →
          Fits buf (before.foldl TextState.press ⟨0, []⟩)) :=
  typing_stays_inside_iff ⟨id, id⟩ (fun _ => 0#8) noCommands_a

/-- A backspace as the first key erases a cell of the upper banner. -/
theorem first_backspace_leaves_text_area :
    ¬ ∀ (env : Surroundings) (video : BitVec 32 → BitVec 8) (codes : List (BitVec 8)),
        NoCommands codes → ∃ screen, mainCursor video = some screen ∧
          RunKeeps (scan env) (fun buf s _ => PixelsInside buf s) codes
            (powerOn screen) := by
  intro claimed
  have noCommands : NoCommands [0x0E#8] :=
    noCommands_iff_meets.mpr ⟨by decide, fun _ _ => trivial⟩
  obtain ⟨screen, drawn, s', ran, inside, -⟩ :=
    claimed ⟨id, id⟩ (fun _ => 0#8) [0x0E#8] noCommands
  rcases mainCursor_follows (fun _ => 0#8) with ⟨screen', drawn', -, follows⟩
  obtain rfl : screen = screen' := Option.some.inj (drawn.symm.trans drawn')
  exact scan_not_fits ⟨id, id⟩ follows (by decide) ran inside

end Os88.MiniOs
