/-
Module: Os88.TextConsole.RightAligned
Purpose: The line that `kprint_ok_fail` leaves: a text, spaces, and the tag in the
  last columns.
Trusted boundary: none
Main exports: TextPiece, textOf, charAt, Tty.draw, Drawn, draw_drawn, LineShown,
  RightAligned, newline_keeps_line_iff, kprintOkFail_draws, rightAligned_iff
-/
import Os88.TextConsole.OkFail
import Os88.TextConsole.Display
import Os88.TextConsole.FillScroll

namespace Os88.TextConsole

variable {δ : Type}

/-! ## Texts -/

/-- A character, or `TTY_CMD_SET_COLOR` with its colour. -/
inductive TextPiece where
  | char (ch : BitVec 8)
  | pen (color : Color)
deriving DecidableEq, Repr

namespace TextPiece

def bytes : TextPiece → List (BitVec 8)
  | .char ch => [ch]
  | .pen color => [TTY_CMD_SET_COLOR, color]

/-- A printable character, or a command for a colour that is not NUL. -/
def Valid : TextPiece → Prop
  | .char ch => 0x20 ≤ ch.toNat ∧ ch.toNat ≤ 0x7E
  | .pen color => color ≠ 0

instance : DecidablePred Valid
  | .char _ => inferInstanceAs (Decidable (_ ∧ _))
  | .pen _ => inferInstanceAs (Decidable (_ ≠ _))

def command : TextPiece → Command
  | .char ch => .glyph ch
  | .pen color => .setColor color

/-- The character that is drawn for a piece, if any. -/
def drawn : TextPiece → Option (BitVec 8)
  | .char ch => some ch
  | .pen _ => none

/-- The pen after a piece. -/
def penAfter (before : Color) : TextPiece → Color
  | .char _ => before
  | .pen color => color

end TextPiece

open TextPiece

/-- The pieces as a string with its terminator. -/
def textOf (pieces : List TextPiece) : List (BitVec 8) :=
  pieces.flatMap bytes ++ [0]

/-- The characters that are drawn. -/
def characters (pieces : List TextPiece) : List (BitVec 8) :=
  pieces.filterMap drawn

/-- The number of colour commands. -/
def colorCommands (pieces : List TextPiece) : Nat :=
  pieces.countP fun piece => piece.drawn = none

def penAfterAll (before : Color) (pieces : List TextPiece) : Color :=
  pieces.foldl penAfter before

section Texts

variable {pieces : List TextPiece}

theorem characters_append (first second : List TextPiece) :
    characters (first ++ second) = characters first ++ characters second :=
  List.filterMap_append

theorem penAfterAll_append (before : Color) (first second : List TextPiece) :
    penAfterAll before (first ++ second) = penAfterAll (penAfterAll before first) second :=
  List.foldl_append

/-- The bytes that `tty_print` counts: two for a colour command. -/
theorem textLength_textOf (valid : ∀ piece ∈ pieces, piece.Valid) :
    textLength (textOf pieces) = (characters pieces).length + 2 * colorCommands pieces := by
  induction pieces with
  | nil => rfl
  | cons piece rest inductionHypothesis =>
      have first := valid piece (List.mem_cons_self ..)
      have later := inductionHypothesis fun other member =>
        valid other (List.mem_cons_of_mem piece member)
      cases piece with
      | char ch =>
          have present : ch ≠ 0 := by
            rintro rfl
            exact absurd first.1 (by decide)
          have split : textOf (char ch :: rest) = ch :: textOf rest := rfl
          have drawnOne : characters (char ch :: rest) = ch :: characters rest := rfl
          have uncounted : colorCommands (char ch :: rest) = colorCommands rest := by
            simp [colorCommands, drawn]
          rw [split, textLength_cons present, later, drawnOne, uncounted, List.length_cons]
          omega
      | pen color =>
          have split : textOf (pen color :: rest) =
            TTY_CMD_SET_COLOR :: color :: textOf rest := rfl
          have drawnNone : characters (pen color :: rest) = characters rest := rfl
          have counted : colorCommands (pen color :: rest) =
              colorCommands rest + 1 := by
            simp [colorCommands, drawn]
          rw [split, textLength_cons (by decide), textLength_cons first, later, drawnNone,
            counted]
          omega

/-- `tty_print` serves the pieces in order. -/
theorem commands_textOf (valid : ∀ piece ∈ pieces, piece.Valid) :
    commands (textOf pieces) = pieces.map command := by
  induction pieces with
  | nil => exact commands_nul []
  | cons piece rest inductionHypothesis =>
      have first := valid piece (List.mem_cons_self ..)
      have later := inductionHypothesis fun other member =>
        valid other (List.mem_cons_of_mem piece member)
      rw [List.map_cons, ← later]
      cases piece with
      | char ch =>
          have outside : ∀ other : BitVec 8, other.toNat < 0x20 → ch ≠ other := by
            rintro other small rfl
            exact absurd first.1 (by omega)
          have glyph : byteCommand ch = .glyph ch := by
            rw [byteCommand, if_neg (outside _ (by decide)), if_neg (outside _ (by decide)),
              if_neg (outside _ (by decide))]
          show commands (ch :: textOf rest) = _
          rw [commands_byte (outside _ (by decide)) (outside _ (by decide)), glyph]
          rfl
      | pen color =>
          show commands (TTY_CMD_SET_COLOR :: color :: textOf rest) = _
          exact commands_setColor first (textOf rest)

end Texts

/-! ## A line -/

/-- The character in a cell of the screen. -/
def charAt (g : Geometry) (mem : List Cell) (x y : Nat) : Option (BitVec 8) :=
  mem[x + y * g.width]?.map fun cell => cell.extractLsb' 0 8

/-- The effect of the pieces on a tty. -/
def Tty.draw (g : Geometry) (pieces : List TextPiece) (tty : Tty) : Tty :=
  (pieces.map command).foldl (Tty.step g) tty

/-- The pieces have been drawn in the row of the cursor. -/
structure Drawn (g : Geometry) (pieces : List TextPiece) (before after : Tty) : Prop where
  x : after.x = before.x + (characters pieces).length
  y : after.y = before.y
  color : after.color = penAfterAll before.color pieces
  mem_length : after.mem.length = before.mem.length
  left : ∀ column < before.x,
    charAt g after.mem column before.y = charAt g before.mem column before.y
  drawn : ∀ i < (characters pieces).length,
    charAt g after.mem (before.x + i) before.y = (characters pieces)[i]?

section Line

variable {g : Geometry} {tty : Tty} {pieces : List TextPiece}

theorem draw_append (first second : List TextPiece) (tty : Tty) :
    tty.draw g (first ++ second) = (tty.draw g first).draw g second := by
  rw [Tty.draw, List.map_append, List.foldl_append]
  rfl

theorem print_textOf (valid : ∀ piece ∈ pieces, piece.Valid) (tty : Tty) :
    tty.print g (textOf pieces) = tty.draw g pieces := by
  rw [Tty.print, commands_textOf valid]
  rfl

/-- The cell a character is stored in, and the others of the row. -/
theorem charAt_setChar {x y column : Nat} (ch : BitVec 8) (color : Color)
    (inside : x < g.width) (row : y < g.height)
    (memory : tty.mem.length = g.cells) :
    charAt g (tty.setChar g x y ch color).mem column y =
      if column = x then some ch else charAt g tty.mem column y := by
  rw [charAt, Tty.setChar]
  by_cases same : column = x
  · subst same
    rw [if_pos rfl, List.getElem?_set_self (by rw [memory]; exact g.index_lt inside row),
      Option.map_some, cellValue_low]
  · have apart : x + y * g.width ≠ column + y * g.width := by omega
    rw [if_neg same, List.getElem?_set_ne apart]
    rfl

/-- Pieces that do not reach the last column are drawn in the row. -/
theorem draw_drawn (memory : tty.mem.length = g.cells) (row : tty.y < g.height)
    (fits : tty.x + (characters pieces).length < g.width) :
    Drawn g pieces tty (tty.draw g pieces) := by
  induction pieces generalizing tty with
  | nil =>
      exact ⟨rfl, rfl, rfl, rfl, fun _ _ => rfl, fun i impossible => by cases impossible⟩
  | cons piece rest inductionHypothesis =>
      cases piece with
      | pen color =>
          have later := @inductionHypothesis { tty with color := color } memory row fits
          exact ⟨later.x, later.y, later.color, later.mem_length, later.left, later.drawn⟩
      | char ch =>
          have count : (characters (char ch :: rest)).length =
            (characters rest).length + 1 := rfl
          rw [count] at fits
          have once : tty.draw g (char ch :: rest) = (tty.advanced g ch).draw g rest := by
            show (tty.glyph g ch).draw g rest = _
            rw [Tty.glyph, if_neg (by omega)]
          have next : (tty.advanced g ch).x = tty.x + 1 := rfl
          have later := @inductionHypothesis (tty.advanced g ch)
            (by rw [← memory]; exact List.length_set) row (by rw [next]; omega)
          have stored : ∀ column, charAt g (tty.advanced g ch).mem column tty.y =
              if column = tty.x then some ch else charAt g tty.mem column tty.y :=
            fun column => charAt_setChar ch tty.color (by omega) row memory
          have kept : ∀ column < tty.x + 1,
              charAt g ((tty.advanced g ch).draw g rest).mem column tty.y =
                charAt g (tty.advanced g ch).mem column tty.y := later.left
          rw [once]
          refine ⟨?_, later.y, later.color, ?_, ?_, ?_⟩
          · rw [later.x, next, count]
            omega
          · rw [later.mem_length]
            exact List.length_set
          · intro column before
            rw [kept column (by omega), stored column, if_neg (by omega)]
          · intro i inside
            cases i with
            | zero =>
                rw [Nat.add_zero, kept tty.x (by omega), stored tty.x,
                  if_pos rfl]
                rfl
            | succ i =>
                have place : tty.x + (i + 1) = tty.x + 1 + i := by omega
                rw [place]
                exact later.drawn i (by omega)

/-! ## A line up to the last column -/

/-- The row shows the line. -/
def LineShown (g : Geometry) (content : List (BitVec 8)) (mem : List Cell) (row : Nat) : Prop :=
  ∀ x < g.width, charAt g mem x row = content[x]?

/-- The character in the last column, and then the line feed. -/
theorem draw_whole_line {last : BitVec 8} (memory : tty.mem.length = g.cells)
    (start : tty.x = 0) (row : tty.y < g.height)
    (fills : (characters pieces).length + 1 = g.width) :
    ∃ full : Tty, tty.draw g (pieces ++ [char last]) = full.newline g ∧
      full.y = tty.y ∧ full.mem.length = g.cells ∧
      LineShown g (characters pieces ++ [last]) full.mem tty.y := by
  have drawn := draw_drawn memory row (by omega : tty.x + (characters pieces).length < g.width)
  have x := drawn.x
  have y := drawn.y
  have length := drawn.mem_length.trans memory
  refine ⟨(tty.draw g pieces).advanced g last, ?_, y, ?_, ?_⟩
  · rw [draw_append]
    show (tty.draw g pieces).glyph g last = _
    rw [Tty.glyph, if_pos (by omega)]
  · rw [← length]
    exact List.length_set
  · intro column inside
    have stored := @charAt_setChar g (tty.draw g pieces) (tty.draw g pieces).x (tty.draw g pieces).y
      column last (tty.draw g pieces).color (by omega) (by omega) length
    rw [y] at stored
    have advanced : charAt g ((tty.draw g pieces).advanced g last).mem column tty.y =
        if column = (tty.draw g pieces).x then some last
        else charAt g (tty.draw g pieces).mem column tty.y := by
      rw [← stored, ← y]
      rfl
    rw [advanced]
    by_cases atEnd : column = (characters pieces).length
    · rw [if_pos (by omega), atEnd, List.getElem?_concat_length]
    · have here := drawn.drawn column (by omega)
      rw [start, Nat.zero_add] at here
      rw [if_neg (by omega), here, List.getElem?_append_left (by omega)]

/-- The row stays whole behind the line feed: the screen is not scrolled, or it is
scrolled by whole rows and has room for the row above the new one. -/
def RowRemains (g : Geometry) (row : Nat) : Prop :=
  row + 1 < g.height ∨ g.width % 2 = 0 ∧ 2 ≤ g.height

theorem newline_column (g : Geometry) (tty : Tty) : (tty.newline g).x = 0 := by
  unfold Tty.newline
  split <;> rfl

/-- Scrolled on an odd width, the last column of the row above is that of the column
before it, or 0. -/
theorem charAt_scrollMem_odd {mem : List Cell} (memory : mem.length = g.cells)
    (odd : g.width % 2 ≠ 0) (wide : 2 ≤ g.width) (high : 2 ≤ g.height) :
    charAt g (scrollMem g mem) (g.width - 1) (g.height - 2) =
        charAt g mem (g.width - 2) (g.height - 1) ∨
      charAt g (scrollMem g mem) (g.width - 1) (g.height - 2) = some 0 := by
  have rows : (g.height - 2) * g.width + g.width = g.width * (g.height - 1) := by
    rw [← Nat.succ_mul, Nat.mul_comm]
    congr 1
    omega
  have upper := g.upper_cells
  have place : g.width - 1 + (g.height - 2) * g.width = g.width * (g.height - 1) - 1 := by
    omega
  simp only [charAt, place]
  rcases odd_rows odd with ⟨-, left⟩
  by_cases copied : g.width * (g.height - 1) - 1 < 2 * (g.width * (g.height - 1) / 2)
  · left
    have source : g.width - 1 + (g.width * (g.height - 1) - 1) =
        g.width - 2 + (g.height - 1) * g.width := by
      rw [Nat.mul_comm (g.height - 1)]
      omega
    rw [getElem?_scrollMem_shifted memory odd copied, source]
  · right
    rw [getElem?_scrollMem_zeroed memory (by omega) (by omega)]
    rfl

theorem newline_keeps_line_iff {content : List (BitVec 8)} {last : BitVec 8}
    (memory : tty.mem.length = g.cells) (row : tty.y < g.height) (wide : 2 ≤ g.width)
    (shown : LineShown g content tty.mem tty.y) (ends : content[g.width - 1]? = some last)
    (present : last ≠ 0) (different : content[g.width - 2]? ≠ some last) :
    (∃ r, r + 1 = (tty.newline g).y ∧ LineShown g content (tty.newline g).mem r) ↔
      RowRemains g tty.y := by
  by_cases below : g.height ≤ tty.y + 1
  · have scrolled : tty.newline g =
        { tty with x := 0, y := g.height - 1, mem := scrollMem g tty.mem } := if_pos below
    rw [scrolled]
    dsimp only
    constructor
    · rintro ⟨r, above, shown'⟩
      refine Or.inr ⟨?_, by omega⟩
      by_contra odd
      have lastColumn := shown' (g.width - 1) (by omega)
      rw [ends, show r = g.height - 2 by omega] at lastColumn
      rcases charAt_scrollMem_odd memory odd wide (by omega) with copied | zeroed
      · have before := shown (g.width - 2) (by omega)
        rw [show tty.y = g.height - 1 by omega, ← copied, lastColumn] at before
        exact different before.symm
      · rw [zeroed] at lastColumn
        exact present (Option.some.inj lastColumn).symm
    · rintro (inside | ⟨even, high⟩)
      · omega
      · refine ⟨g.height - 2, by omega, ?_⟩
        have moved := scrollMem_movedUp_of_even memory even
        intro x inside
        have copied := moved.rows x inside (g.height - 2) (by omega)
        rw [show g.height - 2 + 1 = tty.y by omega] at copied
        rw [charAt, copied, ← shown x inside, charAt]
  · have next : tty.newline g = { tty with x := 0, y := tty.y + 1 } := if_neg below
    rw [next]
    exact iff_of_true ⟨tty.y, rfl, shown⟩ (Or.inl (by omega))

end Line

/-! ## The effect of kprint_ok_fail -/

/-- `[OK]` or `[FAIL]`, in its pieces. -/
def tagPieces (ok : Bool) : List TextPiece :=
  if ok then
    [char 0x5B, pen 0x02, char 0x4F, char 0x4B, pen 0x07, char 0x5D]
  else
    [char 0x5B, pen 0x04, char 0x46, char 0x41, char 0x49, char 0x4C, pen 0x07, char 0x5D]

theorem okFailTag_eq (ok : Bool) : okFailTag ok = textOf (tagPieces ok) := by
  cases ok <;> rfl

theorem tagPieces_valid (ok : Bool) : ∀ piece ∈ tagPieces ok, piece.Valid := by
  cases ok <;> decide

/-- The tag has as many characters as `ok_length` says. -/
theorem characters_tagPieces (ok : Bool) :
    (characters (tagPieces ok)).length = (okLength ok).toNat := by
  cases ok <;> decide

/-- The spaces of the padding. -/
def padding (count : Nat) : List TextPiece :=
  List.replicate count (char 0x20)

@[simp] theorem characters_padding (count : Nat) :
    characters (padding count) = List.replicate count 0x20 := by
  induction count with
  | zero => rfl
  | succ count inductionHypothesis =>
      show 0x20 :: characters (padding count) = _
      rw [inductionHypothesis]
      rfl

@[simp] theorem penAfterAll_padding (color : Color) (count : Nat) :
    penAfterAll color (padding count) = color := by
  induction count with
  | zero => rfl
  | succ count inductionHypothesis => exact inductionHypothesis

section Effect

variable {drv : TtyDriver δ} {c : Console δ}

/-- `kprint` draws the pieces of its string at the tty of the process. -/
theorem kprint_textOf {pieces : List TextPiece} (valid : ∀ piece ∈ pieces, piece.Valid)
    (printable : Printable drv c) :
    ∃ c', kprint drv (textOf pieces) c = some (textLength (textOf pieces), c') ∧
      c.Becomes (ttyCurrentProcess c)
        ((c.ttys (ttyCurrentProcess c)).draw drv.geometry pieces) c' ∧
      Printable drv c' := by
  obtain ⟨c', ran, changed⟩ := ttyPrint_effect drv (textOf pieces) printable
  have kept : Printable drv c' := by
    rw [Printable, ttyCurrentProcess_becomes changed, changed.self]
    exact printable.print _
  rw [print_textOf valid] at changed
  exact ⟨c', ran, changed, kept⟩

/-- A loop that comes back has drawn a space for each pass. -/
theorem okFailLoop_becomes {bound : BitVec 32} (reachable : bound.toNat ≤ 255)
    {fuel : Nat} {i : BitVec 8} (below : i.toNat ≤ bound.toNat) {c' : Console δ}
    (printable : Printable drv c) (ran : okFailLoop drv bound fuel i c = some c') :
    c.Becomes (ttyCurrentProcess c)
        ((c.ttys (ttyCurrentProcess c)).draw drv.geometry
          (padding (bound.toNat - i.toNat))) c' ∧
      Printable drv c' := by
  induction fuel generalizing i c with
  | zero => cases ran
  | succ fuel inductionHypothesis =>
      rw [okFailLoop] at ran
      by_cases more : i.setWidth 32 < bound
      · obtain ⟨middle, padded, once, kept⟩ :=
          @kprint_textOf _ drv c [char 0x20] (by decide) printable
        rw [if_pos more, show [0x20, 0] = textOf [char 0x20] from rfl, padded] at ran
        rw [BitVec.lt_def, BitVec.toNat_setWidth] at more
        have next : (i + 1).toNat = i.toNat + 1 := by
          rw [BitVec.toNat_add]
          exact Nat.mod_eq_of_lt (by simp; omega)
        rcases inductionHypothesis (by omega) kept ran with ⟨later, printable'⟩
        rw [ttyCurrentProcess_becomes once, once.self, ← draw_append] at later
        have count : bound.toNat - i.toNat = bound.toNat - (i + 1).toNat + 1 := by omega
        rw [count]
        exact ⟨once.trans later, printable'⟩
      · rw [if_neg more] at ran
        cases ran
        rw [BitVec.lt_def, BitVec.toNat_setWidth] at more
        have none : bound.toNat - i.toNat = 0 := by omega
        rw [none]
        exact ⟨.same _ _, printable⟩

/-- The text, the padding and the tag are drawn, and the pen is that of before the tag. -/
theorem kprintOkFail_draws {pieces : List TextPiece} {ok : Bool} {fuel len count : Nat}
    {c' : Console δ} (valid : ∀ piece ∈ pieces, piece.Valid) (printable : Printable drv c)
    (spaces : (okFailBound drv.geometry
      (BitVec.ofNat 32 (textLength (textOf pieces))) ok).toNat = count)
    (reachable : count ≤ 255)
    (finished : kprintOkFail drv fuel (textOf pieces) ok c = some (len, c')) :
    c'.ttys (ttyCurrentProcess c) =
      { (c.ttys (ttyCurrentProcess c)).draw drv.geometry
          (pieces ++ padding count ++ tagPieces ok) with
        color := ((c.ttys (ttyCurrentProcess c)).draw drv.geometry
          (pieces ++ padding count)).color } := by
  obtain ⟨printed, ran, drawn, kept⟩ := kprint_textOf valid printable
  rw [kprintOkFail, ran] at finished
  simp only [Option.bind_eq_bind, Option.bind_some] at finished
  rcases Option.bind_eq_some_iff.mp finished with ⟨spaced, looped, rest⟩
  rcases okFailLoop_becomes (by omega) (Nat.zero_le _) kept looped with ⟨padded, ready⟩
  rw [ttyCurrentProcess_becomes drawn, drawn.self, ← draw_append, spaces] at padded
  have before := drawn.trans padded
  obtain ⟨tagged, ranTag, tag, -⟩ := kprint_textOf (tagPieces_valid ok) ready
  rw [ttyCurrentProcess_becomes before, before.self, ← draw_append] at tag
  rw [okFailTag_eq, ranTag] at rest
  cases rest
  have all := before.trans tag
  show (ksetColor (kgetColor spaced) tagged).ttys _ = _
  rw [ksetColor, Console.modify_ttys, ttyCurrentProcess_becomes all, Function.update_self,
    all.self, kgetColor, ttyCurrentProcess_becomes before, before.self]
  rfl

end Effect

/-! ## The tag in the last columns -/

/-- The text from the first column on, blanks, and the tag up to the last column. -/
def alignedLine (g : Geometry) (pieces : List TextPiece) (ok : Bool) : List (BitVec 8) :=
  characters pieces ++
    List.replicate (g.width - (characters pieces).length - (okLength ok).toNat) 0x20 ++
      characters (tagPieces ok)

/-- The line is the row above the cursor, the cursor is in the first column, and the
pen is the one in force after the text. -/
structure RightAligned (g : Geometry) (pieces : List TextPiece) (ok : Bool)
    (before after : Tty) : Prop where
  x : after.x = 0
  row : ∃ r, r + 1 = after.y ∧ LineShown g (alignedLine g pieces ok) after.mem r
  color : after.color = penAfterAll before.color pieces

/-- `kprint_ok_fail` comes back and leaves the tag right-aligned. -/
def RightAligns (drv : TtyDriver δ) (pieces : List TextPiece) (ok : Bool)
    (c : Console δ) : Prop :=
  ∃ fuel len c', kprintOkFail drv fuel (textOf pieces) ok c = some (len, c') ∧
    RightAligned drv.geometry pieces ok (c.ttys (ttyCurrentProcess c))
      (c'.ttys (ttyCurrentProcess c))

theorem okFailBound_toNat {g : Geometry} {len : Nat} {ok : Bool}
    (fits : len + (okLength ok).toNat ≤ g.width) :
    (okFailBound g (BitVec.ofNat 32 len) ok).toNat =
      g.width - len - (okLength ok).toNat := by
  have wide : g.width < 4294967296 := Nat.lt_of_le_of_lt g.width_le_cells g.cells_lt_size
  simp only [okFailBound, BitVec.toNat_sub, BitVec.toNat_ofNat, BitVec.toNat_setWidth]
  omega

/-- The tag without its last bracket. -/
def tagFront (ok : Bool) : List TextPiece :=
  (tagPieces ok).dropLast

theorem tagPieces_eq (ok : Bool) : tagPieces ok = tagFront ok ++ [char 0x5D] := by
  cases ok <;> rfl

section Aligned

variable {g : Geometry} {tty : Tty} {pieces : List TextPiece} {ok : Bool} {count : Nat}

theorem characters_front (ok : Bool) :
    (characters (tagFront ok)).length + 1 = (okLength ok).toNat := by
  cases ok <;> rfl

/-- The text and the padding stay in the row. -/
theorem draw_padded (memory : tty.mem.length = g.cells) (row : tty.y < g.height)
    (start : tty.x = 0) (fits : (characters pieces).length + count < g.width) :
    Drawn g (pieces ++ padding count) tty (tty.draw g (pieces ++ padding count)) := by
  apply draw_drawn memory row
  rw [characters_append, characters_padding, List.length_append, List.length_replicate]
  omega

/-- Padding that leaves room for the tag and no more fills the row. -/
theorem draw_filled (memory : tty.mem.length = g.cells) (row : tty.y < g.height)
    (start : tty.x = 0)
    (fills : (characters pieces).length + count + (okLength ok).toNat = g.width) :
    ∃ full : Tty, tty.draw g (pieces ++ padding count ++ tagPieces ok) = full.newline g ∧
      full.y = tty.y ∧ full.mem.length = g.cells ∧
      LineShown g (alignedLine g pieces ok) full.mem tty.y := by
  have front := characters_front ok
  have length : (characters (pieces ++ padding count ++ tagFront ok)).length + 1 = g.width := by
    rw [characters_append, characters_append, characters_padding, List.length_append,
      List.length_append, List.length_replicate]
    omega
  have whole : characters (pieces ++ padding count ++ tagFront ok) ++ [0x5D] =
      alignedLine g pieces ok := by
    have spaces : g.width - (characters pieces).length - (okLength ok).toNat = count := by
      omega
    rw [alignedLine, spaces, tagPieces_eq, characters_append, characters_append,
      characters_append, characters_padding, List.append_assoc (_ ++ _)]
    rfl
  obtain ⟨full, ended, y, memory', shown⟩ :=
    @draw_whole_line g tty _ 0x5D memory start row length
  rw [List.append_assoc, ← tagPieces_eq] at ended
  rw [whole] at shown
  exact ⟨full, ended, y, memory', shown⟩

/-- Padding that leaves more room stops before the last column. -/
theorem draw_short (memory : tty.mem.length = g.cells) (row : tty.y < g.height)
    (start : tty.x = 0)
    (short : (characters pieces).length + count + (okLength ok).toNat < g.width) :
    (tty.draw g (pieces ++ padding count ++ tagPieces ok)).x =
      (characters pieces).length + count + (okLength ok).toNat := by
  have length : (characters (pieces ++ padding count ++ tagPieces ok)).length =
      (characters pieces).length + count + (okLength ok).toNat := by
    rw [characters_append, characters_append, characters_padding, List.length_append,
      List.length_append, List.length_replicate, characters_tagPieces]
  have drawn := draw_drawn memory row (by omega :
    tty.x + (characters (pieces ++ padding count ++ tagPieces ok)).length < g.width)
  rw [drawn.x, length, start, Nat.zero_add]

/-- The last two characters of the line are a letter and the bracket. -/
theorem alignedLine_ends
    (fits : (characters pieces).length + (okLength ok).toNat ≤ g.width) :
    (alignedLine g pieces ok)[g.width - 1]? = some 0x5D ∧
      (alignedLine g pieces ok)[g.width - 2]? ≠ some 0x5D := by
  have front : (characters pieces ++
      List.replicate (g.width - (characters pieces).length - (okLength ok).toNat)
        (0x20 : BitVec 8)).length = g.width - (okLength ok).toNat := by
    rw [List.length_append, List.length_replicate]
    omega
  have tag : 4 ≤ (okLength ok).toNat := by cases ok <;> decide
  rw [alignedLine, List.getElem?_append_right (by omega),
    List.getElem?_append_right (by omega), front,
    show g.width - 1 - (g.width - (okLength ok).toNat) = (okLength ok).toNat - 1 by omega,
    show g.width - 2 - (g.width - (okLength ok).toNat) = (okLength ok).toNat - 2 by omega]
  cases ok <;> decide

end Aligned

section Iff

variable (drv : TtyDriver δ) {c : Console δ} {pieces : List TextPiece} (ok : Bool)

/-- Without colour commands the padding is right, and the line is at stake only in the
line feed behind it. -/
theorem rightAligned_plain_iff (narrow : drv.geometry.width ≤ 250)
    (valid : ∀ piece ∈ pieces, piece.Valid) (plain : colorCommands pieces = 0)
    (fits : (characters pieces).length + (okLength ok).toNat ≤ drv.geometry.width)
    (printable : Printable drv c) (start : (c.ttys (ttyCurrentProcess c)).x = 0) :
    RightAligns drv pieces ok c ↔
      RowRemains drv.geometry (c.ttys (ttyCurrentProcess c)).y := by
  have tag : 4 ≤ (okLength ok).toNat := by cases ok <;> decide
  have length := textLength_textOf valid
  rw [plain, Nat.mul_zero, Nat.add_zero] at length
  have bound := okFailBound_toNat (by rwa [← length] at fits)
  generalize counted : drv.geometry.width - textLength (textOf pieces) -
    (okLength ok).toNat = count at bound
  obtain ⟨full, filled, y, memory, shown⟩ :=
    draw_filled printable.mem_length printable.y_lt start (by omega :
      (characters pieces).length + count + (okLength ok).toNat = drv.geometry.width)
  have pen := (draw_padded printable.mem_length printable.y_lt start (by omega :
    (characters pieces).length + count < drv.geometry.width)).color
  rw [← y] at shown ⊢
  rw [← newline_keeps_line_iff memory (by rw [y]; exact printable.y_lt) (by omega) shown
    (alignedLine_ends fits).1 (by decide) (alignedLine_ends fits).2]
  constructor
  · rintro ⟨fuel, len, c', finished, aligned⟩
    have drawn := kprintOkFail_draws valid printable bound (by omega) finished
    rw [filled] at drawn
    have row := aligned.row
    rw [drawn] at row
    exact row
  · intro row
    obtain ⟨fuel, ⟨len, c'⟩, finished⟩ :=
      @kprintOkFail_terminates _ drv _ ok _ printable (by rw [bound]; omega)
    have drawn := kprintOkFail_draws valid printable bound (by omega) finished
    rw [filled, pen, penAfterAll_append, penAfterAll_padding] at drawn
    refine ⟨fuel, len, c', finished, ?_⟩
    rw [drawn]
    exact ⟨newline_column .., row, rfl⟩

/-- With colour commands the row is left short of the last column, if the function
comes back. -/
theorem not_rightAligned_of_colors (valid : ∀ piece ∈ pieces, piece.Valid)
    (small : textLength (textOf pieces) < 2147483648)
    (colored : colorCommands pieces ≠ 0)
    (printable : Printable drv c) (start : (c.ttys (ttyCurrentProcess c)).x = 0) :
    ¬ RightAligns drv pieces ok c := by
  rintro ⟨fuel, len, c', finished, aligned⟩
  have tag : 4 ≤ (okLength ok).toNat := by cases ok <;> decide
  have length := textLength_textOf valid
  have terminates : OkFailTerminates drv (textOf pieces) ok c := ⟨fuel, _, finished⟩
  rw [kprintOkFail_terminates_iff drv printable,
    padding_le_iff drv.geometry small ok] at terminates
  have bound := okFailBound_toNat terminates.1
  have drawn := kprintOkFail_draws valid printable bound (by omega) finished
  have x := aligned.x
  rw [drawn] at x
  have short := @draw_short drv.geometry _ pieces ok (drv.geometry.width -
      textLength (textOf pieces) - (okLength ok).toNat)
    printable.mem_length printable.y_lt start (by omega)
  have moved : (characters pieces).length + (drv.geometry.width -
      textLength (textOf pieces) - (okLength ok).toNat) + (okLength ok).toNat = 0 :=
    short.symm.trans x
  omega

/-- The tag is right-aligned exactly when the text has no colour commands, whose bytes
are counted as columns, and the row is not lost or moved by less than a row when the
screen is scrolled.  No object of a C program reaches 2 GiB. -/
theorem rightAligned_iff (narrow : drv.geometry.width ≤ 250)
    (valid : ∀ piece ∈ pieces, piece.Valid)
    (small : textLength (textOf pieces) < 2147483648)
    (fits : (characters pieces).length + (okLength ok).toNat ≤ drv.geometry.width)
    (printable : Printable drv c) (start : (c.ttys (ttyCurrentProcess c)).x = 0) :
    RightAligns drv pieces ok c ↔
      colorCommands pieces = 0 ∧
        RowRemains drv.geometry (c.ttys (ttyCurrentProcess c)).y := by
  by_cases plain : colorCommands pieces = 0
  · rw [rightAligned_plain_iff drv ok narrow valid plain fits printable start]
    exact (and_iff_right plain).symm
  · exact iff_of_false
      (not_rightAligned_of_colors drv ok valid small plain printable start)
      fun both => plain both.1

end Iff

theorem rightAligned_iff_text_mode :
    RightAligns (plainDriver ⟨80, 25, by decide, by decide, by decide⟩)
        [char 0x48, char 0x69] true
        (initTty (plainDriver ⟨80, 25, by decide, by decide, by decide⟩) none ()) ↔
      colorCommands [char 0x48, char 0x69] = 0 ∧
        RowRemains ⟨80, 25, by decide, by decide, by decide⟩ 0 :=
  rightAligned_iff (plainDriver ⟨80, 25, by decide, by decide, by decide⟩) true
    (by decide) (by decide) (by decide) (by decide)
    (initTty_wellFormed (plainDriver ⟨80, 25, by decide, by decide, by decide⟩)
      (plainDriver_givesMemory _) none () 0) rfl

/-- One colour command, and the row of 80 columns is left at column 78. -/
theorem colored_text_misaligned :
    ¬ RightAligns (plainDriver ⟨80, 25, by decide, by decide, by decide⟩)
        [pen 0x0C, char 0x48, char 0x69] true
        (initTty (plainDriver ⟨80, 25, by decide, by decide, by decide⟩) none ()) :=
  not_rightAligned_of_colors (plainDriver ⟨80, 25, by decide, by decide, by decide⟩) true
    (by decide) (by decide) (by decide)
    (initTty_wellFormed (plainDriver ⟨80, 25, by decide, by decide, by decide⟩)
      (plainDriver_givesMemory _) none () 0) rfl

end Os88.TextConsole
