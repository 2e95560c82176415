/-
Module: Os88.TextConsole.Effect
Purpose: What each function of tty.c does to the tty it is given, as a function
  on ttys, with the proof that the function meets no fault there and leaves
  every other tty and the selectors alone.
Trusted boundary: none
Main exports: Tty.WellFormed, Command, commands, Tty.step, Tty.print,
  Console.Becomes, ttyScroll_eq, ttyFillColor_eq, ttyPrint_effect
-/
import Mathlib.Data.List.GetD
import Os88.Library.Patch
import Os88.TextConsole.Model

namespace Os88.TextConsole

open Execution Patch

variable {δ : Type}

/-! ## Geometry -/

namespace Geometry

theorem cells_eq (g : Geometry) : g.cells = g.width * g.height := rfl

theorem width_le_cells (g : Geometry) : g.width ≤ g.cells :=
  Nat.le_mul_of_pos_right g.width g.height_pos

theorem height_le_cells (g : Geometry) : g.height ≤ g.cells :=
  Nat.le_mul_of_pos_left g.height g.width_pos

/-- All rows but the last one. -/
theorem upper_cells (g : Geometry) :
    g.width * (g.height - 1) + g.width = g.cells := by
  rw [cells_eq, ← Nat.mul_succ, Nat.succ_eq_add_one, Nat.sub_add_cancel g.height_pos]

/-- A cell in range lies in the memory of a tty. -/
theorem index_lt (g : Geometry) {x y : Nat} (hx : x < g.width)
    (hy : y < g.height) : x + y * g.width < g.cells := by
  have row : (y + 1) * g.width ≤ g.height * g.width :=
    Nat.mul_le_mul_right g.width hy
  rw [Nat.add_mul, Nat.one_mul, Nat.mul_comm g.height] at row
  rw [cells_eq]
  omega

/-- Different cells in range have different indices. -/
theorem index_inj (g : Geometry) {x y x' y' : Nat} (hx : x < g.width)
    (hx' : x' < g.width) (equal : x + y * g.width = x' + y' * g.width) :
    x = x' ∧ y = y' := by
  have columns : x = x' := by
    have remainder := congrArg (· % g.width) equal
    simpa [Nat.add_mul_mod_self_right, Nat.mod_eq_of_lt hx,
      Nat.mod_eq_of_lt hx'] using remainder
  have rows : y * g.width = y' * g.width := by omega
  exact ⟨columns, Nat.eq_of_mul_eq_mul_right g.width_pos rows⟩

theorem cells_lt_size (g : Geometry) : g.cells < 2 ^ 32 := by
  have := g.cells_lt
  rw [cells_eq]
  omega

end Geometry

/-! ## The invariant of one tty -/

/-- The cursor is on the screen and the memory is that of one screen. -/
structure Tty.WellFormed (g : Geometry) (tty : Tty) : Prop where
  x_lt : tty.x < g.width
  y_lt : tty.y < g.height
  mem_length : tty.mem.length = g.cells

/-! ## Effects on the addressed tty -/

/-- The memory after `tty_fill_color`: whole pairs of cells are filled. -/
def fillMem (g : Geometry) (color : Color) (mem : List Cell) : List Cell :=
  patch 0 (2 * (g.cells / 2)) (fun _ => color ++ 0x20#8) mem

/-- The memory after `tty_scroll`: whole pairs of cells are moved up by twice
half a row, and the pairs after them are zeroed. -/
def scrollMem (g : Geometry) (mem : List Cell) : List Cell :=
  patch (2 * (g.width * (g.height - 1) / 2)) (2 * (g.cells / 2)) (fun _ => 0)
    (patch 0 (2 * (g.width * (g.height - 1) / 2))
      (fun k => mem.getD (k + 2 * (g.width / 2)) 0) mem)

namespace Tty

def fillColor (g : Geometry) (color : Color) (tty : Tty) : Tty :=
  { tty with mem := fillMem g color tty.mem, x := 0, y := 0 }

def scroll (g : Geometry) (tty : Tty) : Tty :=
  { tty with mem := scrollMem g tty.mem }

def newline (g : Geometry) (tty : Tty) : Tty :=
  if g.height ≤ tty.y + 1 then
    { tty with x := 0, y := g.height - 1, mem := scrollMem g tty.mem }
  else { tty with x := 0, y := tty.y + 1 }

def setChar (g : Geometry) (x y : Nat) (ch : BitVec 8) (color : Color)
    (tty : Tty) : Tty :=
  { tty with mem := tty.mem.set (x + y * g.width) (cellValue ch color) }

/-- Write one character at the cursor and advance, maybe past the right edge. -/
def advanced (g : Geometry) (ch : BitVec 8) (tty : Tty) : Tty :=
  { tty.setChar g tty.x tty.y ch tty.color with x := tty.x + 1 }

def glyph (g : Geometry) (ch : BitVec 8) (tty : Tty) : Tty :=
  if g.width ≤ tty.x + 1 then (tty.advanced g ch).newline g else tty.advanced g ch

end Tty

/-! ## The commands of a printed string -/

/-- What one byte of a printed string, or a colour byte after
`TTY_CMD_SET_COLOR`, asks for. -/
inductive Command where
  | setColor (color : Color)
  | newline
  | carriageReturn
  | backspace
  | glyph (ch : BitVec 8)
deriving Repr, DecidableEq

/-- The command of a byte that is neither NUL nor `TTY_CMD_SET_COLOR`. -/
def byteCommand (ch : BitVec 8) : Command :=
  if ch = 0x0A then .newline
  else if ch = 0x0D then .carriageReturn
  else if ch = 0x08 then .backspace
  else .glyph ch

/-- The commands of a string.  A colour command cut off by the end of the
string asks for nothing. -/
def commands : List (BitVec 8) → List Command
  | [] => []
  | ch :: rest =>
      if ch = 0 then []
      else if ch = TTY_CMD_SET_COLOR then
        match rest with
        | [] => []
        | color :: rest' =>
            if color = 0 then [] else .setColor color :: commands rest'
      else byteCommand ch :: commands rest

/-- Number of bytes before the terminator. -/
def textLength (str : List (BitVec 8)) : Nat :=
  (str.takeWhile (· ≠ 0)).length

/-- The branch of `tty_print` that serves a command. -/
def execCommand (drv : TtyDriver δ) (t : TtyId) :
    Command → Console δ → Option (Console δ)
  | .setColor color, c => some (c.modify t fun tty => { tty with color := color })
  | .newline, c => printByte drv t 0x0A c
  | .carriageReturn, c => printByte drv t 0x0D c
  | .backspace, c => printByte drv t 0x08 c
  | .glyph ch, c => printGlyph drv t ch c

/-- The effect of a command on the tty. -/
def Tty.step (g : Geometry) (tty : Tty) : Command → Tty
  | .setColor color => { tty with color := color }
  | .newline => tty.newline g
  | .carriageReturn => { tty with x := 0 }
  | .backspace => { tty with x := tty.x - 1 }
  | .glyph ch => tty.glyph g ch

/-- The effect of `tty_print` on the tty. -/
def Tty.print (g : Geometry) (str : List (BitVec 8)) (tty : Tty) : Tty :=
  (commands str).foldl (Tty.step g) tty

theorem execCommand_byteCommand (drv : TtyDriver δ) (t : TtyId) (ch : BitVec 8)
    (c : Console δ) :
    execCommand drv t (byteCommand ch) c = printByte drv t ch c := by
  unfold byteCommand
  by_cases lineFeed : ch = 0x0A
  · rw [if_pos lineFeed, lineFeed]
    rfl
  · by_cases carriage : ch = 0x0D
    · rw [if_neg lineFeed, if_pos carriage, carriage]
      rfl
    · by_cases back : ch = 0x08
      · rw [if_neg lineFeed, if_neg carriage, if_pos back, back]
        rfl
      · rw [if_neg lineFeed, if_neg carriage, if_neg back, printByte,
          if_neg lineFeed, if_neg carriage, if_neg back]
        rfl

@[simp] theorem commands_nul (rest : List (BitVec 8)) :
    commands (0 :: rest) = [] := by
  rw [commands.eq_def]
  rfl

@[simp] theorem commands_setColor_nul (rest : List (BitVec 8)) :
    commands (TTY_CMD_SET_COLOR :: 0 :: rest) = [] := by
  rw [commands.eq_def]
  rfl

theorem commands_setColor {color : Color} (present : color ≠ 0)
    (rest : List (BitVec 8)) :
    commands (TTY_CMD_SET_COLOR :: color :: rest) =
      .setColor color :: commands rest := by
  rw [commands.eq_def]
  simp only [if_neg present]
  rfl

theorem commands_byte {ch : BitVec 8} (present : ch ≠ 0)
    (ordinary : ch ≠ TTY_CMD_SET_COLOR) (rest : List (BitVec 8)) :
    commands (ch :: rest) = byteCommand ch :: commands rest := by
  rw [commands.eq_def]
  simp only [if_neg present, if_neg ordinary]

theorem textLength_cons {ch : BitVec 8} (present : ch ≠ 0)
    (rest : List (BitVec 8)) :
    textLength (ch :: rest) = textLength rest + 1 := by
  rw [textLength, List.takeWhile_cons_of_pos (by simpa using present)]
  rfl

/-- `tty_print` serves the commands of its string in order, and its index ends
at the terminator. -/
theorem printLoop_eq_runAll (drv : TtyDriver δ) (t : TtyId)
    (str : List (BitVec 8)) (i : Nat) (c : Console δ) :
    printLoop drv t str i c =
      (runAll (execCommand drv t) (commands str) c).map
        fun c' => (i + textLength str, c') := by
  fun_induction printLoop drv t str i c with
  | case1 i c => rfl
  | case2 rest i c => rw [commands_nul]; rfl
  | case3 i c present => rfl
  | case4 rest i c present =>
      rw [commands_setColor_nul, textLength_cons present]
      rfl
  | case5 i c color rest nonzero present inductionHypothesis =>
      rw [inductionHypothesis, commands_setColor nonzero, runAll_cons,
        textLength_cons present, textLength_cons nonzero]
      simp only [execCommand, Option.bind_some]
      rw [show i + 2 + textLength rest = i + (textLength rest + 1 + 1) by omega]
  | case6 ch rest i c present ordinary inductionHypothesis =>
      rw [commands_byte present ordinary, textLength_cons present, runAll_cons,
        execCommand_byteCommand]
      cases printByte drv t ch c with
      | none => rfl
      | some middle =>
          simp only [Option.bind_eq_bind, Option.bind_some, inductionHypothesis]
          rw [show i + 1 + textLength rest = i + (textLength rest + 1) by omega]

/-! ## Frames

`Becomes` says that a console changed at one tty only, up to the device. -/

/-- `after` is `before` with `tty` in place of tty `t`, on some device. -/
structure Console.Becomes (t : TtyId) (tty : Tty) (before after : Console δ) :
    Prop where
  ttys : after.ttys = Function.update before.ttys t tty
  currentScreen : after.currentScreen = before.currentScreen
  currentTty : after.currentTty = before.currentTty
  threadTty : after.threadTty = before.threadTty

namespace Console

@[simp] theorem modify_ttys (c : Console δ) (t : TtyId) (f : Tty → Tty) :
    (c.modify t f).ttys = Function.update c.ttys t (f (c.ttys t)) := rfl

@[simp] theorem modify_currentScreen (c : Console δ) (t : TtyId) (f : Tty → Tty) :
    (c.modify t f).currentScreen = c.currentScreen := rfl

@[simp] theorem modify_device (c : Console δ) (t : TtyId) (f : Tty → Tty) :
    (c.modify t f).device = c.device := rfl

theorem modify_congr {c : Console δ} {t : TtyId} {f g : Tty → Tty}
    (same : f (c.ttys t) = g (c.ttys t)) : c.modify t f = c.modify t g := by
  rw [modify, modify, same]

theorem modify_modify (c : Console δ) (t : TtyId) (f g : Tty → Tty) :
    (c.modify t f).modify t g = c.modify t fun tty => g (f tty) := by
  simp [modify]

@[simp] theorem notify_ttys (c : Console δ) (callback : Option (δ → δ)) :
    (c.notify callback).ttys = c.ttys := by
  cases callback <;> rfl

@[simp] theorem notify_currentScreen (c : Console δ) (callback : Option (δ → δ)) :
    (c.notify callback).currentScreen = c.currentScreen := by
  cases callback <;> rfl

@[simp] theorem notify_currentTty (c : Console δ) (callback : Option (δ → δ)) :
    (c.notify callback).currentTty = c.currentTty := by
  cases callback <;> rfl

@[simp] theorem notify_threadTty (c : Console δ) (callback : Option (δ → δ)) :
    (c.notify callback).threadTty = c.threadTty := by
  cases callback <;> rfl

end Console

section Frames

variable (drv : TtyDriver δ)

@[simp] theorem ttyUpdateCursorLocation_ttys (c : Console δ) :
    (ttyUpdateCursorLocation drv c).ttys = c.ttys := by
  unfold ttyUpdateCursorLocation
  split <;> simp

@[simp] theorem ttyUpdateCursorLocation_currentScreen (c : Console δ) :
    (ttyUpdateCursorLocation drv c).currentScreen = c.currentScreen := by
  unfold ttyUpdateCursorLocation
  split <;> simp

@[simp] theorem ttyUpdateCursorLocation_currentTty (c : Console δ) :
    (ttyUpdateCursorLocation drv c).currentTty = c.currentTty := by
  unfold ttyUpdateCursorLocation
  split <;> simp

@[simp] theorem ttyUpdateCursorLocation_threadTty (c : Console δ) :
    (ttyUpdateCursorLocation drv c).threadTty = c.threadTty := by
  unfold ttyUpdateCursorLocation
  split <;> simp

end Frames

namespace Console.Becomes

variable {drv : TtyDriver δ} {t : TtyId} {tty : Tty} {c c' c'' : Console δ}

theorem same (t : TtyId) (c : Console δ) : Becomes t (c.ttys t) c c :=
  ⟨(Function.update_eq_self t c.ttys).symm, rfl, rfl, rfl⟩

theorem modify (t : TtyId) (c : Console δ) (f : Tty → Tty) :
    Becomes t (f (c.ttys t)) c (c.modify t f) :=
  ⟨rfl, rfl, rfl, rfl⟩

/-- The tty itself after the change. -/
theorem self (changed : Becomes t tty c c') : c'.ttys t = tty := by
  rw [changed.ttys, Function.update_self]

theorem other (changed : Becomes t tty c c') {u : TtyId} (ne : u ≠ t) :
    c'.ttys u = c.ttys u := by
  rw [changed.ttys, Function.update_of_ne ne]

theorem trans {tty' : Tty} (one : Becomes t tty c c')
    (two : Becomes t tty' c' c'') : Becomes t tty' c c'' where
  ttys := by rw [two.ttys, one.ttys, Function.update_idem]
  currentScreen := two.currentScreen.trans one.currentScreen
  currentTty := two.currentTty.trans one.currentTty
  threadTty := two.threadTty.trans one.threadTty

/-- Writing the tty once more. -/
theorem thenModify (changed : Becomes t tty c c') (f : Tty → Tty) :
    Becomes t (f tty) c (c'.modify t f) := by
  have written := modify t c' f
  rw [changed.self] at written
  exact changed.trans written

theorem notify (changed : Becomes t tty c c') (callback : Option (δ → δ)) :
    Becomes t tty c (c'.notify callback) := by
  constructor
  · rw [notify_ttys, changed.ttys]
  · rw [notify_currentScreen, changed.currentScreen]
  · rw [notify_currentTty, changed.currentTty]
  · rw [notify_threadTty, changed.threadTty]

theorem updateCursorLocation (changed : Becomes t tty c c') :
    Becomes t tty c (ttyUpdateCursorLocation drv c') := by
  constructor
  · rw [ttyUpdateCursorLocation_ttys, changed.ttys]
  · rw [ttyUpdateCursorLocation_currentScreen, changed.currentScreen]
  · rw [ttyUpdateCursorLocation_currentTty, changed.currentTty]
  · rw [ttyUpdateCursorLocation_threadTty, changed.threadTty]

theorem showChar (changed : Becomes t tty c c') (u : TtyId) (x y : Nat)
    (ch : BitVec 8) (color : Color) :
    Becomes t tty c (showChar drv u x y ch color c') := by
  unfold TextConsole.showChar
  split
  · exact changed.notify _
  · exact changed

theorem redraw (changed : Becomes t tty c c') (u : TtyId) :
    Becomes t tty c (ttyRedraw drv u c') := by
  unfold ttyRedraw
  split
  · exact (changed.notify _).updateCursorLocation
  · exact changed

end Console.Becomes

/-! ## The loops over the cell memory -/

theorem store32_patch {lo i : Nat} {f : Nat → Cell} {mem : List Cell}
    {v : BitVec 32} (lower : lo ≤ 2 * i) (bound : 2 * i + 1 < mem.length)
    (low : v.extractLsb' 0 16 = f (2 * i))
    (high : v.extractLsb' 16 16 = f (2 * i + 1)) :
    store32 (patch lo (2 * i) f mem) i v =
      some (patch lo (2 * (i + 1)) f mem) := by
  rw [store32, if_pos (by rwa [length_patch]), low, high, set_patch f mem lower,
    set_patch f mem (Nat.le_succ_of_le lower)]
  rfl

/-- A loop that stores one word everywhere patches in its two equal halves. -/
theorem store_loop (first count : Nat) {cell : Cell} (mem : List Cell)
    {v : BitVec 32} (bound : 2 * (first + count) ≤ mem.length)
    (low : v.extractLsb' 0 16 = cell) (high : v.extractLsb' 16 16 = cell) :
    countLoop (fun i mem => store32 mem i v) first count mem =
      some (patch (2 * first) (2 * (first + count)) (fun _ => cell) mem) := by
  have loop : ∃ final,
      countLoop (fun i mem => store32 mem i v) first count mem = some final ∧
        final = patch (2 * first) (2 * (first + count)) (fun _ => cell) mem := by
    apply countLoop_rule
      (fun i m => m = patch (2 * first) (2 * i) (fun _ => cell) mem)
      (patch_empty _ _ _).symm
    intro i m lower upper reached
    subst reached
    exact ⟨_, store32_patch (by omega) (by omega) low high, rfl⟩
  rcases loop with ⟨final, ran, reached⟩
  rw [ran, reached]

/-- One pass of the copying loop of `tty_scroll`: the cells it reads were not
written yet. -/
theorem scrollPass_patch {g : Geometry} {i : Nat} {mem : List Cell}
    (length : mem.length = g.cells)
    (bound : i < g.width * (g.height - 1) / 2) :
    scrollPass g i
        (patch 0 (2 * i) (fun k => mem.getD (k + 2 * (g.width / 2)) 0) mem) =
      some (patch 0 (2 * (i + 1))
        (fun k => mem.getD (k + 2 * (g.width / 2)) 0) mem) := by
  have upper := g.upper_cells
  have size := g.cells_lt_size
  have reads : 2 * (i + g.width / 2) + 1 < mem.length := by omega
  have inRange : sizeT (i + g.width / 2) = i + g.width / 2 :=
    sizeT_of_lt (by omega)
  have loaded :
      load32 (patch 0 (2 * i) (fun k => mem.getD (k + 2 * (g.width / 2)) 0) mem)
          (sizeT (i + g.width / 2)) =
        some (mem.getD (2 * i + 1 + 2 * (g.width / 2)) 0 ++
          mem.getD (2 * i + 2 * (g.width / 2)) 0) := by
    rw [inRange, load32, getElem?_patch_outside _ _ (by omega),
      getElem?_patch_outside _ _ (by omega),
      show 2 * (i + g.width / 2) = 2 * i + 2 * (g.width / 2) by omega,
      show 2 * i + 2 * (g.width / 2) + 1 = 2 * i + 1 + 2 * (g.width / 2) by omega]
    have lowRead : 2 * i + 2 * (g.width / 2) < mem.length := by omega
    have highRead : 2 * i + 1 + 2 * (g.width / 2) < mem.length := by omega
    rw [List.getElem?_eq_getElem lowRead, List.getElem?_eq_getElem highRead,
      List.getD_eq_getElem mem 0 lowRead, List.getD_eq_getElem mem 0 highRead]
  rw [scrollPass, loaded, Option.bind_some]
  exact store32_patch (Nat.zero_le _) (by omega)
    BitVec.extractLsb'_append_eq_right BitVec.extractLsb'_append_eq_left

theorem scroll_loop {g : Geometry} {mem : List Cell}
    (length : mem.length = g.cells) :
    countLoop (scrollPass g) 0 (g.width * (g.height - 1) / 2) mem =
      some (patch 0 (2 * (g.width * (g.height - 1) / 2))
        (fun k => mem.getD (k + 2 * (g.width / 2)) 0) mem) := by
  have loop : ∃ final,
      countLoop (scrollPass g) 0 (g.width * (g.height - 1) / 2) mem =
          some final ∧
        final = patch 0 (2 * (0 + g.width * (g.height - 1) / 2))
          (fun k => mem.getD (k + 2 * (g.width / 2)) 0) mem := by
    apply countLoop_rule
      (fun i m =>
        m = patch 0 (2 * i) (fun k => mem.getD (k + 2 * (g.width / 2)) 0) mem)
      (patch_empty _ _ _).symm
    intro i m lower upper reached
    subst reached
    exact ⟨_, scrollPass_patch length (by omega), rfl⟩
  rcases loop with ⟨final, ran, reached⟩
  rw [ran, reached, Nat.zero_add]

@[simp] theorem length_fillMem (g : Geometry) (color : Color) (mem : List Cell) :
    (fillMem g color mem).length = mem.length := by
  simp [fillMem]

@[simp] theorem length_scrollMem (g : Geometry) (mem : List Cell) :
    (scrollMem g mem).length = mem.length := by
  simp [scrollMem]

theorem fillWord_low (color : Color) :
    (fillWord color).extractLsb' 0 16 = color ++ 0x20#8 := by
  revert color
  decide

theorem fillWord_high (color : Color) :
    (fillWord color).extractLsb' 16 16 = color ++ 0x20#8 := by
  revert color
  decide

/-! ## What the functions do -/

section Functions

variable (drv : TtyDriver δ) (t : TtyId) (c : Console δ)

theorem ttyFillColor_eq (color : Color)
    (length : (c.ttys t).mem.length = drv.geometry.cells) :
    ttyFillColor drv t color c =
      some (ttyRedraw drv t (c.modify t (Tty.fillColor drv.geometry color))) := by
  have whole : sizeT (drv.geometry.width * drv.geometry.height) =
      drv.geometry.cells := sizeT_of_lt drv.geometry.cells_lt_size
  have filled := store_loop 0 (drv.geometry.cells / 2) (c.ttys t).mem (by omega)
    (fillWord_low color) (fillWord_high color)
  rw [Nat.zero_add, Nat.mul_zero] at filled
  simp only [ttyFillColor, whole, filled]
  rfl

theorem ttyScroll_eq (length : (c.ttys t).mem.length = drv.geometry.cells) :
    ttyScroll drv t c =
      some (ttyRedraw drv t (c.modify t (Tty.scroll drv.geometry))) := by
  have upper := drv.geometry.upper_cells
  have size := drv.geometry.cells_lt_size
  have whole : sizeT (drv.geometry.width * drv.geometry.height) =
      drv.geometry.cells := sizeT_of_lt size
  have part : sizeT (drv.geometry.width * (drv.geometry.height - 1)) =
      drv.geometry.width * (drv.geometry.height - 1) := sizeT_of_lt (by omega)
  have copied := scroll_loop length
  have blank : (0 : BitVec 32).extractLsb' 0 16 = (0 : Cell) := by decide
  have cleared := store_loop (drv.geometry.width * (drv.geometry.height - 1) / 2)
    (drv.geometry.cells / 2 -
      drv.geometry.width * (drv.geometry.height - 1) / 2)
    (patch 0 (2 * (drv.geometry.width * (drv.geometry.height - 1) / 2))
      (fun k => (c.ttys t).mem.getD (k + 2 * (drv.geometry.width / 2)) 0)
      (c.ttys t).mem)
    (by rw [length_patch, length]; omega) blank (by decide)
  rw [Nat.add_sub_cancel' (by omega)] at cleared
  simp only [ttyScroll, whole, part, copied, cleared, Option.bind_eq_bind,
    Option.bind_some]
  rfl

theorem ttySetChar_eq {x y : Nat} (ch : BitVec 8) (color : Color)
    (hx : x < drv.geometry.width) (hy : y < drv.geometry.height)
    (length : (c.ttys t).mem.length = drv.geometry.cells) :
    ttySetChar drv t x y ch color c =
      some (showChar drv t x y ch color
        (c.modify t (Tty.setChar drv.geometry x y ch color))) := by
  have inside := drv.geometry.index_lt hx hy
  have index : sizeT (x + y * drv.geometry.width) = x + y * drv.geometry.width :=
    sizeT_of_lt (Nat.lt_trans inside drv.geometry.cells_lt_size)
  have stored : store16 (c.ttys t).mem (x + y * drv.geometry.width)
        (cellValue ch color) =
      some ((c.ttys t).mem.set (x + y * drv.geometry.width)
        (cellValue ch color)) := by
    rw [store16, if_pos (by rwa [length])]
  simp only [ttySetChar, index, stored]
  rfl

theorem ttyNewline_eq (row : (c.ttys t).y < drv.geometry.height)
    (length : (c.ttys t).mem.length = drv.geometry.cells) :
    ttyNewline drv t c = some
      (if drv.geometry.height ≤ (c.ttys t).y + 1 then
        (ttyRedraw drv t (c.modify t fun tty =>
          { tty with x := 0, y := tty.y + 1,
                     mem := scrollMem drv.geometry tty.mem })).modify t
          fun tty => { tty with y := drv.geometry.height - 1 }
      else c.modify t fun tty => { tty with x := 0, y := tty.y + 1 }) := by
  have bound := drv.geometry.height_le_cells
  have size := drv.geometry.cells_lt_size
  have next : sizeT ((c.ttys t).y + 1) = (c.ttys t).y + 1 :=
    sizeT_of_lt (by omega)
  have moved : (c.modify t fun tty => { tty with x := 0, y := sizeT (tty.y + 1) }) =
      c.modify t fun tty => { tty with x := 0, y := tty.y + 1 } := by
    simp only [Console.modify, next]
  simp only [ttyNewline, moved, Console.modify_ttys, Function.update_self]
  by_cases last : drv.geometry.height ≤ (c.ttys t).y + 1
  · rw [if_pos last, if_pos last, ttyScroll_eq drv t _ (by
      rw [Console.modify_ttys, Function.update_self]
      exact length), Console.modify_modify]
    rfl
  · rw [if_neg last, if_neg last]
    rfl

end Functions

/-! ## The invariant is kept -/

namespace Tty.WellFormed

variable {g : Geometry} {tty : Tty}

theorem fillColor (wellFormed : tty.WellFormed g) (color : Color) :
    (tty.fillColor g color).WellFormed g where
  x_lt := g.width_pos
  y_lt := g.height_pos
  mem_length := by simp [Tty.fillColor, wellFormed.mem_length]

theorem scroll (wellFormed : tty.WellFormed g) : (tty.scroll g).WellFormed g where
  x_lt := wellFormed.x_lt
  y_lt := wellFormed.y_lt
  mem_length := by simp [Tty.scroll, wellFormed.mem_length]

theorem setChar (wellFormed : tty.WellFormed g) (x y : Nat) (ch : BitVec 8)
    (color : Color) : (tty.setChar g x y ch color).WellFormed g where
  x_lt := wellFormed.x_lt
  y_lt := wellFormed.y_lt
  mem_length := by simp [Tty.setChar, wellFormed.mem_length]

theorem setColor (wellFormed : tty.WellFormed g) (color : Color) :
    ({ tty with color := color } : Tty).WellFormed g :=
  ⟨wellFormed.x_lt, wellFormed.y_lt, wellFormed.mem_length⟩

/-- The column is set anew, so it need not be on the screen before. -/
theorem newline (row : tty.y < g.height) (length : tty.mem.length = g.cells) :
    (tty.newline g).WellFormed g := by
  unfold Tty.newline
  have positive := g.height_pos
  split
  · refine ⟨g.width_pos, ?_, ?_⟩
    · show g.height - 1 < g.height
      omega
    · simp [length]
  · refine ⟨g.width_pos, ?_, length⟩
    show tty.y + 1 < g.height
    omega

theorem glyph (wellFormed : tty.WellFormed g) (ch : BitVec 8) :
    (tty.glyph g ch).WellFormed g := by
  have written := wellFormed.setChar tty.x tty.y ch tty.color
  unfold Tty.glyph
  split
  · exact newline written.y_lt written.mem_length
  · refine ⟨?_, written.y_lt, written.mem_length⟩
    show tty.x + 1 < g.width
    omega

theorem step (wellFormed : tty.WellFormed g) (command : Command) :
    (tty.step g command).WellFormed g := by
  cases command with
  | setColor color => exact wellFormed.setColor color
  | newline => exact newline wellFormed.y_lt wellFormed.mem_length
  | carriageReturn =>
      exact ⟨g.width_pos, wellFormed.y_lt, wellFormed.mem_length⟩
  | backspace =>
      refine ⟨?_, wellFormed.y_lt, wellFormed.mem_length⟩
      exact Nat.lt_of_le_of_lt (Nat.sub_le _ _) wellFormed.x_lt
  | glyph ch => exact wellFormed.glyph ch

theorem steps (wellFormed : tty.WellFormed g) (list : List Command) :
    (list.foldl (Tty.step g) tty).WellFormed g := by
  induction list generalizing tty with
  | nil => exact wellFormed
  | cons command rest inductionHypothesis =>
      exact inductionHypothesis (wellFormed.step command)

theorem print (wellFormed : tty.WellFormed g) (str : List (BitVec 8)) :
    (tty.print g str).WellFormed g :=
  wellFormed.steps (commands str)

end Tty.WellFormed

/-! ## Printing leaves the lock alone -/

theorem Tty.step_lock (g : Geometry) (tty : Tty) (command : Command) :
    (tty.step g command).lock = tty.lock := by
  have newline : ∀ tty : Tty, (tty.newline g).lock = tty.lock := by
    intro tty
    unfold Tty.newline
    split <;> rfl
  cases command with
  | setColor color => rfl
  | newline => exact newline tty
  | carriageReturn => rfl
  | backspace => rfl
  | glyph ch =>
      simp only [Tty.step, Tty.glyph]
      split
      · exact newline (tty.advanced g ch)
      · rfl

theorem Tty.print_lock (g : Geometry) (str : List (BitVec 8)) (tty : Tty) :
    (tty.print g str).lock = tty.lock := by
  unfold Tty.print
  induction commands str generalizing tty with
  | nil => rfl
  | cons command rest inductionHypothesis =>
      exact (inductionHypothesis _).trans (tty.step_lock g command)

/-! ## The functions follow their effects -/

section Effects

variable (drv : TtyDriver δ) {t : TtyId} {c : Console δ}

theorem ttyNewline_effect (row : (c.ttys t).y < drv.geometry.height)
    (length : (c.ttys t).mem.length = drv.geometry.cells) :
    ∃ c', ttyNewline drv t c = some c' ∧
      c.Becomes t ((c.ttys t).newline drv.geometry) c' := by
  rw [ttyNewline_eq drv t c row length]
  refine ⟨_, rfl, ?_⟩
  unfold Tty.newline
  by_cases last : drv.geometry.height ≤ (c.ttys t).y + 1
  · rw [if_pos last, if_pos last]
    have scrolled : c.Becomes t _ (ttyRedraw drv t _) :=
      (Console.Becomes.modify t c fun tty =>
        { tty with x := 0, y := tty.y + 1,
                   mem := scrollMem drv.geometry tty.mem }).redraw t
    exact scrolled.thenModify fun tty =>
      { tty with y := drv.geometry.height - 1 }
  · rw [if_neg last, if_neg last]
    exact Console.Becomes.modify t c fun tty => { tty with x := 0, y := tty.y + 1 }

/-- The console once a character is stored, shown and passed, before the line
may change. -/
def afterGlyph (t : TtyId) (ch : BitVec 8) (c : Console δ) : Console δ :=
  (showChar drv t (c.ttys t).x (c.ttys t).y ch (c.ttys t).color
    (c.modify t (Tty.setChar drv.geometry (c.ttys t).x (c.ttys t).y ch
      (c.ttys t).color))).modify t fun tty => { tty with x := tty.x + 1 }

theorem afterGlyph_becomes (t : TtyId) (ch : BitVec 8) (c : Console δ) :
    c.Becomes t ((c.ttys t).advanced drv.geometry ch) (afterGlyph drv t ch c) :=
  ((Console.Becomes.modify t c (Tty.setChar drv.geometry (c.ttys t).x
    (c.ttys t).y ch (c.ttys t).color)).showChar t (c.ttys t).x (c.ttys t).y ch
      (c.ttys t).color).thenModify fun tty => { tty with x := tty.x + 1 }

theorem printGlyph_eq (ch : BitVec 8)
    (wellFormed : (c.ttys t).WellFormed drv.geometry) :
    printGlyph drv t ch c =
      if drv.geometry.width ≤ (c.ttys t).x + 1 then
        ttyNewline drv t (afterGlyph drv t ch c)
      else some (afterGlyph drv t ch c) := by
  have written := ttySetChar_eq drv t c ch (c.ttys t).color wellFormed.x_lt
    wellFormed.y_lt wellFormed.mem_length
  have shown : c.Becomes t _ (showChar drv t _ _ ch _ _) :=
    (Console.Becomes.modify t c (Tty.setChar drv.geometry (c.ttys t).x
      (c.ttys t).y ch (c.ttys t).color)).showChar t (c.ttys t).x (c.ttys t).y ch
        (c.ttys t).color
  have next : sizeT ((c.ttys t).x + 1) = (c.ttys t).x + 1 := by
    have bound := drv.geometry.width_le_cells
    have size := drv.geometry.cells_lt_size
    have column := wellFormed.x_lt
    exact sizeT_of_lt (by omega)
  have advanced := Console.modify_congr (t := t)
    (f := fun tty : Tty => { tty with x := sizeT (tty.x + 1) })
    (g := fun tty => { tty with x := tty.x + 1 }) (by
      rw [shown.self]
      simp only [Tty.setChar, next])
  have column : ((afterGlyph drv t ch c).ttys t).x = (c.ttys t).x + 1 := by
    rw [(afterGlyph_becomes drv t ch c).self]
    rfl
  simp only [printGlyph, written, Option.bind_eq_bind, Option.bind_some, advanced]
  rw [← column]
  rfl

theorem printGlyph_effect (ch : BitVec 8)
    (wellFormed : (c.ttys t).WellFormed drv.geometry) :
    ∃ c', printGlyph drv t ch c = some c' ∧
      c.Becomes t ((c.ttys t).glyph drv.geometry ch) c' := by
  have advanced := afterGlyph_becomes drv t ch c
  have kept := wellFormed.setChar (c.ttys t).x (c.ttys t).y ch (c.ttys t).color
  rw [printGlyph_eq drv ch wellFormed]
  unfold Tty.glyph
  by_cases wraps : drv.geometry.width ≤ (c.ttys t).x + 1
  · obtain ⟨final, ran, moved⟩ :=
      ttyNewline_effect drv (c := afterGlyph drv t ch c) (t := t)
        (by rw [advanced.self]; exact kept.y_lt)
        (by rw [advanced.self]; exact kept.mem_length)
    rw [advanced.self] at moved
    rw [if_pos wraps, if_pos wraps]
    exact ⟨final, ran, advanced.trans moved⟩
  · rw [if_neg wraps, if_neg wraps]
    exact ⟨_, rfl, advanced⟩

theorem execCommand_effect (command : Command) (c : Console δ)
    (wellFormed : (c.ttys t).WellFormed drv.geometry) :
    ∃ c', execCommand drv t command c = some c' ∧
      c.Becomes t ((c.ttys t).step drv.geometry command) c' := by
  cases command with
  | setColor color =>
      exact ⟨_, rfl,
        Console.Becomes.modify t c fun tty => { tty with color := color }⟩
  | newline =>
      exact ttyNewline_effect drv wellFormed.y_lt wellFormed.mem_length
  | carriageReturn =>
      exact ⟨_, rfl, Console.Becomes.modify t c fun tty => { tty with x := 0 }⟩
  | backspace =>
      have changed :=
        Console.Becomes.modify t c fun tty => { tty with x := tty.x - 1 }
      by_cases column : (c.ttys t).x = 0
      · refine ⟨c, by simp [execCommand, printByte, column], ?_⟩
        have unchanged : (c.ttys t).step drv.geometry .backspace = c.ttys t := by
          have zero : (c.ttys t).x - 1 = (c.ttys t).x := by omega
          simp only [Tty.step, zero]
        rw [unchanged]
        exact Console.Becomes.same t c
      · refine ⟨_, ?_, changed⟩
        simp [execCommand, printByte, column]
  | glyph ch => exact printGlyph_effect drv ch wellFormed

/-- Serving a list of commands composes their effects. -/
theorem runAll_execCommand_effect (list : List Command)
    (wellFormed : (c.ttys t).WellFormed drv.geometry) :
    ∃ c', runAll (execCommand drv t) list c = some c' ∧
      c.Becomes t (list.foldl (Tty.step drv.geometry) (c.ttys t)) c' := by
  have run : ∃ final, runAll (execCommand drv t) list c = some final ∧
      (list.foldl (Tty.step drv.geometry) (c.ttys t)).WellFormed drv.geometry ∧
        c.Becomes t (list.foldl (Tty.step drv.geometry) (c.ttys t)) final := by
    apply runAll_simulates
      (fun c' tty => tty.WellFormed drv.geometry ∧ c.Becomes t tty c')
      (Tty.step drv.geometry) ⟨wellFormed, Console.Becomes.same t c⟩
    rintro command - c' tty ⟨kept, changed⟩
    obtain ⟨next, ran, moved⟩ :=
      execCommand_effect drv command c' (by rwa [changed.self])
    rw [changed.self] at moved
    exact ⟨next, ran, kept.step command, changed.trans moved⟩
  rcases run with ⟨final, ran, -, changed⟩
  exact ⟨final, ran, changed⟩

/-- `tty_print` meets no fault, returns the length of its string and changes
its own tty only. -/
theorem ttyPrint_effect (str : List (BitVec 8))
    (wellFormed : (c.ttys t).WellFormed drv.geometry) :
    ∃ c', ttyPrint drv t str c = some (textLength str, c') ∧
      c.Becomes t ((c.ttys t).print drv.geometry str) c' := by
  obtain ⟨final, ran, changed⟩ :=
    runAll_execCommand_effect drv (commands str) wellFormed
  have looped : printLoop drv t str 0 c = some (textLength str, final) := by
    rw [printLoop_eq_runAll, ran, Option.map_some, Nat.zero_add]
  refine ⟨_, by rw [ttyPrint, looped]; rfl, ?_⟩
  by_cases shown : final.currentScreen = some t
  · rw [if_pos shown]
    exact changed.updateCursorLocation
  · rw [if_neg shown]
    exact changed

end Effects

end Os88.TextConsole
