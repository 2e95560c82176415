/-
Module: Os88.TextConsole.Model
Purpose: The text consoles of kernel/tty.c: the tty records, the driver table,
  the two global selectors and the functions that work on them.
Trusted boundary: the driver callbacks, `thread_current` and the spinlocks lie
  outside the repository.  A callback is a function on the driver's own device
  state that reads the tty it is given; only `init` may change a tty.
Main exports: Geometry, Tty, TtyDriver, Console, initTty, ttySwitch,
  ttyFillColor, ttyNewline, ttyScroll, ttySetChar, ttySetString, ttyPrint,
  ttyEnter, ttyLeave
-/
import Mathlib.Algebra.Group.Nat.Defs
import Mathlib.Data.Fintype.Basic
import Mathlib.Logic.Function.Basic
import Os88.Library.Execution

namespace Os88.TextConsole

open Execution

/-- `tty_colored_char_t`: the character in the low byte, its colour in the high
byte. -/
abbrev Cell := BitVec 16

/-- `tty_color_t` -/
abbrev Color := BitVec 8

/-- An index into `ttys`, whose length is `TTY_COUNT`. -/
abbrev TtyId := Fin 8

/-- `default_tty` is `&ttys[0]`. -/
def defaultTty : TtyId := 0

def TTY_COLOR_BLACK : Color := 0x0
def TTY_COLOR_RED : Color := 0x4
def TTY_COLOR_LIGHTGREY : Color := 0x7

/-- `TTY_MKCOLOR(f, b)` -/
def ttyMkcolor (f b : Color) : Color := (b <<< 4) ||| f

def TTY_COLOR_DEFAULT : Color := ttyMkcolor TTY_COLOR_LIGHTGREY TTY_COLOR_BLACK

def TTY_CMD_SET_COLOR : BitVec 8 := 0x01

/-- Arithmetic in `size_t`, which is an `unsigned long` of 32 bits. -/
def sizeT (n : Nat) : Nat := n % 2 ^ 32

theorem sizeT_of_lt {n : Nat} (small : n < 2 ^ 32) : sizeT n = n :=
  Nat.mod_eq_of_lt small

/-- The screen size a driver reports.  A screen has a cell, and the memory of
one tty, two bytes a cell, is an object of the 32-bit address space. -/
structure Geometry where
  width : Nat
  height : Nat
  width_pos : 0 < width
  height_pos : 0 < height
  cells_lt : width * height < 2 ^ 31

/-- Number of cells of one screen. -/
def Geometry.cells (g : Geometry) : Nat := g.width * g.height

/-- `tty_t`.  The cells `mem` points to belong to the tty alone; a null `mem`
has none. -/
structure Tty where
  lock : Bool
  x : Nat
  y : Nat
  color : Color
  mem : List Cell

/-- `tty_driver_t` over a driver whose own state is a `δ`; a callback may be
null. -/
structure TtyDriver (δ : Type) where
  geometry : Geometry
  init : Option (TtyId → Tty → δ → Tty × δ)
  rerender : Option (Tty → δ → δ)
  switchHandler : Option (Tty → δ → δ)
  updateCursorLocation : Option (Tty → δ → δ)
  setChar : Option (Tty → Nat → Nat → BitVec 8 → Color → δ → δ)

/-- The static variables of tty.c and the device behind the driver.
`threadTty` is the tty of the thread that `thread_current` returns, if any. -/
structure Console (δ : Type) where
  ttys : TtyId → Tty
  currentScreen : Option TtyId
  currentTty : Option TtyId
  threadTty : Option TtyId
  device : δ

variable {δ : Type}

/-- Write through the pointer `&ttys[t]`. -/
def Console.modify (c : Console δ) (t : TtyId) (f : Tty → Tty) : Console δ :=
  { c with ttys := Function.update c.ttys t (f (c.ttys t)) }

/-- `if (callback) callback(...)` -/
def Console.notify (c : Console δ) : Option (δ → δ) → Console δ
  | some callback => { c with device := callback c.device }
  | none => c

/-! ## Accesses to the cell memory

An access outside the cells of the tty is a fault. -/

/-- Store one cell. -/
def store16 (mem : List Cell) (i : Nat) (v : Cell) : Option (List Cell) :=
  if i < mem.length then some (mem.set i v) else none

/-- `gm_int[i]`: two neighbouring cells, the first one in the low half. -/
def load32 (mem : List Cell) (i : Nat) : Option (BitVec 32) :=
  match mem[2 * i]?, mem[2 * i + 1]? with
  | some lo, some hi => some (hi ++ lo)
  | _, _ => none

/-- `gm_int[i] = v` -/
def store32 (mem : List Cell) (i : Nat) (v : BitVec 32) : Option (List Cell) :=
  if 2 * i + 1 < mem.length then
    some ((mem.set (2 * i) (v.extractLsb' 0 16)).set (2 * i + 1)
      (v.extractLsb' 16 16))
  else none

/-! ## The functions of tty.c -/

/-- `thread_current()` decides only while no tty was selected explicitly. -/
def ttyCurrentProcess (c : Console δ) : TtyId :=
  match c.currentTty with
  | some t => t
  | none =>
      match c.threadTty with
      | some t => t
      | none => defaultTty

def ttyInit (t : TtyId) (c : Console δ) : Console δ :=
  c.modify t fun tty =>
    { tty with lock := false, x := 0, y := 0, color := TTY_COLOR_DEFAULT, mem := [] }

/-- `spinlock_wait_and_lock` does not come back from a lock that stays taken. -/
def ttyEnter (t : TtyId) (c : Console δ) : Option (Console δ) :=
  if (c.ttys t).lock then none
  else some (c.modify t fun tty => { tty with lock := true })

def ttyLeave (t : TtyId) (c : Console δ) : Console δ :=
  c.modify t fun tty => { tty with lock := false }

/-- With no current screen the driver would get a null pointer and has no tty
to read. -/
def ttyUpdateCursorLocation (drv : TtyDriver δ) (c : Console δ) : Console δ :=
  match c.currentScreen with
  | some s => c.notify (drv.updateCursorLocation.map fun f => f (c.ttys s))
  | none => c

def ttySwitch (drv : TtyDriver δ) (t : TtyId) (c : Console δ) : Console δ :=
  if c.currentScreen = some t then c
  else
    let c := { c with currentScreen := some t }
    let c := c.notify (drv.switchHandler.map fun f => f (c.ttys t))
    ttyUpdateCursorLocation drv c

/-- One pass of the loop of `init_tty`. -/
def initOne (drv : TtyDriver δ) (c : Console δ) (i : TtyId) : Console δ :=
  let c := ttyInit i c
  match drv.init with
  | some init =>
      let (tty, device) := init i (c.ttys i) c.device
      { c with ttys := Function.update c.ttys i tty, device := device }
  | none => c

/-- `init_tty` on the zeroed static variables of a machine that boots. -/
def initTty (drv : TtyDriver δ) (threadTty : Option TtyId) (device : δ) :
    Console δ :=
  let zeroed : Console δ :=
    { ttys := fun _ => { lock := false, x := 0, y := 0, color := 0, mem := [] }
      currentScreen := none
      currentTty := none
      threadTty := threadTty
      device := device }
  ttySwitch drv defaultTty ((List.finRange 8).foldl (initOne drv) zeroed)

def ttySetCurrent (t : Option TtyId) (c : Console δ) : Console δ :=
  { c with currentTty := t }

/-- The tail of `tty_fill_color` and `tty_scroll`: redraw the tty if it is the
one on the screen. -/
def ttyRedraw (drv : TtyDriver δ) (t : TtyId) (c : Console δ) : Console δ :=
  if c.currentScreen = some t then
    ttyUpdateCursorLocation drv
      (c.notify (drv.rerender.map fun f => f (c.ttys t)))
  else c

/-- `0x00200020 | ((uint32_t)color << 24) | ((uint32_t)color << 8)` -/
def fillWord (color : Color) : BitVec 32 :=
  0x00200020#32 ||| (color.setWidth 32 <<< 24) ||| (color.setWidth 32 <<< 8)

def ttyFillColor (drv : TtyDriver δ) (t : TtyId) (color : Color)
    (c : Console δ) : Option (Console δ) := do
  let g := drv.geometry
  let mem ← countLoop (fun i mem => store32 mem i (fillWord color))
    0 (sizeT (g.width * g.height) / 2) (c.ttys t).mem
  let c := c.modify t fun tty => { tty with mem := mem, x := 0, y := 0 }
  return ttyRedraw drv t c

def ttyClear (drv : TtyDriver δ) (t : TtyId) (c : Console δ) :
    Option (Console δ) :=
  ttyFillColor drv t 0 c

/-- `gm_int[i] = gm_int[i + tty_width / 2]` -/
def scrollPass (g : Geometry) (i : Nat) (mem : List Cell) : Option (List Cell) :=
  (load32 mem (sizeT (i + g.width / 2))).bind fun v => store32 mem i v

def ttyScroll (drv : TtyDriver δ) (t : TtyId) (c : Console δ) :
    Option (Console δ) := do
  let g := drv.geometry
  let copied := sizeT (g.width * (g.height - 1)) / 2
  let total := sizeT (g.width * g.height) / 2
  let mem ← countLoop (scrollPass g) 0 copied (c.ttys t).mem
  let mem ← countLoop (fun i mem => store32 mem i 0) copied (total - copied) mem
  return ttyRedraw drv t (c.modify t fun tty => { tty with mem := mem })

def ttyNewline (drv : TtyDriver δ) (t : TtyId) (c : Console δ) :
    Option (Console δ) := do
  let g := drv.geometry
  let c := c.modify t fun tty => { tty with x := 0, y := sizeT (tty.y + 1) }
  if g.height ≤ (c.ttys t).y then
    let c ← ttyScroll drv t c
    return c.modify t fun tty => { tty with y := g.height - 1 }
  else
    return c

/-- `(color << 8) | ch` stored in 16 bits.  Both operands are promoted to
`int`, and `char` is signed on this target. -/
def cellValue (ch : BitVec 8) (color : Color) : Cell :=
  ((color.setWidth 32 <<< 8) ||| ch.signExtend 32).setWidth 16

/-- The tail of `tty_set_char`: pass the character on if the tty is the one on
the screen. -/
def showChar (drv : TtyDriver δ) (t : TtyId) (x y : Nat) (ch : BitVec 8)
    (color : Color) (c : Console δ) : Console δ :=
  if c.currentScreen = some t then
    c.notify (drv.setChar.map fun f => f (c.ttys t) x y ch color)
  else c

def ttySetChar (drv : TtyDriver δ) (t : TtyId) (x y : Nat) (ch : BitVec 8)
    (color : Color) (c : Console δ) : Option (Console δ) := do
  let g := drv.geometry
  let mem ← store16 (c.ttys t).mem (sizeT (x + y * g.width)) (cellValue ch color)
  return showChar drv t x y ch color
    (c.modify t fun tty => { tty with mem := mem })

/-- The loop of `tty_set_string` from index `i` on, over the rest of the
string.  A zero width divides by zero. -/
def setStringLoop (drv : TtyDriver δ) (t : TtyId) (xOffset yOffset width : Nat)
    (color : Color) : Nat → List (BitVec 8) → Console δ → Option (Console δ)
  | _, [], c => some c
  | i, ch :: rest, c =>
      if ch = 0 then some c
      else if width = 0 then none
      else do
        let c ← ttySetChar drv t (sizeT (xOffset + i % width))
          (sizeT (yOffset + i / width)) ch color c
        setStringLoop drv t xOffset yOffset width color (i + 1) rest c

/-- A string is the list of its bytes; it ends at its first NUL byte or with
the list. -/
def ttySetString (drv : TtyDriver δ) (t : TtyId) (xOffset yOffset width : Nat)
    (str : List (BitVec 8)) (color : Color) (c : Console δ) : Option (Console δ) :=
  setStringLoop drv t xOffset yOffset width color 0 str c

/-- The last branch of `tty_print`: write the character at the cursor and
advance. -/
def printGlyph (drv : TtyDriver δ) (t : TtyId) (ch : BitVec 8) (c : Console δ) :
    Option (Console δ) := do
  let tty := c.ttys t
  let c ← ttySetChar drv t tty.x tty.y ch tty.color c
  let c := c.modify t fun tty => { tty with x := sizeT (tty.x + 1) }
  if drv.geometry.width ≤ (c.ttys t).x then ttyNewline drv t c else return c

/-- The branches of `tty_print` for one byte that is neither NUL nor
`TTY_CMD_SET_COLOR`. -/
def printByte (drv : TtyDriver δ) (t : TtyId) (ch : BitVec 8) (c : Console δ) :
    Option (Console δ) :=
  if ch = 0x0A then ttyNewline drv t c
  else if ch = 0x0D then some (c.modify t fun tty => { tty with x := 0 })
  else if ch = 0x08 then
    if (c.ttys t).x ≠ 0 then
      some (c.modify t fun tty => { tty with x := tty.x - 1 })
    else some c
  else printGlyph drv t ch c

/-- The loop of `tty_print` from index `i` on, over the rest of the string,
with the final value of `i`. -/
def printLoop (drv : TtyDriver δ) (t : TtyId) :
    List (BitVec 8) → Nat → Console δ → Option (Nat × Console δ)
  | [], i, c => some (i, c)
  | ch :: rest, i, c =>
      if ch = 0 then some (i, c)
      else if ch = TTY_CMD_SET_COLOR then
        match rest with
        | [] => some (i + 1, c)
        | color :: rest' =>
            if color = 0 then some (i + 1, c)
            else printLoop drv t rest' (i + 2)
              (c.modify t fun tty => { tty with color := color })
      else do
        let c ← printByte drv t ch c
        printLoop drv t rest (i + 1) c

def ttyPrint (drv : TtyDriver δ) (t : TtyId) (str : List (BitVec 8))
    (c : Console δ) : Option (Nat × Console δ) := do
  let (i, c) ← printLoop drv t str 0 c
  return (i, if c.currentScreen = some t then ttyUpdateCursorLocation drv c else c)

def kttyEnter (c : Console δ) : Option (Console δ) :=
  ttyEnter (ttyCurrentProcess c) c

def kttyLeave (c : Console δ) : Console δ :=
  ttyLeave (ttyCurrentProcess c) c

def kfillColor (drv : TtyDriver δ) (color : Color) (c : Console δ) :
    Option (Console δ) :=
  ttyFillColor drv (ttyCurrentProcess c) color c

def ksetColor (color : Color) (c : Console δ) : Console δ :=
  c.modify (ttyCurrentProcess c) fun tty => { tty with color := color }

def kprint (drv : TtyDriver δ) (str : List (BitVec 8)) (c : Console δ) :
    Option (Nat × Console δ) :=
  ttyPrint drv (ttyCurrentProcess c) str c

end Os88.TextConsole
