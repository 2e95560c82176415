/-
Module: Os88.MiniOs.Keyboard
Purpose: The keyboard interrupt `isr_keyb` of kernel_main.c: the scancode table,
  the line buffer and the two commands it knows.
Trusted boundary: the FAT routines that the commands call lie outside the
  repository; they may draw, and leave `inp` and `cntr` alone.  A call of
  `putcc`, `_printf`, `printsss` or `outb` is recorded.
Main exports: kbdus, Keyboard, Surroundings, Branch, enterLine, isrKeyb
-/
import Os88.MiniOs.Screen
import Os88.StringLib.Functions

namespace Os88.MiniOs

open Execution
open StringLib

/-- The entries of the table that are given; the rest is 0. -/
def kbdus : List (BitVec 8) :=
  [ -- no key, Escape
    0x00#8, 0x1B#8,
    -- 1234567890-=
    0x31#8, 0x32#8, 0x33#8, 0x34#8, 0x35#8, 0x36#8, 0x37#8, 0x38#8,
    0x39#8, 0x30#8, 0x2D#8, 0x3D#8,
    -- Backspace, Tab
    0x08#8, 0x09#8,
    -- qwertyuiop[]
    0x71#8, 0x77#8, 0x65#8, 0x72#8, 0x74#8, 0x79#8, 0x75#8, 0x69#8,
    0x6F#8, 0x70#8, 0x5B#8, 0x5D#8,
    -- Enter, Control
    0x0A#8, 0x00#8,
    -- asdfghjkl;'`
    0x61#8, 0x73#8, 0x64#8, 0x66#8, 0x67#8, 0x68#8, 0x6A#8, 0x6B#8,
    0x6C#8, 0x3B#8, 0x27#8, 0x60#8,
    -- left Shift
    0x00#8,
    -- \zxcvbnm,./
    0x5C#8, 0x7A#8, 0x78#8, 0x63#8, 0x76#8, 0x62#8, 0x6E#8, 0x6D#8,
    0x2C#8, 0x2E#8, 0x2F#8,
    -- right Shift, *, Alt, Space
    0x00#8, 0x2A#8, 0x00#8, 0x20#8,
    -- Caps Lock, F1 to F10, Num Lock, Scroll Lock, Home, Up, Page Up
    0x00#8, 0x00#8, 0x00#8, 0x00#8, 0x00#8, 0x00#8, 0x00#8, 0x00#8,
    0x00#8, 0x00#8, 0x00#8, 0x00#8, 0x00#8, 0x00#8, 0x00#8, 0x00#8,
    -- -, Left, Right, +
    0x2D#8, 0x00#8, 0x00#8, 0x00#8, 0x2B#8 ]

/-- `kbdus[buf]` -/
def keyOf (buf : BitVec 8) : BitVec 8 :=
  kbdus.getD buf.toNat 0x00#8

/-- The string `dir`. -/
def dirLine : List (BitVec 8) := bytes "dir\n"

/-- The string `demo`. -/
def demoLine : List (BitVec 8) := bytes "demo\n"

/-- A call that leaves the model. -/
inductive Call where
  | putcc (ch : BitVec 8)
  | printf (text : String)
  | printsss (str : List (BitVec 8))
  | outb (port : BitVec 16) (value : BitVec 8)
deriving DecidableEq, Repr

/-- The variables that the keyboard interrupt uses, and the calls so far. -/
structure Keyboard where
  inp : Vector (BitVec 8) 100
  cntr : Nat
  screen : Screen
  calls : List Call

/-- What the FAT routines of the two commands leave on the screen. -/
structure Surroundings where
  listDirectory : Screen → Screen
  demonstration : Screen → Screen

/-- The command that an Enter takes. -/
inductive Branch where
  | dir
  | demo
  | none
deriving DecidableEq, Repr

namespace Keyboard

def call (s : Keyboard) (made : Call) : Keyboard :=
  { s with calls := s.calls ++ [made] }

/-- `width = width + distance` -/
def shift (s : Keyboard) (distance : Int) : Keyboard :=
  { s with screen := { s.screen with width := s.screen.width + distance } }

/-- `drawtext(charnum)` -/
def draw (s : Keyboard) (charnum : Int) : Option Keyboard :=
  (drawtext charnum s.screen).map fun screen => { s with screen := screen }

/-- `inp[i] = ch` -/
def setInp (s : Keyboard) (i : Nat) (ch : BitVec 8) : Option Keyboard :=
  if inside : i < 100 then some { s with inp := s.inp.set i ch inside } else none

end Keyboard

section Handler

variable (env : Surroundings)

/-- One pass of the loop that repeats the line. -/
def echo (k : Nat) (s : Keyboard) : Option Keyboard := do
  let ch ← s.inp[k]?
  let s ← s.draw ch.toInt
  let ch ← s.inp[k]?
  let s := (s.call (.putcc ch)).call (.printf "\n")
  return s.call (.printsss (s.inp.toList.take 10))

/-- The loop that clears the line, of which each branch has its own. -/
def clearLine (s : Keyboard) : Option Keyboard :=
  countLoop (fun l s => s.setInp l 0x00#8) 0 s.cntr s

def dirBranch (s : Keyboard) : Option Keyboard := do
  let s := { s with screen := env.listDirectory s.screen }
  let s := s.call (.printf "CORRECT! IMPLEMENT DIR CODE HERE\n")
  let s ← s.draw 0x20
  let s ← s.draw 0x4F
  let s ← s.draw 0x20
  clearLine s

def demoBranch (s : Keyboard) : Option Keyboard :=
  let screen := { s.screen with height := 50, width := 5 }
  clearLine { s with screen := env.demonstration screen }

/-- The branch of `isr_keyb` for a newline in `inp[cntr]`. -/
def enterLine (s : Keyboard) : Option (Branch × Keyboard) := do
  let s := s.call (.printf "ENTERKEY\n")
  let s ← countLoop echo 0 s.cntr s
  let dir ← strcmp (literal dirLine) s.inp.toList
  if dir = 0#32 then
    let s ← dirBranch env s
    return (.dir, { s with cntr := 0 })
  else
    let demo ← strcmp (literal demoLine) s.inp.toList
    if demo = 0#32 then
      let s ← demoBranch env s
      return (.demo, { s with cntr := 0 })
    else
      let s ← clearLine s
      return (.none, { s with cntr := 0 })

/-- The branch of `isr_keyb` for a key that is pressed. -/
def pressKey (buf : BitVec 8) (s : Keyboard) :
    Option (Option Branch × Keyboard) := do
  let s ← (s.shift (-16)).draw (-1)
  let s ← (s.shift (-16)).setInp s.cntr (keyOf buf)
  let ch ← s.inp[s.cntr]?
  let s ← (s.call (.putcc ch)).draw ch.toInt
  let ch ← s.inp[s.cntr]?
  let (branch, s) ←
    if ch = 0x0A#8 then
      (enterLine env s).map fun (branch, s) => (some branch, s)
    else some (none, { s with cntr := s.cntr + 1 })
  let s ← (s.shift (-2)).draw 0x5F
  return (branch, s.shift 2)

/-- `isr_keyb` for the scancode `buf`, and the command it takes if that is an
Enter. -/
def isrKeyb (buf : BitVec 8) (s : Keyboard) :
    Option (Option Branch × Keyboard) := do
  let (branch, s) ←
    if buf &&& 0x80#8 = 0#8 then pressKey env buf s else some (none, s)
  return (branch, s.call (.outb 0x20 0x20))

end Handler

end Os88.MiniOs
