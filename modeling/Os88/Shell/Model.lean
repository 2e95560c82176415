/-
Module: Os88.Shell.Model
Purpose: The command shell of include/shell.c: the line buffer, the commands,
  the tokenizer and the loop of `InitializeShell`.
Trusted boundary: the terminal functions, `itoa` and `make_color_s` lie outside
  the repository; a call of the terminal is recorded.
Main exports: State, shellBufferpush, shellBufferpop, shellBufferread,
  shellInterpreter, readKey, initializeShell
-/
import Os88.Library.Execution
import Os88.StringLib.Functions

namespace Os88.Shell

open Execution
open StringLib

inductive TerminalCall where
  | writestring (text : List (BitVec 8))
  /-- `terminal_writestring` of a pointer that is no string of the model. -/
  | writestringAt (pointer : BitVec 32)
  | putchar (ch : BitVec 8)
  | clearscreen
  | setcolor (color : BitVec 8)
deriving DecidableEq, Repr

/-- The variables of the shell for a `SHELL_BUFFER_SIZE` of `N`, and the calls
of the terminal so far. -/
structure State (N : Nat) where
  shellBuffer : Vector (BitVec 8) N
  shellBuffersize : BitVec 16
  running : Bool
  terminal : List TerminalCall
  /-- The pushes and pops keep the count of characters inside the buffer. -/
  size_le : shellBuffersize.toNat ≤ N

/-- The bytes of `char argv[32][32]`. -/
abbrev Argv := Vector (BitVec 8) 1024

/-- What the shell finds outside its own code: the bytes that `argv` is left
with on the stack, and the results of `atoi` at an address, of `itoa(_, 10)` and
of `make_color_s`. -/
structure Surroundings where
  stack : List TerminalCall → Argv
  atoi : List TerminalCall → BitVec 32 → BitVec 32
  itoa : Int → List (BitVec 8)
  makeColorS : BitVec 8 → BitVec 8 → BitVec 8

variable {N : Nat}

def State.call (s : State N) (made : TerminalCall) : State N :=
  { s with terminal := s.terminal ++ [made] }

def State.writestring (s : State N) (text : String) : State N :=
  s.call (.writestring (bytes text))

/-! ## The line buffer -/

def shellBufferclear (s : State N) : State N :=
  { s with shellBuffersize := 0#16, size_le := Nat.zero_le N }

def shellBufferpush (c : BitVec 8) (s : State N) : State N :=
  if room : s.shellBuffersize.toNat < N then
    { s with
      shellBuffer := s.shellBuffer.set s.shellBuffersize.toNat c room
      shellBuffersize := s.shellBuffersize + 1#16
      size_le := by
        rw [BitVec.toNat_add]
        exact Nat.le_trans (Nat.mod_le _ _) room }
  else s

theorem toNat_sub_one {size : BitVec 16} (some_left : size ≠ 0#16) :
    (size - 1#16).toNat + 1 = size.toNat := by
  have positive : size.toNat ≠ 0 :=
    fun zero => some_left (BitVec.eq_of_toNat_eq zero)
  have bound := size.isLt
  rw [BitVec.toNat_sub]
  simp only [BitVec.toNat_ofNat]
  omega

def shellBufferpop (s : State N) : BitVec 8 × State N :=
  if some_left : s.shellBuffersize ≠ 0#16 then
    have inside : (s.shellBuffersize - 1#16).toNat < N := by
      have fewer := toNat_sub_one some_left
      have within := s.size_le
      omega
    (s.shellBuffer[(s.shellBuffersize - 1#16).toNat],
      { s with
        shellBuffersize := s.shellBuffersize - 1#16
        size_le := Nat.le_of_lt inside })
  else (0#8, s)

/-- The buffer returned is the object that the pointer points into. -/
def shellBufferread (s : State N) : Buffer × State N :=
  let s := shellBufferpush 0#8 s
  (s.shellBuffer.toList, s)

def shellClear (s : State N) : State N :=
  shellBufferclear (s.writestring "mato:myos/$ ")

def shellExit (s : State N) : State N :=
  (shellBufferclear s).call .clearscreen

/-! ## The commands -/

section Commands

variable (env : Surroundings)

/-- The pointer that a handler loads for `argv[i]` through its parameter
`char *argv[]`: four bytes of the array itself. -/
def argvPointer (argv : Argv) (i : Fin 256) : BitVec 32 :=
  argv[4 * i.val + 3] ++ argv[4 * i.val + 2] ++ argv[4 * i.val + 1] ++
    argv[4 * i.val]

def shellCommandHelp (s : State N) : State N :=
  (s.writestring "Syntax: help <prikaz>\n").writestring
    "clear -> Vycisti obrazovku\n"

def shellCommandClear (s : State N) : State N :=
  shellBufferclear (s.call .clearscreen)

def shellCommandColor (argc : Int) (argv : Argv) (s : State N) : State N :=
  if argc = 2 then
    let fg := (env.atoi s.terminal (argvPointer argv 1)).setWidth 8
    let bg := (env.atoi s.terminal (argvPointer argv 2)).setWidth 8
    s.call (.setcolor (env.makeColorS fg bg))
  else
    let s := s.writestring "Zadal si nepravny pocet argumentov: "
    (s.call (.writestring (env.itoa argc))).call (.putchar 0x0A#8)

def shellCommandTest (argv : Argv) (s : State N) : State N :=
  let s := s.writestring "Test message!\n"
  (s.call (.writestringAt (argvPointer argv 0))).call (.putchar 0x0A#8)

def shellCommandExit (s : State N) : State N :=
  { s with running := false }.writestring "[+]Exiting..."

/-- The words that `shell_interpreter` compares the first token with. -/
inductive Command where
  | test
  | help
  | color
  | clear
  | exit
  | empty
deriving DecidableEq, Repr

def Command.word : Command → List (BitVec 8)
  | .test => bytes "test"
  | .help => bytes "help"
  | .color => bytes "color"
  | .clear => bytes "clear"
  | .exit => bytes "exit"
  | .empty => []

/-- The chain of `strcmp(argv[0], ..) == 0`. -/
def findCommand (token : Buffer) : List Command → Option (Option Command)
  | [] => some none
  | command :: rest => do
      let res ← strcmp token (literal command.word)
      if res = 0#32 then return some command else findCommand token rest

def runCommand (command : Option Command) (argc : Int) (argv : Argv)
    (s : State N) : Option (State N) :=
  match command with
  | some .test => some (shellCommandTest argv s)
  | some .help => some (shellCommandHelp s)
  | some .color => some (shellCommandColor env argc argv s)
  | some .clear => some (shellCommandClear s)
  | some .exit => some (shellCommandExit s)
  | some .empty => some s
  | none => do
      let token ← text argv.toList
      return (s.call (.writestring token)).writestring
        ": Prikaz nebol najdeny\n"

/-! ## The tokenizer -/

/-- `argv[a][b] = ch`; outside the 32 rows of 32 bytes it is a fault. -/
def setArgv (argv : Argv) (a b : Nat) (ch : BitVec 8) : Option Argv :=
  if inside : a < 32 ∧ b < 32 then
    some (argv.set (32 * a + b) ch (by omega))
  else none

/-- The inner loop: `command[start..current)` to row `argc`, with its counter
`j`. -/
def copyToken (command : Buffer) (argc start current : Nat) (argv : Argv) :
    Option (Nat × Argv) :=
  countLoop
    (fun i (j, argv) => do
      let ch ← command[i]?
      let argv ← setArgv argv argc j ch
      return (j + 1, argv))
    start (current - start) (0, argv)

/-- The outer loop over the bytes from `current` on. -/
def tokenLoop (command : Buffer) :
    Buffer → Nat → Nat → Nat → Argv → Option (Nat × Argv)
  | [], _, _, _, _ => none
  | ch :: rest, current, start, argc, argv =>
      if ch = 0#8 then some (argc, argv)
      else if ch = 0x20#8 ∨ ch = 0x0A#8 then do
        let (j, argv) ← copyToken command argc start current argv
        let argv ← setArgv argv argc j 0#8
        tokenLoop command rest (current + 1) (current + 1) (argc + 1) argv
      else tokenLoop command rest (current + 1) start argc argv

def shellInterpreter (command : Buffer) (s : State N) : Option (State N) := do
  let (argc, argv) ← tokenLoop command command 0 0 0 (env.stack s.terminal)
  let found ← findCommand argv.toList
    [.test, .help, .color, .clear, .exit, .empty]
  let s ← runCommand env found (argc - 1) argv s
  return shellClear s

/-! ## The loop -/

/-- What a key does to the line. -/
def typeKey (c : BitVec 8) (s : State N) : State N :=
  if c = 0x08#8 then
    let (popped, s) := shellBufferpop s
    if popped ≠ 0#8 then s.call (.putchar 0x08#8) else s
  else (shellBufferpush c s).call (.putchar c)

/-- One pass of `while(running)`, in which `getchar()` returns `c`. -/
def keyPass (c : BitVec 8) (s : State N) : Option (State N) :=
  if c ≠ 0#8 then
    let s := typeKey c s
    if c = 0x0A#8 then
      let (command, s) := shellBufferread s
      shellInterpreter env command s
    else some s
  else some s

/-- A pass and the test of `running` behind it.  A shell that has ended reads no
key. -/
def readKey (c : BitVec 8) (s : State N) : Option (State N) :=
  if s.running then
    (keyPass env c s).map fun s => if s.running then s else shellExit s
  else none

/-- `InitializeShell` up to its loop. -/
def initializeShell (s : State N) : State N :=
  let s := s.writestring "MatoOS\n"
  let s := s.writestring "Pre pomoc pouzi prikaz help\n"
  { shellClear s with running := true }

end Commands

end Os88.Shell
