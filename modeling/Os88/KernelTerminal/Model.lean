/-
Module: Os88.KernelTerminal.Model
Purpose: The commands of the kernel terminal in kernel/main.c that set its
  working directory: `fl`, which mounts a root, and `cd`.
Trusted boundary: the file system, the devices and `malloc` lie outside the
  repository; what they answer is part of the line that is entered.
Main exports: Terminal, Answers, cdCommand, flCommand, runLine
-/
import Os88.StringLib.Functions

namespace Os88.KernelTerminal

open StringLib

def cdWord : List (BitVec 8) := bytes "cd"

def flWord : List (BitVec 8) := bytes "fl"

def hereWord : List (BitVec 8) := bytes "."

def parentWord : List (BitVec 8) := bytes ".."

/-- An argument of `kprintf`. -/
inductive Argument where
  | int (value : BitVec 32)
  | str (value : List (BitVec 8))
deriving DecidableEq, Repr

/-- One call of `kprintf`. -/
structure Message where
  format : String
  arguments : List Argument
deriving DecidableEq, Repr

/-- The fields of a `device_t` that `fl` prints. -/
structure Device where
  name : List (BitVec 8)
  uniqueId : BitVec 32
  fsName : List (BitVec 8)
deriving DecidableEq, Repr

/-- The strings `username` and `hostname`. -/
structure Names where
  username : List (BitVec 8)
  hostname : List (BitVec 8)

/-- The static variables of the terminal.  `wd` is the heap block of the working
directory, without bytes as long as the pointer is null. -/
structure Terminal where
  rootMounted : Bool
  wd : Buffer
  promptSize : BitVec 8
  printed : List Message

/-- What the rest of the kernel answers while one line is handled:
`vfs_exist_in_dir`, `device_get`, `device_try_to_mount` and the block from
`malloc(512)`. -/
structure Answers where
  existInDir : Bool
  device : Option Device
  mounts : Bool
  block : Vector (BitVec 8) 512

def Terminal.print (t : Terminal) (format : String) (arguments : List Argument) :
    Terminal :=
  { t with printed := t.printed ++ [⟨format, arguments⟩] }

section Commands

variable (names : Names)

/-- `strlen(username) + strlen(hostname) + 4 + strlen(wd)`, in 8 bits -/
def promptSizeOf (wdLength : Nat) : BitVec 8 :=
  BitVec.ofNat 8 (names.username.length + names.hostname.length + 4 + wdLength)

/-- `buffer + strlen(buffer) + 1` -/
def argument (buffer : Buffer) : Option Buffer :=
  (strlen buffer).map fun length => buffer.drop (length + 1)

/-- The path that `cd` joins from the working directory, the argument and a
slash, in its heap block. -/
def joinPath (wd arg : Buffer) : Option Buffer := do
  let wdLength ← strlen wd
  let argLength ← strlen arg
  let w := List.replicate (wdLength + argLength + 2) 0#8
  let w ← memcpy w 0 wd wdLength
  let w ← memcpy w wdLength arg argLength
  let wLength ← strlen w
  memcpy w wLength [0x2F#8, 0#8, 0#8] 2

/-- `cd ..` -/
def cdParent (t : Terminal) : Option Terminal := do
  let length ← strlen t.wd
  if length = 1 then return t
  else
    let (_, wd) ← strBackspace t.wd 0x2F#8
    let length ← strlen wd
    return { t with wd := wd, promptSize := promptSizeOf names length }

/-- `cd` into a directory that exists. -/
def cdEnter (arg : Buffer) (t : Terminal) : Option Terminal := do
  let w ← joinPath t.wd arg
  let length ← strlen w
  let wd ← memcpy t.wd 0 w (length + 1)
  let length ← strlen wd
  return { t with wd := wd, promptSize := promptSizeOf names length }

/-- The branch of `_test` for `cd`; `n` is the number of words. -/
def cdCommand (buffer : Buffer) (n : Nat) (answers : Answers) (t : Terminal) :
    Option Terminal :=
  if !t.rootMounted then
    some (t.print "FATAL: No root directory. Mount with 'fl'.\n" [])
  else if n = 0 ∨ n = 1 then
    some (t.print "FATAL: no parameter.\n" [])
  else do
    let arg ← argument buffer
    let here ← strcmp arg (literal hereWord)
    if here = 0#32 then return t
    else do
      let parent ← strcmp arg (literal parentWord)
      if parent = 0#32 then cdParent names t
      else if answers.existInDir then cdEnter names arg t
      else return t

/-- The branch of `_test` for `fl`. -/
def flCommand (buffer : Buffer) (n : Nat) (answers : Answers) (t : Terminal) :
    Option Terminal :=
  if n = 0 ∨ n = 1 then
    some (t.print "FATAL: No id parameter, select root with devinfo\n" [])
  else do
    let arg ← argument buffer
    let devid ← atoi arg
    let t := t.print "arg: %d\n" [.int devid]
    match answers.device with
    | none => return t.print "Unable to locate medium!\n" []
    | some dev =>
        if answers.mounts then
          let t := t.print "Mounted / on %s (%d) with %s\n"
            [.str dev.name, .int dev.uniqueId, .str dev.fsName]
          let wd ← memcpy answers.block.toList 0 [0x2F#8, 0#8] 2
          let length ← strlen wd
          return { t with
            rootMounted := true
            wd := wd
            promptSize := promptSizeOf names length }
        else
          return t.print "Unable to mount / on %s (%d)!\n"
            [.str dev.name, .int dev.uniqueId]

/-- One line of input, the comparisons with `cd` and `fl` only: the other
commands assign none of the variables of `Terminal`. -/
def runLine (buffer : Buffer) (answers : Answers) (t : Terminal) :
    Option Terminal := do
  let (n, buffer) ← strsplit buffer 0x20#8
  let cd ← strcmp buffer (literal cdWord)
  if cd = 0#32 then cdCommand names buffer n answers t
  else do
    let fl ← strcmp buffer (literal flWord)
    if fl = 0#32 then flCommand names buffer n answers t
    else return t

end Commands

end Os88.KernelTerminal
