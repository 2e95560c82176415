/-
Module: Os88.Loader.E820
Purpose: `do_e820` of the second-stage loader: the memory map it collects from
  the answers of the BIOS.
Trusted boundary: an answer of `int 0x15` writes as many bytes of its record to
  `es:di` as the size it returns, and nothing else; `ds` is 0.
Main exports: Answer, Reply, doE820
-/
import Os88.Boot.MemoryMap

namespace Os88.Loader

open Boot
open ByteMemory

/-- "SMAP" -/
def SMAP : BitVec 32 := 0x0534D4150

/-- The size that the BIOS returns in `cl`. -/
inductive Size where
  | none
  | basic
  | extended
deriving DecidableEq, Repr

def Size.cl : Size → BitVec 8
  | .none => 0
  | .basic => 20
  | .extended => 24

/-- What `int 0x15` returns without carry: `eax`, `ebx`, the size in `cl` and
the record. -/
structure Answer where
  eax : BitVec 32
  ebx : BitVec 32
  size : Size
  base : BitVec 64
  length : BitVec 64
  type : BitVec 32
  attrib : BitVec 32
deriving DecidableEq, Repr

/-- One return of `int 0x15`. -/
inductive Reply where
  | answer (a : Answer)
  | carry

/-- `di`, `bp` and the memory. -/
structure E820 where
  di : BitVec 16
  bp : BitVec 16
  memory : Memory

namespace E820

/-- The address `es:di + offset`, with `es` = 0x3000. -/
def slot (s : E820) (offset : BitVec 16) : Nat := 0x30000 + (s.di + offset).toNat

/-- `mov [es:di + 20], dword 1` -/
def preset (s : E820) : E820 :=
  { s with memory := store32 s.memory (s.slot 20) 1 }

/-- The bytes that the BIOS writes. -/
def record (a : Answer) (s : E820) : E820 :=
  let basic := store32 (store64 (store64 s.memory (s.slot 0) a.base)
    (s.slot 8) a.length) (s.slot 16) a.type
  match a.size with
  | .none => s
  | .basic => { s with memory := basic }
  | .extended => { s with memory := store32 basic (s.slot 20) a.attrib }

/-- The label `.notext`: entries of length zero are skipped. -/
def notext (s : E820) : E820 :=
  if load32 s.memory (s.slot 8) ||| load32 s.memory (s.slot 12) = 0#32 then s
  else { s with bp := s.bp + 1, di := s.di + 24 }

/-- From `.jmpin` to `.skipent`. -/
def jmpin (a : Answer) (s : E820) : E820 :=
  if a.size.cl = 0 then s
  else if a.size.cl ≤ 20 then s.notext
  else if s.memory (s.slot 20) &&& 1 = 0 then s
  else s.notext

/-- One call and what is done with its answer. -/
def take (a : Answer) (s : E820) : E820 := (s.preset.record a).jmpin a

end E820

/-- The loop `.e820lp`, up to `.e820f`.  The BIOS is asked once for each
reply; a loop that asks for more has no result. -/
def e820lp : List Reply → E820 → Option E820
  | [], _ => none
  | .carry :: _, s => some s.preset
  | .answer a :: replies, s =>
      if a.ebx = 0 then some (s.take a) else e820lp replies (s.take a)

/-- The memory behind `do_e820`, unless it stops at `.failed`. -/
def doE820 (replies : List Reply) (memory : Memory) : Option Memory :=
  match replies with
  | .answer a :: replies =>
      if a.eax ≠ SMAP then none
      else if a.ebx = 0 then none
      else (e820lp replies (E820.take a ⟨0, 0, memory⟩)).map fun s =>
        store32 (store16 s.memory 0x8602 s.bp) 0x8606 0x30000
  | _ => none

/-! ## The answers of a BIOS -/

/-- The replies of a BIOS that supports the call: the first answer is signed,
all but the last one continue, and the list ends with `ebx` = 0 or with the
carry flag. -/
structure Script where
  first : Answer
  middle : List Answer
  last : Option Answer
  smap : first.eax = SMAP
  continues : ∀ a ∈ first :: middle, a.ebx ≠ 0
  ends : ∀ a ∈ last, a.ebx = 0
  few : (first :: middle ++ last.toList).length < 2730

namespace Script

variable (script : Script)

def answers : List Answer := script.first :: script.middle ++ script.last.toList

def replies : List Reply :=
  (script.first :: script.middle).map .answer ++
    [match script.last with
    | some a => .answer a
    | none => .carry]

end Script

/-- The answer makes an entry: it has a size and a length, and an extended
attribute does not say to ignore it. -/
def Answer.Kept (a : Answer) : Prop :=
  a.size ≠ .none ∧ a.length ≠ 0 ∧ (20 < a.size.cl → a.attrib &&& 1 ≠ 0)

instance (a : Answer) : Decidable a.Kept :=
  inferInstanceAs (Decidable (_ ∧ _ ∧ _))

/-- The entry of an answer; an answer of 20 bytes has attribute 1. -/
def Answer.entry (a : Answer) : MemoryMapEntry where
  baseAddress := a.base
  length := a.length
  type := a.type
  acpiExtended := if a.size = .extended then a.attrib else 1

/-- The entries that a list of answers stands for. -/
def keptEntries (answers : List Answer) : List MemoryMapEntry :=
  (answers.filter fun a => a.Kept).map Answer.entry

end Os88.Loader
