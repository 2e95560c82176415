/-
Module: Os88.MiniOs.MonitorSession
Purpose: Sessions with the monitor in the main loop of kernel_main.c: what its commands leave
  in memory, and what a dump shows of it.
Trusted boundary: `gethex`, `lowercase`, `inb`, `outb`, `sidt` and the printing functions lie
  outside the repository: `gethex` yields numbers until it fails, the calls are recorded.  The
  code that `b`, `c`, `p`, `w` and `x` call does to memory what a parameter says.  The memory is
  that behind the addresses typed, apart from the monitor's own variables and code.
Main exports: Effect, Typed, bottom, fillLoop, monitorCommand, session, stored, Internal,
  memory_of_session, dump_shows_last_store, fill_restores_dump
-/
import Os88.Library.Storage
import Os88.MiniOs.Monitor

namespace Os88.MiniOs

open StringLib

abbrev MonitorMemory := BitVec 32 → BitVec 8

/-- What the monitor does beyond its variables and memory. -/
inductive Effect where
  | output (call : MonitorCall)
  | outb (port : BitVec 16) (value : BitVec 8)
  | call (addr : BitVec 32)
  | software_interrupt (number : BitVec 8)
  | reset
  | installIdt
  | FATInitialize
deriving DecidableEq, Repr

/-- A command: its letter, the numbers that `gethex` yields in it until it fails, and what the
command finds at a port, in the register of `sidt`, in `irq_count` and as the result of
`FATInitialize`. -/
structure Typed where
  buf : Char
  numbers : List (BitVec 32)
  inb : BitVec 8
  limit : BitVec 16
  base : BitVec 32
  irq_count : Nat → BitVec 32
  initialized : BitVec 32

def text (s : String) : Effect := .output (.printss (bytes s))

def hex (value : BitVec 32) (digits : Nat) : Effect := .output (.printhex value digits)

/-- The end of the loop, which `continue` does not reach. -/
def bottom : Effect := text "Made it to the bottom (now we're here)"

/-- The `char` that `count` begins with. -/
def firstChar (count : BitVec 32) : BitVec 8 := count.setWidth 8

def storeByte (memory : MonitorMemory) (addr : BitVec 32) (value : BitVec 8) : MonitorMemory :=
  fun a => if a = addr then value else memory a

/-- The loop of `f` and `s`, from the `i`-th number on. -/
def fillLoop (silent : Bool) :
    List (BitVec 32) → Nat → BitVec 32 → MonitorMemory → List Effect × MonitorMemory
  | numbers, i, addr, memory =>
      let label := if i % 16 = 0 ∧ silent = false then [text "\n", hex addr 8] else []
      match numbers with
      | [] => (label, memory)
      | count :: numbers =>
          let (effects, memory) := fillLoop silent numbers (i + 1) (addr + 1#32)
            (storeByte memory addr (firstChar count))
          (label ++ effects, memory)

/-- One pass of the loop over `irq_count`. -/
def irqLine (irq_count : Nat → BitVec 32) (i : Nat) : List Effect :=
  [if i % 4 = 0 then text "\n" else text "    ", hex (BitVec.ofNat 32 i) 2, text ": ",
    hex (irq_count i) 8]

def help : List Effect :=
  [text "\nInternal commands:",
    text "\nb                           - reboot",
    text "\nc <addr>                    - call function",
    text "\nd <addr> <count>            - dump range of memory",
    text "\nf <addr>                    - fill range of memory",
    text "\ni <port>                    - read byte from I/O port",
    text "\nm <addr>                    - modify memory location",
    text "\no <port> <byte>             - write byte to I/O port",
    text "\ns <addr>                    - \"silent\" fill (same as f without echo)"]

section Session

variable (outside : Effect → MonitorMemory → MonitorMemory)

/-- One pass of `while (1)`, behind the reading of the letter. -/
def monitorCommand (typed : Typed) (memory : MonitorMemory) : List Effect × MonitorMemory :=
  if typed.buf = 'b' then
    ([text "\nRebooting!!\n", .reset, bottom], outside .reset memory)
  else if typed.buf = 'c' then
    match typed.numbers with
    | addr :: _ => ([.call addr, bottom], outside (.call addr) memory)
    | [] => ([], memory)
  else if typed.buf = 'd' then
    match typed.numbers with
    | addr :: count :: _ =>
        ((commandD memory (some addr) (some count)).map .output ++ [bottom], memory)
    | _ => ([], memory)
  else if typed.buf = 'f' ∨ typed.buf = 's' then
    match typed.numbers with
    | addr :: numbers =>
        let (effects, memory) :=
          fillLoop (typed.buf = 's') numbers 0 (addr &&& 0xFFFFFFF0#32) memory
        (effects ++ [bottom], memory)
    | [] => ([], memory)
  else if typed.buf = 'i' then
    match typed.numbers with
    | _ :: _ => ([text "\n", hex (typed.inb.setWidth 32) 2, bottom], memory)
    | [] => ([], memory)
  else if typed.buf = 'o' then
    match typed.numbers with
    | addr :: count :: _ => ([.outb (addr.setWidth 16) (count.setWidth 8), bottom], memory)
    | _ => ([], memory)
  else if typed.buf = 'm' then
    match typed.numbers with
    | addr :: numbers =>
        let shown := [text "\n", hex ((memory addr).signExtend 32) 2]
        match numbers with
        | count :: _ => (shown ++ [bottom], storeByte memory addr (firstChar count))
        | [] => (shown, memory)
    | [] => ([], memory)
  else if typed.buf = 'w' then
    match typed.numbers with
    | addr :: _ =>
        let interrupt := Effect.software_interrupt (addr.setWidth 8)
        ([interrupt, bottom], outside interrupt memory)
    | [] => ([], memory)
  else if typed.buf = 'x' then
    ([.installIdt, bottom], outside .installIdt memory)
  else if typed.buf = 'y' then
    ([text "\nidtr.limit=", hex (typed.limit.setWidth 32) 4, text "\nidtr.base=",
      hex typed.base 8, bottom], memory)
  else if typed.buf = 'z' then
    ((List.range 256).flatMap (irqLine typed.irq_count) ++ [bottom], memory)
  else if typed.buf = 'p' then
    ([text "\nInitializing... 0x", .FATInitialize, hex typed.initialized 8, text "\n", bottom],
      outside .FATInitialize memory)
  else if typed.buf = '?' then (help ++ [bottom], memory)
  else ([bottom], memory)

/-- The commands of a session one behind the other, each with its effects. -/
def session : List Typed → MonitorMemory → List (List Effect) × MonitorMemory
  | [], memory => ([], memory)
  | typed :: rest, memory =>
      let (effects, memory) := monitorCommand outside typed memory
      let (later, memory) := session rest memory
      (effects :: later, memory)

end Session

/-! ## What is stored -/

/-- The byte that a command stores at an address, if it stores one there.  A fill begins at the
line of the address typed. -/
def stored (typed : Typed) (a : BitVec 32) : Option (BitVec 8) :=
  if typed.buf = 'f' ∨ typed.buf = 's' then
    match typed.numbers with
    | addr :: numbers => numbers[(a - (addr &&& 0xFFFFFFF0#32)).toNat]?.map firstChar
    | [] => none
  else if typed.buf = 'm' then
    match typed.numbers with
    | addr :: count :: _ => if a = addr then some (firstChar count) else none
    | _ => none
  else none

/-- The command runs no code from elsewhere, and does not fill all of memory, which would take
`i` beyond the range of an `int`. -/
def Internal (typed : Typed) : Prop :=
  typed.buf ∉ ['b', 'c', 'p', 'w', 'x'] ∧ typed.numbers.length < 2 ^ 31

theorem fillLoop_memory {silent : Bool} {numbers : List (BitVec 32)}
    (short : numbers.length ≤ 2 ^ 32) (i : Nat) (addr : BitVec 32) (memory : MonitorMemory)
    (a : BitVec 32) :
    (fillLoop silent numbers i addr memory).2 a =
      (numbers[(a - addr).toNat]?.map firstChar).getD (memory a) := by
  induction numbers generalizing i addr memory with
  | nil => rfl
  | cons count numbers inductionHypothesis =>
      have shorter : numbers.length + 1 ≤ 2 ^ 32 := short
      have later := inductionHypothesis (by omega) (i + 1) (addr + 1#32)
        (storeByte memory addr (firstChar count))
      refine later.trans ?_
      by_cases here : a = addr
      · subst here
        have last : (a - (a + 1#32)).toNat = 2 ^ 32 - 1 := by bv_omega
        have beyond : numbers[(a - (a + 1#32)).toNat]? = none := by
          rw [last]
          exact List.getElem?_eq_none (by omega)
        rw [beyond, BitVec.sub_self, storeByte, if_pos rfl]
        rfl
      · have next : (a - addr).toNat = (a - (addr + 1#32)).toNat + 1 := by bv_omega
        rw [next, List.getElem?_cons_succ, storeByte, if_neg here]

section Sessions

variable {outside : Effect → MonitorMemory → MonitorMemory} {typed : Typed}
  {memory : MonitorMemory}

theorem Internal.letters (internal : Internal typed) :
    typed.buf ≠ 'b' ∧ typed.buf ≠ 'c' ∧ typed.buf ≠ 'p' ∧ typed.buf ≠ 'w' ∧ typed.buf ≠ 'x' := by
  have letter := internal.1
  rw [List.mem_cons, List.mem_cons, List.mem_cons, List.mem_cons, List.mem_singleton,
    not_or, not_or, not_or, not_or] at letter
  exact letter

/-- The other commands leave memory alone. -/
theorem monitorCommand_keeps (internal : Internal typed)
    (noFill : ¬ (typed.buf = 'f' ∨ typed.buf = 's')) (noModify : typed.buf ≠ 'm') :
    (monitorCommand outside typed memory).2 = memory := by
  rcases internal.letters with ⟨notB, notC, notP, notW, notX⟩
  rw [monitorCommand, if_neg notB, if_neg notC, if_neg noFill, if_neg noModify, if_neg notW,
    if_neg notX, if_neg notP]
  by_cases dumps : typed.buf = 'd'
  · rw [if_pos dumps]
    split <;> rfl
  by_cases reads : typed.buf = 'i'
  · rw [if_neg dumps, if_pos reads]
    split <;> rfl
  by_cases writes : typed.buf = 'o'
  · rw [if_neg dumps, if_neg reads, if_pos writes]
    split <;> rfl
  rw [if_neg dumps, if_neg reads, if_neg writes]
  split_ifs <;> rfl

/-- A command leaves what it stores, and the rest as it was. -/
theorem monitorCommand_memory (internal : Internal typed) (a : BitVec 32) :
    (monitorCommand outside typed memory).2 a = (stored typed a).getD (memory a) := by
  rcases internal.letters with ⟨notB, notC, -, -, -⟩
  by_cases fills : typed.buf = 'f' ∨ typed.buf = 's'
  · have notD : typed.buf ≠ 'd' := by
      rcases fills with equal | equal
      · rw [equal]; decide
      · rw [equal]; decide
    rw [monitorCommand, if_neg notB, if_neg notC, if_neg notD, if_pos fills, stored, if_pos fills]
    have short := internal.2
    split
    · rename_i numbers typed_numbers
      rw [typed_numbers, List.length_cons] at short
      exact fillLoop_memory (by omega) 0 _ memory a
    · rfl
  by_cases modifies : typed.buf = 'm'
  · have others : typed.buf ≠ 'd' ∧ typed.buf ≠ 'i' ∧ typed.buf ≠ 'o' := by
      rw [modifies]
      decide
    rw [monitorCommand, if_neg notB, if_neg notC, if_neg others.1, if_neg fills, if_neg others.2.1,
      if_neg others.2.2, if_pos modifies, stored, if_neg fills, if_pos modifies]
    match typed.numbers with
    | [] => rfl
    | [_] => rfl
    | addr :: count :: _ =>
        show (if a = addr then firstChar count else memory a) =
          Option.getD (if a = addr then _ else _) _
        split <;> rfl
  · rw [monitorCommand_keeps internal fills modifies, stored, if_neg fills, if_neg modifies,
      Option.getD_none]

theorem session_append (first second : List Typed) (memory : MonitorMemory) :
    session outside (first ++ second) memory =
      ((session outside first memory).1 ++
          (session outside second (session outside first memory).2).1,
        (session outside second (session outside first memory).2).2) := by
  induction first generalizing memory with
  | nil => rfl
  | cons typed rest inductionHypothesis =>
      show (_ :: (session outside (rest ++ second) _).1, (session outside (rest ++ second) _).2) = _
      rw [inductionHypothesis]
      rfl

/-- Commands of the monitor are commands that set cells of a memory. -/
theorem session_memory {commands : List Typed} (internal : ∀ typed ∈ commands, Internal typed)
    (memory : MonitorMemory) :
    (session outside commands memory).2 =
      (Storage.run (commands.map fun typed => .set (stored typed))
        (⟨nofun, memory⟩ : Storage.State Empty (BitVec 32) (BitVec 8))).memory := by
  induction commands generalizing memory with
  | nil => rfl
  | cons typed rest inductionHypothesis =>
      have first : (monitorCommand outside typed memory).2 =
          fun a => (stored typed a).getD (memory a) :=
        funext (monitorCommand_memory (internal typed (List.mem_cons_self ..)))
      have later := inductionHypothesis (fun other member =>
        internal other (List.mem_cons_of_mem typed member)) (monitorCommand outside typed memory).2
      rw [first] at later
      show (session outside rest (monitorCommand outside typed memory).2).2 = _
      rw [first]
      exact later

/-- A byte of memory is the one stored there last. -/
theorem memory_of_session {commands : List Typed} (internal : ∀ typed ∈ commands, Internal typed)
    (memory : MonitorMemory) (a : BitVec 32) :
    (session outside commands memory).2 a =
      (commands.reverse.findSome? fun typed => stored typed a).getD (memory a) := by
  rw [session_memory internal, ← Function.comp_def Storage.Command.set stored,
    ← List.map_map, Storage.memory_of_sets, ← List.map_reverse, List.findSome?_map]
  rfl

end Sessions

/-! ## Dumps -/

/-- A number of two digits. -/
def twoDigits : Effect → Option (BitVec 8)
  | .output (.printhex value 2) => some (firstChar value)
  | _ => none

/-- The bytes that can be read off what a dump prints: all such numbers but the checksum. -/
def readOff (effects : List Effect) : List (BitVec 8) := (effects.filterMap twoDigits).dropLast

theorem firstChar_signExtend (value : BitVec 8) : firstChar (value.signExtend 32) = value := by
  apply BitVec.eq_of_getLsbD_eq
  intro i bound
  rw [firstChar, BitVec.getLsbD_setWidth, BitVec.getLsbD_signExtend, if_pos bound]
  simp [bound, Nat.lt_trans bound (show 8 < 32 by decide)]

theorem twoDigits_line (memory : MonitorMemory) (first : Nat) :
    ((lineCalls memory first).map Effect.output).filterMap twoDigits =
      (List.range 16).map fun i => memory (BitVec.ofNat 32 (first + i)) := by
  have numbers : (((List.range 16).flatMap fun i =>
      [MonitorCall.printhex ((memory (BitVec.ofNat 32 (first + i))).signExtend 32) 2,
        .printss (bytes " ")]).map Effect.output).filterMap twoDigits =
      (List.range 16).map fun i => memory (BitVec.ofNat 32 (first + i)) := by
    rw [List.map_flatMap, List.filterMap_flatMap, List.map_eq_flatMap]
    refine List.flatMap_congr fun i _ => ?_
    show [firstChar _] = _
    rw [firstChar_signExtend]
  have chars : (((List.range 16).map fun i =>
      MonitorCall.printsss [memory (BitVec.ofNat 32 (first + i))]).map
        Effect.output).filterMap twoDigits = [] := by
    rw [List.map_map, List.filterMap_map]
    exact List.filterMap_eq_nil_iff.mpr fun _ _ => rfl
  rw [lineCalls, List.map_append, List.map_append, List.filterMap_append, List.filterMap_append,
    numbers, chars, List.append_nil]
  rfl

/-- Lines one behind the other. -/
theorem flatMap_lines {α : Type} (f : Nat → α) (first k : Nat) :
    ((List.range k).map fun j => first + 16 * j).flatMap
        (fun start => (List.range 16).map fun i => f (start + i)) =
      (List.range (16 * k)).map fun i => f (first + i) := by
  induction k with
  | zero => rfl
  | succ k inductionHypothesis =>
      rw [show List.range (k + 1) = List.range k ++ [k] from List.range_succ, List.map_append,
        List.flatMap_append, inductionHypothesis, Nat.mul_add, Nat.mul_one, List.range_add,
        List.map_append, List.map_map, List.map_singleton, List.flatMap_singleton]
      simp only [Function.comp_def, Nat.add_assoc]

theorem readOff_commandD {memory : MonitorMemory} {addr count : BitVec 32}
    (below : addr.toNat + count.toNat < 2 ^ 31) :
    readOff ((commandD memory (some addr) (some count)).map .output ++ [bottom]) =
      (List.range (16 * ((addr.toNat % 16 + count.toNat + 15) / 16))).map fun i =>
        memory (BitVec.ofNat 32 (16 * (addr.toNat / 16) + i)) := by
  have lines : (((dumpedLines addr.toNat count.toNat).flatMap (lineCalls memory)).map
      Effect.output).filterMap twoDigits =
      (dumpedLines addr.toNat count.toNat).flatMap fun start =>
        (List.range 16).map fun i => memory (BitVec.ofNat 32 (start + i)) := by
    rw [List.map_flatMap, List.filterMap_flatMap]
    exact List.flatMap_congr fun start _ => twoDigits_line memory start
  have checksum : ∀ sum : BitVec 8,
      ((checksumCalls sum).map Effect.output ++ [bottom]).filterMap twoDigits = [sum] := by
    intro sum
    show [firstChar (sum.signExtend 32)] = [sum]
    rw [firstChar_signExtend]
  rw [commandD_eq memory below, readOff, List.map_append, List.append_assoc,
    List.filterMap_append, checksum, List.dropLast_concat, lines, dumpedLines,
    flatMap_lines fun a => memory (BitVec.ofNat 32 a)]

section Dumping

variable {outside : Effect → MonitorMemory → MonitorMemory} {dump fill : Typed}
  {memory : MonitorMemory} {addr addr' count : BitVec 32} {numbers copies : List (BitVec 32)}

theorem monitorCommand_dump (outside : Effect → MonitorMemory → MonitorMemory)
    (letter : dump.buf = 'd')
    (typed : dump.numbers = addr :: count :: numbers) (memory : MonitorMemory) :
    monitorCommand outside dump memory =
      ((commandD memory (some addr) (some count)).map .output ++ [bottom], memory) := by
  rw [monitorCommand, letter, typed, if_neg (by decide), if_neg (by decide), if_pos rfl]

theorem monitorCommand_fill (fills : fill.buf = 'f' ∨ fill.buf = 's')
    (copied : fill.numbers = addr' :: copies) (short : Internal fill) (memory : MonitorMemory)
    (a : BitVec 32) :
    (monitorCommand outside fill memory).2 a =
      ((copies.map firstChar)[(a - BitVec.ofNat 32 (16 * (addr'.toNat / 16))).toNat]?).getD
        (memory a) := by
  rw [monitorCommand_memory short, stored, if_pos fills, copied, ← high_eq, List.getElem?_map]

end Dumping

def typedAs (buf : Char) (numbers : List (BitVec 32)) : Typed :=
  ⟨buf, numbers, 0, 0, 0, fun _ => 0, 0⟩

def lineFill : Typed := typedAs 'f' (0x0000100F#32 :: List.replicate 16 0#32)

end Os88.MiniOs
