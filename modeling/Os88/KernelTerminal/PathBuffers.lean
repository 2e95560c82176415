/-
Module: Os88.KernelTerminal.PathBuffers
Purpose: The heap blocks into which `cd`, `write` and `touch` join paths, over
  every run of these commands after `fl`.
Trusted boundary: `vfs_exist_in_dir`, `malloc` and the file system of the device lie
  outside the repository; what they answer is part of the line that is entered.
Main exports: copyPath, joinFile, fileCommand, writeCommand, touchCommand,
  runPathLine, PathEntry, PathEntry.apply, PathEntry.InBounds, joinFile_overruns,
  cdEnter_overruns, exec_inBounds, exec_overruns, pathBuffers_iff
-/
import Os88.KernelTerminal.WorkingDirectory
import Os88.StringLib.Cutting

namespace Os88.KernelTerminal

open Execution
open StringLib

def writeWord : List (BitVec 8) := bytes "write"

def touchWord : List (BitVec 8) := bytes "touch"

theorem writeWord_nulFree : 0#8 ∉ writeWord := by decide

theorem touchWord_nulFree : 0#8 ∉ touchWord := by decide

/-! ## The commands -/

/-- `malloc(strlen(wd) + strlen(arg) + 1)` and the two copies into the block. -/
def copyPath (wd arg : Buffer) (heap : Nat → BitVec 8) : Option Buffer := do
  let wdLength ← strlen wd
  let argLength ← strlen arg
  let f := (List.range (wdLength + argLength + 1)).map heap
  let f ← memcpy f 0 wd wdLength
  memcpy f wdLength arg (argLength + 1)

/-- The block `f`, with the terminator that is stored behind the copies. -/
def joinFile (wd arg : Buffer) (heap : Nat → BitVec 8) : Option Buffer := do
  let f ← copyPath wd arg heap
  let wdLength ← strlen wd
  let argLength ← strlen arg
  store f (wdLength + argLength + 1) 0#8

/-- The branches for `write` and `touch`, which differ in what they print and in
what they then ask of the file system. -/
def fileCommand (format : String) (buffer : Buffer) (n : Nat) (heap : Nat → BitVec 8)
    (t : Terminal) : Option Terminal :=
  if n = 0 ∨ n = 1 then
    some (t.print "FATAL: No argument supplied.\n" [])
  else do
    let arg ← argument buffer
    let f ← joinFile t.wd arg heap
    let path ← text f
    return t.print format [.str path]

def writeCommand : Buffer → Nat → (Nat → BitVec 8) → Terminal → Option Terminal :=
  fileCommand "Writing 'levex is epic' to %s\n"

def touchCommand : Buffer → Nat → (Nat → BitVec 8) → Terminal → Option Terminal :=
  fileCommand "Touching %s\n"

/-- One line of input, the comparisons with the three words only. -/
def runPathLine (names : Names) (buffer : Buffer) (answers : Answers)
    (heap : Nat → BitVec 8) (t : Terminal) : Option Terminal := do
  let (n, buffer) ← strsplit buffer 0x20#8
  let cd ← strcmp buffer (literal cdWord)
  if cd = 0#32 then cdCommand names buffer n answers t
  else do
    let write ← strcmp buffer (literal writeWord)
    if write = 0#32 then writeCommand buffer n heap t
    else do
      let touch ← strcmp buffer (literal touchWord)
      if touch = 0#32 then touchCommand buffer n heap t
      else return t

/-! ## Runs -/

inductive PathCommand where
  | cd
  | write
  | touch
deriving DecidableEq, Repr

def PathCommand.word : PathCommand → List (BitVec 8)
  | .cd => cdWord
  | .write => writeWord
  | .touch => touchWord

/-- A line of one of the commands in the 256 bytes of the command buffer, and what
the rest of the kernel answers. -/
structure PathEntry where
  command : PathCommand
  buffer : Vector (BitVec 8) 256
  line : List (BitVec 8)
  held : text buffer.toList = some line
  starts : (line.splitOn 0x20#8)[0]? = some command.word
  answers : Answers
  heap : Nat → BitVec 8

/-- The second word of the line, if there is one. -/
def PathEntry.argument (entry : PathEntry) : Option (List (BitVec 8)) :=
  (entry.line.splitOn 0x20#8)[1]?

def PathEntry.exec (names : Names) (entry : PathEntry) (t : Terminal) : Option Terminal :=
  runPathLine names entry.buffer.toList entry.answers entry.heap t

/-- What a line makes of the path in `wd`. -/
def PathEntry.apply (path : List (BitVec 8)) (entry : PathEntry) : List (BitVec 8) :=
  match entry.command, entry.argument with
  | .cd, some arg =>
      if arg = hereWord then path
      else if arg = parentWord then parentPath path
      else if entry.answers.existInDir then path ++ arg ++ [0x2F#8]
      else path
  | _, _ => path

/-- `write` and `touch` come without an argument, and a directory that `cd` enters
leaves room for its path, a slash and the terminator in `wd`. -/
def PathEntry.InBounds (entry : PathEntry) (path : List (BitVec 8)) : Prop :=
  match entry.command, entry.argument with
  | .cd, some arg =>
      arg ≠ hereWord → arg ≠ parentWord → entry.answers.existInDir = true →
        path.length + arg.length + 2 ≤ 512
  | .cd, none => True
  | _, argument => argument = none

/-! ## The joins -/

section Joins

variable {names : Names} {t : Terminal} {path arg : List (BitVec 8)} {argBuffer : Buffer}

/-- The copies fill the block to its last byte. -/
theorem copyPath_of_text {wd : Buffer} (heldPath : text wd = some path)
    (heldArg : text argBuffer = some arg) (heap : Nat → BitVec 8) :
    copyPath wd argBuffer heap = some (path ++ arg ++ [0#8]) := by
  rcases CString.text_eq_some_iff.mp heldPath with ⟨-, junk, rfl⟩
  rcases CString.text_eq_some_iff.mp heldArg with ⟨-, rest, rfl⟩
  have block : ∃ first second, first.length = path.length ∧
      second.length = (arg ++ [0#8]).length ∧
      (List.range (path.length + arg.length + 1)).map heap = first ++ second := by
    refine ⟨_, _, ?_, ?_, (List.take_append_drop path.length _).symm⟩
    · rw [List.length_take, List.length_map, List.length_range]
      omega
    · rw [List.length_drop, List.length_map, List.length_range, List.length_append,
        List.length_singleton]
      omega
  rcases block with ⟨first, second, firstLength, secondLength, block⟩
  have copied : memcpy (first ++ second) 0 (path ++ 0#8 :: junk) path.length =
      some (path ++ second) := memcpy_piece [] second path _ firstLength
  have joined : memcpy (path ++ second) path.length (arg ++ 0#8 :: rest) (arg.length + 1) =
      some (path ++ arg ++ [0#8]) := by
    have piece := memcpy_piece path [] (arg ++ [0#8]) rest secondLength
    simpa using piece
  simp only [copyPath, strlen_of_text heldPath, strlen_of_text heldArg, block, copied, joined,
    Option.bind_eq_bind, Option.bind_some]

/-- The terminator is stored one byte behind the end of the block. -/
theorem joinFile_overruns {wd : Buffer} (heldPath : text wd = some path)
    (heldArg : text argBuffer = some arg) (heap : Nat → BitVec 8) :
    joinFile wd argBuffer heap = none := by
  have behind : ¬ path.length + arg.length + 1 < (path ++ arg ++ [0#8]).length := by
    simp only [List.length_append, List.length_singleton]
    omega
  simp only [joinFile, copyPath_of_text heldPath heldArg, strlen_of_text heldPath,
    strlen_of_text heldArg, Option.bind_eq_bind, Option.bind_some, store, if_neg behind]

/-- A path that does not fit is copied over the end of `wd`. -/
theorem cdEnter_overruns (holds : HoldsPath t path) (heldArg : text argBuffer = some arg)
    (long : 512 < path.length + arg.length + 2) (names : Names) :
    cdEnter names argBuffer t = none := by
  rcases CString.text_eq_some_iff.mp heldArg with ⟨argFree, rest, rfl⟩
  have pathFree := (CString.text_eq_some_iff.mp holds.held).1
  have newFree : 0#8 ∉ path ++ arg ++ [0x2F#8] := by
    simp [pathFree, argFree]
  have length := strlen_of_text (CString.text_append_nul newFree [])
  have size := holds.length
  have overrun : memcpy t.wd 0 (path ++ arg ++ [0x2F#8] ++ [0#8])
      ((path ++ arg ++ [0x2F#8]).length + 1) = none := by
    rw [memcpy, if_neg]
    simp only [List.length_append, List.length_singleton]
    omega
  simp only [cdEnter, joinPath_of_text holds.held argFree, length, overrun,
    Option.bind_eq_bind, Option.bind_some, Option.bind_none]

end Joins

/-! ## One line -/

section Lines

variable {names : Names} {t : Terminal} {path arg : List (BitVec 8)}

/-- Without a second word the commands only complain. -/
theorem cdCommand_of_single (holds : HoldsPath t path) (buffer : Buffer) (answers : Answers) :
    ∃ t', cdCommand names buffer 1 answers t = some t' ∧ HoldsPath t' path := by
  refine ⟨t.print "FATAL: no parameter.\n" [], ?_, holds.mounted, holds.held, holds.length⟩
  simp [cdCommand, holds.mounted]

theorem fileCommand_of_single (holds : HoldsPath t path) (format : String) (buffer : Buffer)
    (heap : Nat → BitVec 8) :
    ∃ t', fileCommand format buffer 1 heap t = some t' ∧ HoldsPath t' path :=
  ⟨_, rfl, holds.mounted, holds.held, holds.length⟩

theorem fileCommand_overruns (holds : HoldsPath t path) {buffer argBuffer : Buffer} {n : Nat}
    (several : 2 ≤ n) (second : argument buffer = some argBuffer)
    (heldArg : text argBuffer = some arg) (format : String) (heap : Nat → BitVec 8) :
    fileCommand format buffer n heap t = none := by
  have enough : ¬ (n = 0 ∨ n = 1) := by omega
  simp only [fileCommand, if_neg enough, second, joinFile_overruns holds.held heldArg,
    Option.bind_eq_bind, Option.bind_some, Option.bind_none]

/-- What a line reaches: its command, with the number of its words, and the second
word if there is one. -/
theorem exec_eq (names : Names) (entry : PathEntry) (t : Terminal) :
    ∃ n buffer, (n = 1 ∧ entry.argument = none ∨
        2 ≤ n ∧ ∃ argBuffer arg, argument buffer = some argBuffer ∧
          text argBuffer = some arg ∧ entry.argument = some arg) ∧
      entry.exec names t =
        match entry.command with
        | .cd => cdCommand names buffer n entry.answers t
        | .write => writeCommand buffer n entry.heap t
        | .touch => touchCommand buffer n entry.heap t := by
  rcases strsplit_of_text 0x20#8 entry.held with ⟨rest, -, split⟩
  have nulFree := (CString.text_eq_some_iff.mp entry.held).1
  have read := @CString.strings_of_split _ _ 0#8 entry.line 0x20#8 nulFree rest
  have starts := entry.starts
  generalize entry.line.map (fun ch => if ch = 0x20#8 then 0#8 else ch) ++ 0#8 :: rest =
    buffer at split read
  rcases pieces : entry.line.splitOn 0x20#8 with _ | ⟨first, others⟩
  · rw [pieces] at starts
    cases starts
  rw [pieces] at split read starts
  obtain rfl : first = entry.command.word := Option.some.inj starts
  have heldFirst := firstPiece_of_strings read
  refine ⟨(entry.command.word :: others).length, buffer, ?_, ?_⟩
  · cases others with
    | nil => exact Or.inl ⟨rfl, by rw [PathEntry.argument, pieces]; rfl⟩
    | cons second others =>
        have secondHeld := (secondPiece_of_strings read).2
        refine Or.inr ⟨by simp, _, second, ?_, secondHeld, ?_⟩
        · rw [argument, strlen_of_text heldFirst]
          rfl
        · rw [PathEntry.argument, pieces]
          rfl
  · rcases strcmp_of_text heldFirst (CString.text_append_nul cdWord_nulFree []) with
      ⟨cd, comparedCd, cdZero⟩
    rcases strcmp_of_text heldFirst (CString.text_append_nul writeWord_nulFree []) with
      ⟨write, comparedWrite, writeZero⟩
    rcases strcmp_of_text heldFirst (CString.text_append_nul touchWord_nulFree []) with
      ⟨touch, comparedTouch, touchZero⟩
    simp only [PathEntry.exec, runPathLine, split, literal, comparedCd, comparedWrite,
      comparedTouch, cdZero, writeZero, touchZero, Option.bind_eq_bind, Option.bind_some]
    cases entry.command with
    | cd => rfl
    | write => rfl
    | touch => rfl

/-- A path that is not empty stays one. -/
theorem parentPath_ne_nil (nonempty : path ≠ []) : parentPath path ≠ [] := by
  have some_left := List.length_pos_iff.mpr nonempty
  rw [parentPath]
  split
  · rename_i cut
    rw [← List.length_pos_iff, List.length_take]
    omega
  · exact nonempty

theorem apply_ne_nil (entry : PathEntry) (nonempty : path ≠ []) :
    entry.apply path ≠ [] := by
  rw [PathEntry.apply]
  split
  · split_ifs
    · exact nonempty
    · exact parentPath_ne_nil nonempty
    · simp
    · exact nonempty
  · exact nonempty

/-- A line that is in bounds runs, and leaves the path that it means. -/
theorem exec_inBounds (holds : HoldsPath t path) (nonempty : path ≠ []) {entry : PathEntry}
    (inBounds : entry.InBounds path) :
    ∃ t', entry.exec names t = some t' ∧ HoldsPath t' (entry.apply path) := by
  rcases exec_eq names entry t with ⟨n, buffer, words, ran⟩
  rw [ran]
  rw [PathEntry.InBounds] at inBounds
  rw [PathEntry.apply]
  rcases words with ⟨rfl, single⟩ | ⟨several, argBuffer, arg, second, heldArg, word⟩
  · rw [single]
    cases entry.command with
    | cd => exact cdCommand_of_single holds buffer entry.answers
    | write => exact fileCommand_of_single holds _ buffer entry.heap
    | touch => exact fileCommand_of_single holds _ buffer entry.heap
  · rw [word] at inBounds ⊢
    cases command : entry.command with
    | cd =>
        rw [command] at inBounds
        simp only [cdCommand_of_text holds.mounted several second heldArg]
        by_cases here : arg = hereWord
        · rw [if_pos here, if_pos here]
          exact ⟨t, rfl, holds⟩
        · rw [if_neg here, if_neg here]
          by_cases parent : arg = parentWord
          · rw [if_pos parent, if_pos parent]
            exact cdParent_of_path holds nonempty names
          · rw [if_neg parent, if_neg parent]
            by_cases found : entry.answers.existInDir = true
            · rw [if_pos found, if_pos found]
              rcases CString.text_eq_some_iff.mp heldArg with ⟨argFree, rest, rfl⟩
              exact cdEnter_appends holds argFree (inBounds here parent found) names rest
            · rw [if_neg found, if_neg found]
              exact ⟨t, rfl, holds⟩
    | write =>
        rw [command] at inBounds
        cases inBounds
    | touch =>
        rw [command] at inBounds
        cases inBounds

theorem exec_overruns (holds : HoldsPath t path) {entry : PathEntry}
    (outside : ¬ entry.InBounds path) : entry.exec names t = none := by
  rcases exec_eq names entry t with ⟨n, buffer, words, ran⟩
  rw [ran]
  rw [PathEntry.InBounds] at outside
  rcases words with ⟨rfl, single⟩ | ⟨several, argBuffer, arg, second, heldArg, word⟩
  · rw [single] at outside
    cases command : entry.command with
    | cd => exact absurd (by rw [command]; trivial) outside
    | write => exact absurd (by rw [command]) outside
    | touch => exact absurd (by rw [command]) outside
  · cases command : entry.command with
    | cd =>
        rw [word, command] at outside
        simp only [cdCommand_of_text holds.mounted several second heldArg]
        simp only [Classical.not_imp, Nat.not_le] at outside
        rcases outside with ⟨here, parent, found, long⟩
        rw [if_neg here, if_neg parent, if_pos found]
        exact cdEnter_overruns holds heldArg long names
    | write => exact fileCommand_overruns holds several second heldArg _ entry.heap
    | touch => exact fileCommand_overruns holds several second heldArg _ entry.heap

end Lines

/-! ## Whole runs -/

/-- The path after some lines that were entered behind `fl`. -/
def pathAfter (entries : List PathEntry) : List (BitVec 8) :=
  entries.foldl PathEntry.apply [0x2F#8]

section Runs

variable {names : Names} {t t0 : Terminal}

/-- After `fl` a run of the commands writes inside its buffers exactly when each of
its lines is in bounds for the path that the lines before it have left. -/
theorem pathBuffers_iff {id : List (BitVec 8)} (idFree : 0#8 ∉ id) {rest : Buffer}
    {device : Device} {block : Vector (BitVec 8) 512}
    (mounted : mountRoot names id rest device block t = some t0) (entries : List PathEntry) :
    (∃ t', runAll (PathEntry.exec names) entries t0 = some t') ↔
      ∀ before entry, before ++ [entry] <+: entries →
        entry.InBounds (pathAfter before) := by
  rcases mountRoot_holds idFree names rest device block t with ⟨root, mounted', start⟩
  obtain rfl := Option.some.inj (mounted'.symm.trans mounted)
  have related : HoldsPath root [0x2F#8] ∧ [0x2F#8] ≠ [] := ⟨start, by simp⟩
  have everywhere : RunMeets (fun entry path => some (PathEntry.apply path entry))
      PathEntry.InBounds entries [0x2F#8] ↔ ∀ before entry, before ++ [entry] <+: entries →
        entry.InBounds (pathAfter before) := runMeets_iff_everywhere PathEntry.apply
  rw [← everywhere]
  apply runAll_isSome_iff_meets (fun t path => HoldsPath t path ∧ path ≠ []) PathEntry.apply
    related
  · intro entry t path holds inBounds
    rcases exec_inBounds holds.1 holds.2 inBounds with ⟨t', ran, kept⟩
    exact ⟨t', ran, kept, apply_ne_nil entry holds.2⟩
  · intro entry t path holds outside
    exact exec_overruns holds.1 outside

end Runs

/-! ## A session -/

/-- A line in an empty command buffer. -/
def lineBuffer (line : List (BitVec 8)) : Buffer :=
  line ++ 0#8 :: List.replicate (255 - line.length) 0#8

/-- A line that is entered, where `vfs_exist_in_dir` gives `found`. -/
def entryOf (command : PathCommand) (line : List (BitVec 8)) (found : Bool)
    (short : line.length ≤ 255) (nulFree : 0#8 ∉ line)
    (starts : (line.splitOn 0x20#8)[0]? = some command.word) : PathEntry where
  command := command
  buffer := ⟨(lineBuffer line).toArray, by
    simp only [lineBuffer, List.size_toArray, List.length_append, List.length_cons,
      List.length_replicate]
    omega⟩
  line := line
  held := CString.text_append_nul nulFree _
  starts := starts
  answers := ⟨found, none, false, sampleBlock⟩
  heap _ := 0x55#8

def enterEntry : PathEntry :=
  entryOf .cd (bytes "cd a") true (by decide) (by decide) (by decide)

def touchEntry : PathEntry :=
  entryOf .touch (bytes "touch a") true (by decide) (by decide) (by decide)

theorem pathBuffers_iff_enter :
    ∃ t0, mountRoot sampleNames (bytes "1") [] sampleDevice sampleBlock unmounted = some t0 ∧
      ∃ t', runAll (PathEntry.exec sampleNames) [enterEntry] t0 = some t' := by
  obtain ⟨t0, mounted, -⟩ := mountRoot_holds digit_nulFree sampleNames [] sampleDevice
    sampleBlock unmounted
  refine ⟨t0, mounted, (pathBuffers_iff digit_nulFree mounted [enterEntry]).mpr ?_⟩
  intro before entry inside
  have whole : before ++ [entry] <+: [] ++ [enterEntry] := inside
  rcases List.prefix_concat_iff.mp whole with now | earlier
  · rcases List.append_singleton_inj.mp now with ⟨rfl, rfl⟩
    have room : [0x2F#8].length + (bytes "a").length + 2 ≤ 512 := by decide
    exact fun _ _ _ => room
  · simp at earlier

/-- `touch a` in the root stores the terminator behind the three bytes of its
block. -/
theorem not_pathBuffers_touch :
    ∃ t0, mountRoot sampleNames (bytes "1") [] sampleDevice sampleBlock unmounted = some t0 ∧
      copyPath t0.wd (bytes "a" ++ [0#8]) (fun _ => 0x55#8) = some (bytes "/a" ++ [0#8]) ∧
      joinFile t0.wd (bytes "a" ++ [0#8]) (fun _ => 0x55#8) = none ∧
      ¬ (∀ entries, ∃ t', runAll (PathEntry.exec sampleNames) entries t0 = some t') := by
  obtain ⟨t0, mounted, holds⟩ := mountRoot_holds digit_nulFree sampleNames [] sampleDevice
    sampleBlock unmounted
  have argument : text (bytes "a" ++ [0#8]) = some (bytes "a") := by decide
  refine ⟨t0, mounted, copyPath_of_text holds.held argument _,
    joinFile_overruns holds.held argument _, fun all => ?_⟩
  rcases all [touchEntry] with ⟨t', ran⟩
  have several : touchEntry.argument ≠ none := by decide
  have outside : ¬ touchEntry.InBounds (render []) := several
  rw [runAll_cons, exec_overruns holds outside] at ran
  cases ran

end Os88.KernelTerminal
