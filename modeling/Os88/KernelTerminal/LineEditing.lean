/-
Module: Os88.KernelTerminal.LineEditing
Purpose: The line that the kernel terminal hands to a command, against the line
  that the keys spell when a carriage return erases the last character.
Trusted boundary: the console is outside the repository; that printing moves its
  column as on a screen of 80 columns is a hypothesis.
Main exports: Display.EightyColumns, promptText, edited, EditsLine, GuardAgrees,
  editing_iff, line_editing_iff
-/
import Os88.Library.CString
import Os88.KernelTerminal.LineInput

namespace Os88.KernelTerminal

open Execution
open StringLib

variable {γ : Type}

/-! ## The console and the prompt -/

/-- A character that takes one column: no control character. -/
def Printable (ch : BitVec 8) : Prop := 0x20 ≤ ch.toNat

instance : DecidablePred Printable :=
  fun _ => inferInstanceAs (Decidable (_ ≤ _))

/-- A console of 80 columns: a printed character takes its column from 79 to 0,
and from every other one to the next. -/
structure Display.EightyColumns (disp : Display γ) : Prop where
  decrement : ∀ con, 0 < disp.cx con → disp.cx (disp.decrementCx con) = disp.cx con - 1
  advance : ∀ con ch, Printable ch → 0 ≤ disp.cx con → disp.cx con < 80 →
    disp.cx (disp.putc ch con) = if disp.cx con = 79 then 0 else disp.cx con + 1

/-- `kprintf` of a text puts its characters. -/
def Display.print (disp : Display γ) (str : List (BitVec 8)) (con : γ) : γ :=
  str.foldl (fun con ch => disp.putc ch con) con

/-- What is printed at the label `prompt`: `kprintf(prompt)`, or
`kprintf("%s@%s:%s$ ", username, hostname, wd)`. -/
def promptText (names : Names) (t : Terminal) : List (BitVec 8) :=
  if t.rootMounted then
    names.username ++ 0x40#8 :: names.hostname ++ 0x3A#8 ::
      t.wd.takeWhile (· ≠ 0#8) ++ bytes "$ "
  else bytes "(kernel) $ "

/-- The state behind a prompt: it is printed, and `memset` clears the buffer. -/
def LineInput.prompted (disp : Display γ) (names : Names) (t : Terminal) (con : γ) :
    LineInput γ where
  buffer := Vector.replicate 256 0#8
  loc := 0
  promptSize := t.promptSize
  con := disp.print (promptText names t) con

/-! ## The line that the keys spell -/

/-- A carriage return erases the last character; any other key is one. -/
def editKey (line : List (BitVec 8)) (key : BitVec 8) : List (BitVec 8) :=
  if key = 0x0D#8 then line.dropLast else line ++ [key]

def edited (keys : List (BitVec 8)) : List (BitVec 8) :=
  keys.foldl editKey []

/-- The keys come to their end with `loc` above 0, and a newline finds the edited
line in the buffer: it stores a terminator at `loc` first. -/
def EditsFrom (disp : Display γ) (line : List (BitVec 8)) (passes : List (Pass γ))
    (s : LineInput γ) : Prop :=
  RunKeeps (terminalKey disp) (fun _ => NoWrap) passes s ∧
    ∃ s' buffer, runAll (terminalKey disp) passes s = some s' ∧
      setByte s'.buffer s'.loc.toNat 0#8 = some buffer ∧
      CString.text 0#8 buffer.toList = some ((passes.map Pass.key).foldl editKey line)

/-- The same for a line that is empty before the keys. -/
def EditsLine (disp : Display γ) (passes : List (Pass γ)) (s : LineInput γ) : Prop :=
  EditsFrom disp [] passes s

/-- The guard of the erase key: the column that the line has come to, in a row of
80, is behind the prompt size exactly when the line has a character. -/
def GuardAgrees (column : Nat) (promptSize : BitVec 8) (key : BitVec 8)
    (line : List (BitVec 8)) : Prop :=
  key = 0x0D#8 → (line ≠ [] ↔ promptSize.toNat < (column + line.length) % 80)

/-! ## Columns -/

section Columns

variable {disp : Display γ}

theorem cx_putc (eighty : disp.EightyColumns) {con : γ} {column : Nat}
    (here : disp.cx con = (column % 80 : Nat))
    {ch : BitVec 8} (printable : Printable ch) :
    disp.cx (disp.putc ch con) = ((column + 1) % 80 : Nat) := by
  rw [eighty.advance con ch printable (by omega) (by omega), here]
  split <;> omega

theorem cx_print (eighty : disp.EightyColumns) {str : List (BitVec 8)}
    (printable : ∀ ch ∈ str, Printable ch) {con : γ} {column : Nat}
    (here : disp.cx con = (column % 80 : Nat)) :
    disp.cx (disp.print str con) = ((column + str.length) % 80 : Nat) := by
  induction str generalizing con column with
  | nil => exact here
  | cons ch rest inductionHypothesis =>
      rw [List.forall_mem_cons] at printable
      have moved := inductionHypothesis printable.2 (cx_putc eighty here printable.1)
      rw [List.length_cons, Nat.add_comm rest.length, ← Nat.add_assoc]
      exact moved

/-- Erasing goes back one column, and never to the row above. -/
theorem cx_eraseLast (eighty : disp.EightyColumns) {con : γ} (behind : 0 < disp.cx con)
    (inside : disp.cx con < 80) :
    disp.cx (disp.eraseLast con) = disp.cx con - 1 := by
  have once := eighty.decrement con behind
  have blank := eighty.advance (disp.decrementCx con) 0x20#8 (by decide) (by omega)
    (by omega)
  rw [if_neg (by omega)] at blank
  have twice := eighty.decrement (disp.putc 0x20#8 (disp.decrementCx con)) (by omega)
  rw [Display.eraseLast, twice]
  omega

end Columns

/-! ## Keys that the guard agrees with -/

/-- The buffer starts with the line, `loc` counts it, and the console stands
behind it. -/
structure HoldsLine (disp : Display γ) (column : Nat) (promptSize : BitVec 8)
    (s : LineInput γ) (line : List (BitVec 8)) : Prop where
  loc : s.loc.toNat = line.length
  chars : ∃ rest, s.buffer.toList = line ++ rest
  nulFree : 0#8 ∉ line
  promptSize : s.promptSize = promptSize
  cx : disp.cx s.con = ((column + line.length) % 80 : Nat)

section Keys

variable {disp : Display γ} {column : Nat} {promptSize : BitVec 8} {s : LineInput γ}
  {line : List (BitVec 8)} {pass : Pass γ}

theorem printable_key (printable : Printable pass.key) :
    pass.key ≠ 0#8 ∧ pass.key ≠ 0x0D#8 ∧ pass.key ≠ 0x0A#8 := by
  refine ⟨?_, ?_, ?_⟩ <;>
  · intro equal
    rw [equal] at printable
    exact absurd printable (by decide)

theorem terminalKey_character_eq (printable : Printable pass.key) :
    terminalKey disp pass s =
      (setByte s.buffer s.loc.toNat pass.key).bind fun buffer =>
        (setByte buffer (s.loc + 1).toNat 0#8).bind fun buffer =>
          some { s with
            buffer := buffer, loc := s.loc + 1, con := disp.putc pass.key s.con } := by
  rcases printable_key printable with ⟨present, noReturn, noNewline⟩
  rw [terminalKey, if_neg present, if_neg noReturn, if_neg noNewline]
  rfl

/-- What is left of the block behind the line. -/
theorem HoldsLine.rest (holds : HoldsLine disp column promptSize s line) :
    ∃ rest, s.buffer.toList = line ++ rest ∧ line.length + rest.length = 256 := by
  rcases holds.chars with ⟨rest, chars⟩
  refine ⟨rest, chars, ?_⟩
  have length := congrArg List.length chars
  rw [List.length_append, Vector.length_toList] at length
  exact length.symm

/-- The newline finds the line. -/
theorem HoldsLine.text (holds : HoldsLine disp column promptSize s line)
    (room : line.length ≤ 255) :
    ∃ buffer, setByte s.buffer s.loc.toNat 0#8 = some buffer ∧
      CString.text 0#8 buffer.toList = some line := by
  have loc := holds.loc
  obtain ⟨rest, chars, length⟩ := holds.rest
  have inside : s.loc.toNat < 256 := by omega
  refine ⟨_, setByte_inside inside 0#8, ?_⟩
  cases rest with
  | nil => simp at length; omega
  | cons old rest =>
      rw [Vector.toList_set, chars, loc,
        List.set_append_right _ _ (Nat.le_refl line.length), Nat.sub_self,
        List.set_cons_zero, CString.text_append_nul holds.nulFree]

/-- A character goes behind the line. -/
theorem HoldsLine.character (eighty : disp.EightyColumns)
    (holds : HoldsLine disp column promptSize s line) (room : line.length ≤ 254)
    (printable : Printable pass.key) :
    ∃ s', terminalKey disp pass s = some s' ∧ NoWrap s s' ∧
      HoldsLine disp column promptSize s' (line ++ [pass.key]) := by
  have loc := holds.loc
  have next : (s.loc + 1).toNat = line.length + 1 := by
    rw [toNat_next (by omega), loc]
  obtain ⟨rest, chars, length⟩ := holds.rest
  have inside : s.loc.toNat < 256 := by omega
  have inside' : (s.loc + 1).toNat < 256 := by omega
  refine ⟨_, by rw [terminalKey_character_eq printable, setByte_inside inside,
    Option.bind_some, setByte_inside inside', Option.bind_some], ?_, ?_⟩
  · rintro ⟨-, wrapped⟩
    rw [show s.loc + 1 = 0xFFFF#16 from wrapped] at next
    have large : 0xFFFF = line.length + 1 := next
    omega
  · refine ⟨?_, ?_, ?_, holds.promptSize, ?_⟩
    · rw [List.length_append]
      exact next
    · rcases rest with _ | ⟨old, _ | ⟨after, rest⟩⟩
      · simp at length
        omega
      · simp at length
        omega
      · refine ⟨0#8 :: rest, ?_⟩
        rw [Vector.toList_set, Vector.toList_set, chars, loc, next]
        exact CString.overwrite_nul line pass.key old after rest
    · rw [List.mem_append, List.mem_singleton, not_or]
      exact ⟨holds.nulFree, Ne.symm (printable_key printable).1⟩
    · rw [List.length_append, List.length_singleton, ← Nat.add_assoc]
      exact cx_putc eighty holds.cx printable

/-- The erase key takes the last character. -/
theorem HoldsLine.erase (eighty : disp.EightyColumns)
    (holds : HoldsLine disp column promptSize s line) (room : line.length ≤ 255)
    (carriage : pass.key = 0x0D#8) (nonempty : line ≠ [])
    (behind : promptSize.toNat < (column + line.length) % 80) :
    ∃ s', terminalKey disp pass s = some s' ∧ NoWrap s s' ∧
      HoldsLine disp column promptSize s' line.dropLast := by
  have loc := holds.loc
  have cx := holds.cx
  have some := List.length_pos_iff.mpr nonempty
  have guard : ¬ disp.cx s.con ≤ s.promptSize.toNat := by
    rw [cx, holds.promptSize]
    omega
  have inside : s.loc.toNat < 256 := by omega
  refine ⟨_, by rw [terminalKey_carriage_eq disp carriage, if_neg guard,
    setByte_inside inside, Option.bind_some], ?_, ?_⟩
  · apply noWrap_of_loc
    rintro zero
    rw [zero] at loc
    have none : 0 = line.length := loc
    omega
  · obtain ⟨rest, chars⟩ := holds.chars
    refine ⟨?_, ?_, ?_, holds.promptSize, ?_⟩
    · rw [List.length_dropLast, ← loc]
      exact toNat_previous (by omega)
    · refine ⟨line.getLast nonempty :: rest.set 0 0#8, ?_⟩
      rw [Vector.toList_set, chars, loc,
        List.set_append_right _ _ (Nat.le_refl line.length), Nat.sub_self,
        List.append_cons, List.dropLast_append_getLast nonempty]
    · exact fun member => holds.nulFree (List.mem_of_mem_dropLast member)
    · show disp.cx (disp.eraseLast s.con) = _
      rw [cx_eraseLast eighty (by omega) (by omega), cx, List.length_dropLast]
      omega

/-- At the prompt it does nothing. -/
theorem HoldsLine.ignored (holds : HoldsLine disp column promptSize s line)
    (carriage : pass.key = 0x0D#8)
    (before : (column + line.length) % 80 ≤ promptSize.toNat) :
    terminalKey disp pass s = some s ∧ NoWrap s s := by
  have guard : disp.cx s.con ≤ s.promptSize.toNat := by
    rw [holds.cx, holds.promptSize]
    omega
  exact ⟨by rw [terminalKey_carriage_eq disp carriage, if_pos guard], noWrap_self s⟩

/-- Behind the prompt size of an empty line it takes `loc` below 0. -/
theorem HoldsLine.underflows (holds : HoldsLine disp column promptSize s [])
    (carriage : pass.key = 0x0D#8)
    (behind : promptSize.toNat < column % 80) {s' : LineInput γ}
    (ran : terminalKey disp pass s = some s') : ¬ NoWrap s s' := by
  have zero : s.loc = 0 := BitVec.eq_of_toNat_eq holds.loc
  have guard : ¬ disp.cx s.con ≤ s.promptSize.toNat := by
    rw [holds.cx, holds.promptSize]
    simp
    omega
  exact terminalKey_wraps disp carriage guard zero ran

/-! ## After an erase key that was ignored -/

/-- The buffer holds more characters than the line, and the console stands at
most as many columns behind the prompt size as the line has characters: an erase
key that it still takes finds one in the line, too. -/
structure HoldsMore (disp : Display γ) (promptSize : BitVec 8) (s : LineInput γ)
    (line : List (BitVec 8)) : Prop where
  longer : line.length < s.loc.toNat
  bound : s.loc.toNat ≤ 255
  nulFree : ∀ i < s.loc.toNat, s.buffer.toList[i]? ≠ some 0#8
  prompt : s.promptSize = promptSize
  inside : 0 ≤ disp.cx s.con ∧ disp.cx s.con < 80
  cx : disp.cx s.con ≤ promptSize.toNat + line.length

theorem HoldsLine.holdsMore (holds : HoldsLine disp column promptSize s line)
    (room : line.length ≤ 255) (nonempty : line ≠ [])
    (before : (column + line.length) % 80 ≤ promptSize.toNat) :
    HoldsMore disp promptSize s line.dropLast := by
  have some := List.length_pos_iff.mpr nonempty
  have cx := holds.cx
  refine ⟨?_, ?_, ?_, holds.promptSize, by omega, by omega⟩
  · rw [List.length_dropLast, holds.loc]
    omega
  · rw [holds.loc]
    exact room
  · intro i inside found
    rw [holds.loc] at inside
    rcases holds.chars with ⟨rest, chars⟩
    rw [chars, List.getElem?_append_left inside] at found
    exact holds.nulFree (List.mem_of_getElem? found)

/-- Stores from the counter on leave the characters in front of it. -/
theorem getElem?_set_before {buffer : Vector (BitVec 8) 256} {i j : Nat} {ch : BitVec 8}
    (inside : i < 256) (before : j < i) :
    (buffer.set i ch inside).toList[j]? = buffer.toList[j]? := by
  rw [Vector.toList_set, List.getElem?_set_ne (by omega)]

theorem HoldsMore.character (eighty : disp.EightyColumns)
    (more : HoldsMore disp promptSize s line) (printable : Printable pass.key)
    {s' : LineInput γ} (ran : terminalKey disp pass s = some s') :
    HoldsMore disp promptSize s' (line ++ [pass.key]) := by
  have longer := more.longer
  have bound := more.bound
  have columns := more.inside
  have cx := more.cx
  have inside : s.loc.toNat < 256 := by omega
  have next : (s.loc + 1).toNat = s.loc.toNat + 1 := toNat_next bound
  rw [terminalKey_character_eq printable, setByte_inside inside, Option.bind_some] at ran
  have inside' : (s.loc + 1).toNat < 256 := by
    by_contra outside
    rw [setByte_outside (Nat.not_lt.mp outside)] at ran
    cases ran
  rw [setByte_inside inside', Option.bind_some] at ran
  obtain rfl := Option.some.inj ran
  have moved := eighty.advance s.con pass.key printable columns.1 columns.2
  refine ⟨?_, ?_, ?_, more.prompt, ?_, ?_⟩
  · rw [List.length_append, List.length_singleton]
    show line.length + 1 < (s.loc + 1).toNat
    omega
  · show (s.loc + 1).toNat ≤ 255
    omega
  · intro i before
    have before' : i < (s.loc + 1).toNat := before
    show ((s.buffer.set s.loc.toNat pass.key inside).set (s.loc + 1).toNat 0#8
      inside').toList[i]? ≠ some 0#8
    rw [getElem?_set_before inside' before']
    by_cases last : i = s.loc.toNat
    · rw [Vector.toList_set, last, List.getElem?_set_self (by simp; omega)]
      exact fun nul => (printable_key printable).1 (Option.some.inj nul)
    · rw [getElem?_set_before inside (by omega)]
      exact more.nulFree i (by omega)
  · show 0 ≤ disp.cx (disp.putc pass.key s.con) ∧ disp.cx (disp.putc pass.key s.con) < 80
    rw [moved]
    split <;> omega
  · show disp.cx (disp.putc pass.key s.con) ≤ _
    rw [moved, List.length_append, List.length_singleton]
    split <;> omega

theorem HoldsMore.carriage (eighty : disp.EightyColumns)
    (more : HoldsMore disp promptSize s line) (carriage : pass.key = 0x0D#8)
    {s' : LineInput γ} (ran : terminalKey disp pass s = some s') :
    HoldsMore disp promptSize s' line.dropLast := by
  have longer := more.longer
  have bound := more.bound
  have columns := more.inside
  have cx := more.cx
  rw [terminalKey_carriage_eq disp carriage, more.prompt] at ran
  by_cases before : disp.cx s.con ≤ promptSize.toNat
  · rw [if_pos before] at ran
    obtain rfl := Option.some.inj ran
    refine ⟨?_, bound, more.nulFree, more.prompt, columns, by omega⟩
    rw [List.length_dropLast]
    omega
  · have inside : s.loc.toNat < 256 := by omega
    rw [if_neg before, setByte_inside inside, Option.bind_some] at ran
    obtain rfl := Option.some.inj ran
    have back := cx_eraseLast eighty (show 0 < disp.cx s.con by omega) columns.2
    have previous : (s.loc - 1).toNat = s.loc.toNat - 1 := toNat_previous (by omega)
    refine ⟨?_, ?_, ?_, rfl, ?_, ?_⟩
    · rw [List.length_dropLast]
      show line.length - 1 < (s.loc - 1).toNat
      omega
    · show (s.loc - 1).toNat ≤ 255
      omega
    · intro i before
      have before' : i < (s.loc - 1).toNat := before
      show (s.buffer.set s.loc.toNat 0#8 inside).toList[i]? ≠ some 0#8
      rw [getElem?_set_before inside (by omega)]
      exact more.nulFree i (by omega)
    · show 0 ≤ disp.cx (disp.eraseLast s.con) ∧ disp.cx (disp.eraseLast s.con) < 80
      omega
    · show disp.cx (disp.eraseLast s.con) ≤ _
      rw [List.length_dropLast]
      omega

/-- The newline finds more than the line. -/
theorem HoldsMore.text (more : HoldsMore disp promptSize s line)
    {buffer : Vector (BitVec 8) 256}
    (stored : setByte s.buffer s.loc.toNat 0#8 = some buffer) :
    CString.text 0#8 buffer.toList ≠ some line := by
  have longer := more.longer
  have inside : s.loc.toNat < 256 := by
    have bound := more.bound
    omega
  rw [setByte_inside inside] at stored
  obtain rfl := Option.some.inj stored
  intro held
  rcases CString.text_eq_some_iff.mp held with ⟨-, rest, whole⟩
  have found : (s.buffer.set s.loc.toNat 0#8 inside).toList[line.length]? = some 0#8 := by
    rw [whole, List.getElem?_append_right (Nat.le_refl _), Nat.sub_self]
    rfl
  rw [getElem?_set_before inside longer] at found
  exact more.nulFree _ longer found

end Keys

/-! ## All keys of a line -/

section Lines

variable {disp : Display γ} {column : Nat} {promptSize : BitVec 8} {s : LineInput γ}
  {line : List (BitVec 8)}

/-- A key that types a character or erases one. -/
def EditingKey (key : BitVec 8) : Prop := Printable key ∨ key = 0x0D#8

theorem editKey_printable {key : BitVec 8} (printable : Printable key) :
    editKey line key = line ++ [key] := by
  rw [editKey, if_neg]
  rintro rfl
  exact absurd printable (by decide)

theorem editKey_carriage : editKey line 0x0D#8 = line.dropLast := if_pos rfl

theorem guardAgrees_carriage : GuardAgrees column promptSize 0x0D#8 line ↔
    (line ≠ [] ↔ promptSize.toNat < (column + line.length) % 80) :=
  ⟨fun agrees => agrees rfl, fun agrees _ => agrees⟩

/-- The first key, and then the others. -/
theorem editsFrom_cons (pass : Pass γ) (rest : List (Pass γ)) :
    EditsFrom disp line (pass :: rest) s ↔
      ∃ s', terminalKey disp pass s = some s' ∧ NoWrap s s' ∧
        EditsFrom disp (editKey line pass.key) rest s' := by
  constructor
  · rintro ⟨⟨middle, ran, safe, keeps⟩, final, buffer, finished, stored⟩
    rw [runAll_cons, ran, Option.bind_some] at finished
    exact ⟨middle, ran, safe, keeps, final, buffer, finished, stored⟩
  · rintro ⟨middle, ran, safe, keeps, final, buffer, finished, stored⟩
    exact ⟨⟨middle, ran, safe, keeps⟩, final, buffer,
      by rw [runAll_cons, ran, Option.bind_some, finished], stored⟩

/-- A line that has lost a key that it should have erased stays too long. -/
theorem HoldsMore.not_editsFrom (eighty : disp.EightyColumns) {passes : List (Pass γ)}
    (keys : ∀ pass ∈ passes, EditingKey pass.key)
    (more : HoldsMore disp promptSize s line) : ¬ EditsFrom disp line passes s := by
  induction passes generalizing s line with
  | nil =>
      rintro ⟨-, final, buffer, finished, stored, held⟩
      obtain rfl := Option.some.inj finished
      exact more.text stored held
  | cons pass rest inductionHypothesis =>
      rw [List.forall_mem_cons] at keys
      rw [editsFrom_cons]
      rintro ⟨middle, ran, -, edits⟩
      refine inductionHypothesis keys.2 ?_ edits
      rcases keys.1 with printable | carriage
      · rw [editKey_printable printable]
        exact more.character eighty printable ran
      · rw [carriage, editKey_carriage]
        exact more.carriage eighty carriage ran

theorem editsFrom_step {pass : Pass γ} {rest : List (Pass γ)} {s' : LineInput γ}
    (ran : terminalKey disp pass s = some s') (safe : NoWrap s s') :
    EditsFrom disp line (pass :: rest) s ↔
      EditsFrom disp (editKey line pass.key) rest s' := by
  rw [editsFrom_cons]
  constructor
  · rintro ⟨middle, ran', -, edits⟩
    obtain rfl := Option.some.inj (ran.symm.trans ran')
    exact edits
  · exact fun edits => ⟨s', ran, safe, edits⟩

/-- From a line that the buffer holds, the keys edit the line exactly as long as
the guard agrees at each of them. -/
theorem editing_iff (eighty : disp.EightyColumns) {passes : List (Pass γ)}
    (keys : ∀ pass ∈ passes, EditingKey pass.key)
    (holds : HoldsLine disp column promptSize s line)
    (room : line.length + passes.length ≤ 255) :
    EditsFrom disp line passes s ↔
      RunMeets (fun (pass : Pass γ) line => some (editKey line pass.key))
        (fun pass => GuardAgrees column promptSize pass.key) passes line := by
  induction passes generalizing s line with
  | nil =>
      obtain ⟨buffer, stored, held⟩ := holds.text (by omega)
      exact iff_of_true ⟨trivial, s, buffer, rfl, stored, held⟩ trivial
  | cons pass rest inductionHypothesis =>
      rw [List.forall_mem_cons] at keys
      rw [List.length_cons] at room
      rw [RunMeets]
      simp only [Option.some.injEq, forall_eq']
      rcases keys.1 with printable | carriage
      · obtain ⟨s', ran, safe, next⟩ := holds.character eighty (by omega) printable
        have agrees : GuardAgrees column promptSize pass.key line :=
          fun carriage => absurd carriage (printable_key printable).2.1
        rw [editsFrom_step ran safe, and_iff_right agrees, editKey_printable printable]
        exact inductionHypothesis keys.2 next (by rw [List.length_append]; simp; omega)
      · rw [carriage, guardAgrees_carriage, editKey_carriage]
        have shorter : line.dropLast.length ≤ line.length := by simp
        by_cases nonempty : line ≠ []
        · by_cases behind : promptSize.toNat < (column + line.length) % 80
          · obtain ⟨s', ran, safe, next⟩ :=
              holds.erase eighty (by omega) carriage nonempty behind
            rw [editsFrom_step ran safe, carriage, editKey_carriage,
              and_iff_right (iff_of_true nonempty behind)]
            exact inductionHypothesis keys.2 next (by omega)
          · -- the key is ignored, and its character stays in the buffer
            have before := Nat.not_lt.mp behind
            rcases holds.ignored carriage before with ⟨ran, safe⟩
            rw [editsFrom_step ran safe, carriage, editKey_carriage]
            refine iff_of_false ?_ fun agrees => behind (agrees.1.mp nonempty)
            exact (holds.holdsMore (by omega) nonempty before).not_editsFrom eighty keys.2
        · obtain rfl : line = [] := not_not.mp nonempty
          by_cases behind : promptSize.toNat < column % 80
          · refine iff_of_false ?_ fun agrees => nonempty (agrees.1.mpr behind)
            rw [editsFrom_cons]
            rintro ⟨s', ran, safe, -⟩
            exact holds.underflows carriage behind ran safe
          · rcases holds.ignored carriage (Nat.not_lt.mp behind) with ⟨ran, safe⟩
            have agreed : ([] : List (BitVec 8)) ≠ [] ↔
                promptSize.toNat < (column + ([] : List (BitVec 8)).length) % 80 :=
              iff_of_false nonempty behind
            rw [editsFrom_step ran safe, carriage, editKey_carriage, and_iff_right agreed]
            exact inductionHypothesis keys.2 holds (by omega)

/-- The line behind a prompt is empty. -/
theorem holdsLine_prompted (eighty : disp.EightyColumns) (names : Names) (t : Terminal)
    (shown : ∀ ch ∈ promptText names t, Printable ch) {con : γ} {start : Nat}
    (here : disp.cx con = start) (inside : start < 80) :
    HoldsLine disp (start + (promptText names t).length) t.promptSize
      (LineInput.prompted disp names t con) [] := by
  refine ⟨rfl, ⟨_, (List.nil_append _).symm⟩, List.not_mem_nil, rfl, ?_⟩
  exact cx_print eighty shown (by omega)

/-- The keys after a prompt leave the edited line in the buffer, with `loc` never
below 0, exactly when the guard of the erase key agrees with the line at each of
them. -/
theorem line_editing_iff (eighty : disp.EightyColumns) (names : Names) (t : Terminal)
    (shown : ∀ ch ∈ promptText names t, Printable ch) {con : γ} {start : Nat}
    (here : disp.cx con = start) (inside : start < 80) {passes : List (Pass γ)}
    (few : passes.length < 200) (keys : ∀ pass ∈ passes, EditingKey pass.key) :
    EditsLine disp passes (LineInput.prompted disp names t con) ↔
      ∀ before pass, before ++ [pass] <+: passes →
        GuardAgrees (start + (promptText names t).length) t.promptSize pass.key
          (edited (before.map Pass.key)) := by
  rw [EditsLine, editing_iff eighty keys
    (holdsLine_prompted eighty names t shown here inside)
    (by rw [List.length_nil]; omega), runMeets_iff_everywhere]
  simp only [edited, List.foldl_map]

/-- In the row of its prompt a line is edited as it should be. -/
theorem guardAgrees_of_row {length : Nat} (size : promptSize.toNat = length)
    (row : length + line.length < 80) (key : BitVec 8) :
    GuardAgrees length promptSize key line := by
  intro _
  rw [size, Nat.mod_eq_of_lt row, ← List.length_pos_iff]
  omega

end Lines

/-- `cd` and `fl` compute the length of the prompt in 8 bits. -/
theorem promptSizeOf_eq (names : Names) {t : Terminal} (mounted : t.rootMounted = true) :
    promptSizeOf names (t.wd.takeWhile (· ≠ 0#8)).length =
      BitVec.ofNat 8 (promptText names t).length := by
  have dollar : (bytes "$ ").length = 2 := by decide
  rw [promptSizeOf, promptText, if_pos mounted]
  simp only [List.length_append, List.length_cons, dollar]
  congr 1
  omega

/-- A console that is nothing but its column. -/
def columnDisplay : Display Int where
  cx := id
  decrementCx := fun column => column - 1
  putc := fun _ column => if column = 79 then 0 else column + 1

theorem columnDisplay_eighty : columnDisplay.EightyColumns :=
  ⟨fun _ _ => rfl, fun _ _ _ _ _ => rfl⟩

/-- The terminal before a root is mounted. -/
def rootless : Terminal where
  rootMounted := false
  wd := []
  promptSize := 11
  printed := []

theorem line_editing_iff_three_keys :
    EditsLine columnDisplay [⟨0x6C, 0, 0⟩, ⟨0x73, 0, 0⟩, ⟨0x0D, 0, 0⟩]
        (LineInput.prompted columnDisplay levos rootless 0) ↔
      ∀ before pass,
        before ++ [pass] <+: [⟨0x6C, 0, 0⟩, ⟨0x73, 0, 0⟩, (⟨0x0D, 0, 0⟩ : Pass Int)] →
        GuardAgrees (0 + (promptText levos rootless).length) 11 pass.key
          (edited (before.map Pass.key)) :=
  line_editing_iff columnDisplay_eighty levos rootless (by decide) rfl (by decide)
    (by decide) (by
      intro pass member
      simp only [List.mem_cons, List.not_mem_nil, or_false] at member
      rcases member with rfl | rfl | rfl
      · exact Or.inl (by decide)
      · exact Or.inl (by decide)
      · exact Or.inr rfl)

/-- 69 characters behind the prompt of 11: the console is back in column 0, and the
erase key does nothing. -/
theorem full_row_not_erased :
    ¬ EditsLine columnDisplay
        (List.replicate 69 ⟨0x61, 0, 0⟩ ++ [⟨0x0D, 0, 0⟩])
        (LineInput.prompted columnDisplay levos rootless 0) := by
  have holds := holdsLine_prompted columnDisplay_eighty levos rootless (by decide)
    (show columnDisplay.cx (0 : Int) = (0 : Nat) from rfl) (by decide)
  have keys : ∀ pass ∈ List.replicate 69 ⟨0x61, 0, 0⟩ ++ [(⟨0x0D, 0, 0⟩ : Pass Int)],
      EditingKey pass.key := by
    intro pass member
    rcases List.mem_append.mp member with typed | erased
    · rw [List.eq_of_mem_replicate typed]
      exact Or.inl (by decide)
    · rw [List.mem_singleton.mp erased]
      exact Or.inr rfl
  rw [EditsLine, editing_iff columnDisplay_eighty keys holds (by decide),
    runMeets_iff_everywhere]
  intro agrees
  have last := agrees (List.replicate 69 ⟨0x61, 0, 0⟩) ⟨0x0D, 0, 0⟩ List.prefix_rfl rfl
  exact absurd last (by decide)

end Os88.KernelTerminal
