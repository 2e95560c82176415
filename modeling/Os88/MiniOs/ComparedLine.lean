/-
Module: Os88.MiniOs.ComparedLine
Purpose: The string that `isr_keyb` compares with its commands, and when it is the
  line as the user edited it.
Trusted boundary: none
Main exports: atCompare, runCommand, comparedText, pressKey_enter, editedLine,
  Session.comparedLine, compared_line_iff
-/
import Os88.MiniOs.LineHistory

namespace Os88.MiniOs

open Execution
open Keyboard
open StringLib

/-! ## The comparison in isr_keyb -/

/-- `isr_keyb` up to the first `strcmp`, for the scancode of an Enter. -/
def atCompare (buf : BitVec 8) (s : Keyboard) : Option Keyboard := do
  let s ← (s.shift (-16)).draw (-1)
  let s ← (s.shift (-16)).setInp s.cntr (keyOf buf)
  let ch ← s.inp[s.cntr]?
  let s ← (s.call (.putcc ch)).draw ch.toInt
  countLoop echo 0 s.cntr (s.call (.printf "ENTERKEY\n"))

/-- The string in `inp` that the two calls of `strcmp` are given. -/
def comparedText (buf : BitVec 8) (s : Keyboard) : Option (List (BitVec 8)) :=
  (atCompare buf s).bind fun s => text s.inp.toList

section Compare

variable (env : Surroundings)

/-- The branch for a newline from the first `strcmp` on. -/
def runCommand (s : Keyboard) : Option (Branch × Keyboard) := do
  let dir ← strcmp (literal dirLine) s.inp.toList
  if dir = 0#32 then
    let s ← dirBranch env s
    return (.dir, { s with cntr := 0 })
  else
    let demo ← strcmp (literal demoLine) s.inp.toList
    if demo = 0#32 then
      let s ← demoBranch env s
      return (.demo, { s with cntr := 0 })
    else
      let s ← clearLine s
      return (.none, { s with cntr := 0 })

variable {env} {s : Keyboard} {buf : BitVec 8} {history : List Line}
  {keys : List (BitVec 8)}

theorem enterLine_eq (s : Keyboard) :
    enterLine env s =
      (countLoop echo 0 s.cntr (s.call (.printf "ENTERKEY\n"))).bind (runCommand env) := rfl

/-- An Enter compares in the state of `atCompare`. -/
theorem pressKey_enter (inside : s.cntr < 100) (enter : keyOf buf = 0x0A#8) :
    pressKey env buf s = (atCompare buf s).bind fun s =>
      (runCommand env s).bind fun (branch, s) =>
        ((s.shift (-2)).draw 0x5F).map fun s => (some branch, s.shift 2) := by
  obtain ⟨s₁, s₂, s₃, erased, stored, read, drawn, again, -⟩ := store_key_spec inside buf
  rw [enter] at stored read drawn again
  simp only [pressKey, atCompare, enter, erased, stored, read, drawn, again, enterLine_eq,
    Option.bind_eq_bind, Option.bind_some, if_true]
  cases countLoop echo 0 s₃.cntr (s₃.call (.printf "ENTERKEY\n")) with
  | none => rfl
  | some s₄ =>
      cases ran : runCommand env s₄ with
      | none => simp [ran]
      | some result =>
          simp only [Option.bind_some, ran, Option.map_some]
          cases (result.2.shift (-2)).draw 0x5F <;> rfl

/-- Until the comparison only the newline is stored in the buffer. -/
theorem comparedText_eq (inside : s.cntr < 100) (ascii : s.Ascii)
    (enter : keyOf buf = 0x0A#8) :
    comparedText buf s = text (s.inp.toList.set s.cntr 0x0A#8) := by
  obtain ⟨s₁, s₂, s₃, erased, stored, read, drawn, -, cntr, list, bytes⟩ :=
    store_key_spec inside buf
  obtain ⟨s₄, echoed, same⟩ := @echo_loop_spec (s₃.call (.printf "ENTERKEY\n"))
    (by rw [call, cntr]; exact inside) (ascii_of_stored ascii bytes)
  have ran : atCompare buf s = some s₄ := by
    simp only [atCompare, erased, stored, read, drawn, Option.bind_eq_bind, Option.bind_some]
    exact echoed
  have kept : s₄.inp = s₃.inp := same.inp
  rw [comparedText, ran, Option.bind_some, kept, list, enter]

end Compare

/-! ## The line as it is edited -/

/-- A printable character -/
def Printable (ch : BitVec 8) : Prop :=
  0x20 ≤ ch.toNat ∧ ch.toNat ≤ 0x7E

instance (ch : BitVec 8) : Decidable (Printable ch) :=
  inferInstanceAs (Decidable (_ ∧ _))

/-- A Backspace removes the last character that remains; other keys without a
printable character are ignored. -/
def editKey (shown : List (BitVec 8)) (ch : BitVec 8) : List (BitVec 8) :=
  if ch = 0x08#8 then shown.dropLast
  else if Printable ch then shown ++ [ch] else shown

/-- The line that the keys spell. -/
def editedLine (keys : List (BitVec 8)) : List (BitVec 8) :=
  keys.foldl editKey []

section Edited

variable {keys : List (BitVec 8)}

theorem editedLine_concat (keys : List (BitVec 8)) (ch : BitVec 8) :
    editedLine (keys ++ [ch]) = editKey (editedLine keys) ch :=
  List.foldl_concat ..

theorem backspace_not_printable : ¬ Printable 0x08#8 := by decide

theorem editKey_printable {ch : BitVec 8} (printable : Printable ch)
    (shown : List (BitVec 8)) : editKey shown ch = shown ++ [ch] := by
  have character : ch ≠ 0x08#8 := by
    rintro rfl
    exact backspace_not_printable printable
  rw [editKey, if_neg character, if_pos printable]

theorem editedLine_printable : ∀ ch ∈ editedLine keys, Printable ch := by
  induction keys using List.reverseRecOn with
  | nil => exact fun ch member => nomatch member
  | append_singleton keys last inductionHypothesis =>
      rw [editedLine_concat, editKey]
      split_ifs with backspace printable
      · exact fun ch member => inductionHypothesis ch (List.mem_of_mem_dropLast member)
      · intro ch member
        rcases List.mem_append.mp member with earlier | here
        · exact inductionHypothesis ch earlier
        · rwa [List.mem_singleton.mp here]
      · exact inductionHypothesis

/-- The keys are the line they spell exactly when all are printable. -/
theorem editedLine_eq_keys_iff : editedLine keys = keys ↔ ∀ ch ∈ keys, Printable ch := by
  constructor
  · intro same ch member
    rw [← same] at member
    exact editedLine_printable ch member
  · intro printable
    induction keys using List.reverseRecOn with
    | nil => rfl
    | append_singleton keys last inductionHypothesis =>
        rw [editedLine_concat, editKey_printable (printable last (by simp)),
          inductionHypothesis fun ch member =>
            printable ch (List.mem_append_left _ member)]

end Edited

/-! ## The comparison after a history -/

/-- The string that is compared at the Enter behind one more line. -/
def Session.comparedLine (session : Session) (line : Line) : Option (List (BitVec 8)) := do
  let s ← runAll (scan session.env) (scancodes session.history ++ line)
    (powerOn session.screen)
  comparedText enterCode s

section Compared

variable {session : Session} {line : Line} {keys : List (BitVec 8)}

/-- A string of a buffer that starts with the keys ends in front of the first NUL. -/
theorem text_of_nul_key {str rest : List (BitVec 8)} (member : 0#8 ∈ keys)
    (held : text (keys ++ rest) = some str) : str <+: keys := by
  rcases CString.text_eq_some_iff.mp held with ⟨nulFree, behind, whole⟩
  rcases List.append_eq_append_iff.mp whole with ⟨more, longer, -⟩ | ⟨more, shorter, -⟩
  · rw [longer] at nulFree
    exact absurd (List.mem_append_left _ member) nulFree
  · exact ⟨more, shorter.symm⟩

/-- The string that is compared: the keys up to a key that maps to 0, or all of them,
the newline, and the newlines that were left behind it. -/
theorem comparedLine_spec (complete : ∀ line ∈ session.history, CompleteLine line)
    (completeLine : CompleteLine line) :
    ∃ str tail, session.comparedLine line = some str ∧
      (tail = [] ↔ ¬ NewlineLeft session.history ((typed line).length + 1)) ∧
      (0#8 ∈ typed line → str <+: typed line) ∧
      (0#8 ∉ typed line → str = typed line ++ 0x0A#8 :: tail) := by
  have short := completeLine.short
  rcases typing_session complete completeLine with ⟨s, ran, typing⟩
  rcases text_entered_buffer typing short complete with ⟨tail, held, ended⟩
  have compared : session.comparedLine line =
      text (typed line ++ 0x0A#8 :: leftByte session.history ((typed line).length + 1) ::
        s.inp.toList.drop ((typed line).length + 2)) := by
    rw [← entered_buffer typing short, ← comparedText_eq (by rw [typing.cntr]; omega)
      typing.ascii keyOf_enterCode, Session.comparedLine, ran]
    rfl
  by_cases nul : 0#8 ∈ typed line
  · rcases CString.exists_text_of_mem (List.mem_append_left (0x0A#8 ::
      leftByte session.history ((typed line).length + 1) ::
        s.inp.toList.drop ((typed line).length + 2)) nul) with ⟨str, heldLine⟩
    exact ⟨str, tail, compared.trans heldLine, ended, fun _ => text_of_nul_key nul heldLine,
      fun absent => absurd nul absent⟩
  · exact ⟨_, tail, compared.trans (text_line nul held), ended,
      fun member => absurd member nul, fun _ => rfl⟩

/-- The compared string is the edited line with its newline exactly when every key of
the line is printable and no newline is left behind it. -/
theorem compared_line_iff (complete : ∀ line ∈ session.history, CompleteLine line)
    (completeLine : CompleteLine line) :
    session.comparedLine line = some (editedLine (typed line) ++ [0x0A#8]) ↔
      (∀ ch ∈ typed line, Printable ch) ∧
        ¬ NewlineLeft session.history ((typed line).length + 1) := by
  rcases comparedLine_spec complete completeLine with ⟨str, tail, compared, ended, cut, whole⟩
  rw [compared, Option.some.injEq]
  by_cases nul : 0#8 ∈ typed line
  · -- the string ends in front of its newline
    have differ : ¬ ∀ ch ∈ typed line, Printable ch := fun printable =>
      absurd (printable 0#8 nul) (by decide)
    refine iff_of_false ?_ fun both => differ both.1
    rintro rfl
    exact completeLine.noEnter ((cut nul).subset (by simp))
  · have edited : 0x0A#8 ∉ editedLine (typed line) := fun member =>
      absurd (editedLine_printable _ member) (by decide)
    rw [whole nul, eq_comm, List.append_cons_inj_of_notMem edited List.not_mem_nil,
      editedLine_eq_keys_iff, ← ended, @eq_comm _ tail,
      and_iff_right rfl]

end Compared

theorem compared_line_iff_dir :
    (blankSession []).comparedLine dirKeys =
        some (editedLine (typed dirKeys) ++ [0x0A#8]) ↔
      (∀ ch ∈ typed dirKeys, Printable ch) ∧
        ¬ NewlineLeft [] ((typed dirKeys).length + 1) :=
  @compared_line_iff (blankSession []) dirKeys (by simp [blankSession])
    ⟨by decide, by decide⟩

/-- The keys `x`, Backspace, `d`, `i`, `r`. -/
def correctedKeys : Line := [0x2D#8, 0x0E#8, 0x20#8, 0x17#8, 0x13#8]

/-- The Backspace stays in the buffer, and the line is not `dir`. -/
theorem corrected_line_not_compared :
    ¬ ∀ (session : Session) (line : Line), session.history = [] → CompleteLine line →
        session.comparedLine line = some (editedLine (typed line) ++ [0x0A#8]) := by
  intro claimed
  have complete : CompleteLine correctedKeys := ⟨by decide, by decide⟩
  rcases @comparedLine_spec (blankSession []) _ (by simp [blankSession]) complete with
    ⟨str, tail, compared, -, -, whole⟩
  rw [claimed (blankSession []) correctedKeys rfl complete, whole (by decide)] at compared
  have lengths := congrArg List.length (Option.some.inj compared)
  have edited : (editedLine (typed correctedKeys) ++ [0x0A#8]).length = 4 := by decide
  have keys : (typed correctedKeys).length = 5 := by decide
  rw [edited, List.length_append, List.length_cons, keys] at lengths
  omega

end Os88.MiniOs
