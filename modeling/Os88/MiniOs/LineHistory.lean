/-
Module: Os88.MiniOs.LineHistory
Purpose: How the command that a typed line takes depends on the lines before it.
Trusted boundary: none
Main exports: Session, branchAfter, NewlineLeft, run_typed, Typing,
  branchAfter_eq, own_line_decides_iff
-/
import Mathlib.Data.List.Basic
import Os88.MiniOs.KeyboardEffect

namespace Os88.MiniOs

open Execution
open Keyboard
open StringLib

/-! ## Lines and sessions -/

/-- The scancodes of a line up to the Enter that ends it. -/
abbrev Line := List (BitVec 8)

/-- The scancode of the Enter key. -/
def enterCode : BitVec 8 := 0x1C#8

/-- The characters of the keys that are pressed in a line. -/
def typed (line : Line) : List (BitVec 8) :=
  (line.filter fun buf => buf &&& 0x80#8 = 0#8).map keyOf

/-- A line of fewer than 99 keys that holds no other Enter. -/
structure CompleteLine (line : Line) : Prop where
  noEnter : 0x0A#8 ∉ typed line
  short : (typed line).length < 99

/-- A line of printable keys. -/
structure PrintableLine (line : Line) : Prop where
  printable : ∀ ch ∈ typed line, 0x20 ≤ ch.toNat ∧ ch.toNat ≤ 0x7E
  short : (typed line).length < 99

/-- The interrupts of a session: what surrounds it, the screen at power-on, and
the lines that are entered. -/
structure Session where
  env : Surroundings
  screen : Screen
  history : List Line

/-- The keyboard at power-on. -/
def powerOn (screen : Screen) : Keyboard where
  inp := Vector.replicate 100 0#8
  cntr := 0
  screen := screen
  calls := []

def scan (env : Surroundings) (buf : BitVec 8) (s : Keyboard) : Option Keyboard :=
  (isrKeyb env buf s).map Prod.snd

/-- The scancodes of complete lines. -/
def scancodes (history : List Line) : List (BitVec 8) :=
  history.flatMap fun line => line ++ [enterCode]

/-- The command taken at the end of one more line. -/
def Session.branchAfter (session : Session) (line : Line) : Option Branch := do
  let s ← runAll (scan session.env) (scancodes session.history ++ line)
    (powerOn session.screen)
  let (branch, _) ← isrKeyb session.env enterCode s
  branch

/-- The line takes the same command in both sessions, `dir` exactly when the
line spells it. -/
def OwnLineDecides (first second : Session) (line : Line) : Prop :=
  ∃ branch, first.branchAfter line = some branch ∧
    second.branchAfter line = some branch ∧
    (branch = .dir ↔ typed line = bytes "dir")

/-- The last line with at least `i` keys had exactly `i`: its newline is still
in the buffer. -/
def NewlineLeft (history : List Line) (i : Nat) : Prop :=
  ((history.map fun line => (typed line).length).filter (i ≤ ·)).getLast? = some i

instance (history : List Line) (i : Nat) : Decidable (NewlineLeft history i) :=
  inferInstanceAs (Decidable (_ = _))

/-- The byte that a history leaves at `i`. -/
def leftByte (history : List Line) (i : Nat) : BitVec 8 :=
  if NewlineLeft history i then 0x0A#8 else 0#8

/-- The command of a line with these characters. -/
def commandAfter (history : List Line) (keys : List (BitVec 8)) : Branch :=
  if keys = bytes "dir" ∧ ¬ NewlineLeft history 4 then .dir
  else if keys = bytes "demo" ∧ ¬ NewlineLeft history 5 then .demo
  else .none

section Lines

variable {history : List Line} {line : Line} {buf : BitVec 8} {i : Nat}

theorem typed_concat_press (pressed : buf &&& 0x80#8 = 0#8) :
    typed (line ++ [buf]) = typed line ++ [keyOf buf] := by
  simp [typed, pressed]

theorem typed_concat_release (released : buf &&& 0x80#8 ≠ 0#8) :
    typed (line ++ [buf]) = typed line := by
  simp [typed, released]

theorem typed_ascii {ch : BitVec 8} (member : ch ∈ typed line) :
    ch.toNat < 128 := by
  rcases List.mem_map.mp member with ⟨buf, -, rfl⟩
  exact keyOf_lt buf

theorem PrintableLine.complete (printable : PrintableLine line) :
    CompleteLine line := by
  refine ⟨?_, printable.short⟩
  intro member
  have bounds := printable.printable _ member
  exact absurd bounds.1 (by decide)

theorem PrintableLine.nulFree (printable : PrintableLine line) :
    0#8 ∉ typed line := by
  intro member
  have bounds := printable.printable _ member
  exact absurd bounds.1 (by decide)

theorem newlineLeft_concat_iff :
    NewlineLeft (history ++ [line]) i ↔
      (typed line).length = i ∨
        ((typed line).length < i ∧ NewlineLeft history i) := by
  unfold NewlineLeft
  rw [List.map_append, List.filter_append]
  by_cases long : i ≤ (typed line).length
  · simp only [List.map_cons, List.map_nil, List.filter_cons, long,
      decide_true, if_true, List.filter_nil, List.getLast?_append,
      List.getLast?_singleton, Option.some_or, Option.some.injEq]
    omega
  · simp only [List.map_cons, List.map_nil, List.filter_cons, long,
      decide_false, Bool.false_eq_true, if_false, List.filter_nil,
      List.append_nil]
    constructor
    · exact fun left => Or.inr ⟨by omega, left⟩
    · rintro (same | ⟨-, left⟩)
      · omega
      · exact left

theorem leftByte_nil (i : Nat) : leftByte [] i = 0#8 := by
  simp [leftByte, NewlineLeft]

theorem leftByte_concat (history : List Line) (line : Line) (i : Nat) :
    leftByte (history ++ [line]) i =
      if i < (typed line).length then 0#8
      else if i = (typed line).length then 0x0A#8 else leftByte history i := by
  unfold leftByte
  rcases Nat.lt_trichotomy i (typed line).length with inside | rfl | outside
  · have nothing : ¬ NewlineLeft (history ++ [line]) i := by
      rw [newlineLeft_concat_iff]
      omega
    rw [if_neg nothing, if_pos inside]
  · rw [if_pos (newlineLeft_concat_iff.mpr (Or.inl rfl)), if_neg (by omega),
      if_pos rfl]
  · have earlier : NewlineLeft (history ++ [line]) i ↔ NewlineLeft history i := by
      rw [newlineLeft_concat_iff]
      constructor
      · rintro (same | ⟨-, left⟩)
        · omega
        · exact left
      · exact fun left => Or.inr ⟨outside, left⟩
    rw [if_neg (by omega : ¬ i < (typed line).length),
      if_neg (by omega : ¬ i = (typed line).length)]
    simp only [earlier]

/-- The newline of a complete line lies in front of the last byte. -/
theorem not_newlineLeft_of_complete (complete : ∀ line ∈ history, CompleteLine line)
    (beyond : 99 ≤ i) : ¬ NewlineLeft history i := by
  intro left
  have member := List.mem_of_getLast? left
  rcases List.mem_filter.mp member with ⟨mapped, -⟩
  rcases List.mem_map.mp mapped with ⟨line, entered, length⟩
  have short := (complete line entered).short
  omega

end Lines

/-! ## The buffer while a line is typed -/

/-- The buffer after the lines of `history` and the keys of an unfinished line:
these keys, then what the history left. -/
structure Typing (history : List Line) (keys : List (BitVec 8))
    (s : Keyboard) : Prop where
  cntr : s.cntr = keys.length
  bytes : ∀ i, s.byte i = keys.getD i (leftByte history i)

section Typing

variable {env : Surroundings} {history : List Line} {line : Line}
  {keys : List (BitVec 8)} {buf : BitVec 8} {s : Keyboard}

/-- What holds of the characters so far, pressed or released one scancode at a time,
holds of a whole line. -/
theorem run_typed {Holds : List (BitVec 8) → Keyboard → Prop} {Meets : BitVec 8 → Prop}
    {most : Nat} (start : Holds [] s)
    (press : ∀ keys s buf, Holds keys s → buf &&& 0x80#8 = 0#8 → Meets (keyOf buf) →
      keys.length < most → ∃ s', scan env buf s = some s' ∧ Holds (keys ++ [keyOf buf]) s')
    (release : ∀ keys s buf, Holds keys s → buf &&& 0x80#8 ≠ 0#8 →
      ∃ s', scan env buf s = some s' ∧ Holds keys s')
    (meets : ∀ ch ∈ typed line, Meets ch) (short : (typed line).length ≤ most) :
    ∃ s', runAll (scan env) line s = some s' ∧ Holds (typed line) s' := by
  induction line using List.reverseRecOn with
  | nil => exact ⟨s, rfl, start⟩
  | append_singleton line buf inductionHypothesis =>
      rw [runAll_concat]
      by_cases pressed : buf &&& 0x80#8 = 0#8
      · rw [typed_concat_press pressed] at meets short ⊢
        rw [List.length_append, List.length_singleton] at short
        obtain ⟨middle, ran, holds⟩ := inductionHypothesis
          (fun ch member => meets ch (List.mem_append_left _ member)) (by omega)
        obtain ⟨s', last, final⟩ :=
          press _ _ _ holds pressed (meets _ (by simp)) (by omega)
        exact ⟨s', by rw [ran, Option.bind_some, last], final⟩
      · rw [typed_concat_release pressed] at meets short ⊢
        rcases inductionHypothesis meets short with ⟨middle, ran, holds⟩
        rcases release _ _ _ holds pressed with ⟨s', last, final⟩
        exact ⟨s', by rw [ran, Option.bind_some, last], final⟩

theorem typing_powerOn (screen : Screen) : Typing [] [] (powerOn screen) := by
  refine ⟨rfl, ?_⟩
  intro i
  rw [List.getD_nil, leftByte_nil]
  simp only [byte, powerOn, Vector.toList_replicate,
    List.getD_eq_getElem?_getD, List.getElem?_getD_replicate_default_eq]

theorem Typing.ascii (typing : Typing history (typed line) s) : s.Ascii := by
  intro i
  rw [typing.bytes]
  by_cases inside : i < (typed line).length
  · rw [List.getD_eq_getElem _ _ inside]
    exact typed_ascii (List.getElem_mem inside)
  · rw [List.getD_eq_default _ _ (by omega), leftByte]
    split <;> decide

theorem typing_press (typing : Typing history keys s) (room : keys.length < 100)
    (pressed : buf &&& 0x80#8 = 0#8) (other : keyOf buf ≠ 0x0A#8) :
    ∃ s', scan env buf s = some s' ∧ Typing history (keys ++ [keyOf buf]) s' := by
  obtain ⟨s', ran, next, bytes⟩ :=
    @isrKeyb_character env s buf pressed other (by rw [typing.cntr]; exact room)
  refine ⟨s', by rw [scan, ran]; rfl, ?_, ?_⟩
  · rw [next, typing.cntr, List.length_append, List.length_singleton]
  · intro i
    rw [bytes, typing.cntr, typing.bytes]
    rcases Nat.lt_trichotomy i keys.length with earlier | rfl | later
    · rw [if_neg (by omega), List.getD_append _ _ _ _ earlier,
        List.getD_eq_getElem _ _ earlier]
    · rw [if_pos rfl, List.getD_append_right _ _ _ _ (Nat.le_refl _), Nat.sub_self,
        List.getD_cons_zero]
    · rw [if_neg (by omega), List.getD_eq_default _ _ (by omega),
        List.getD_eq_default _ _ (by simp; omega)]

theorem typing_release (typing : Typing history keys s)
    (released : buf &&& 0x80#8 ≠ 0#8) :
    ∃ s', scan env buf s = some s' ∧ Typing history keys s' := by
  rcases @isrKeyb_release env buf released s with ⟨s', ran, same⟩
  refine ⟨s', by rw [scan, ran]; rfl, same.cntr.trans typing.cntr, ?_⟩
  intro i
  rw [same.byte, typing.bytes]

theorem typing_line (typing : Typing history [] s)
    (noEnter : 0x0A#8 ∉ typed line) (short : (typed line).length ≤ 100) :
    ∃ s', runAll (scan env) line s = some s' ∧ Typing history (typed line) s' := by
  refine @run_typed env line s (Typing history) (· ≠ 0x0A#8) 100 typing ?_ ?_ ?_ short
  · intro keys s buf typingKeys pressed other room
    exact typing_press typingKeys room pressed other
  · intro keys s buf typingKeys released
    exact typing_release typingKeys released
  · rintro ch member rfl
    exact noEnter member

/-! ## Enter -/

/-- The buffer once the newline of the line is in it. -/
theorem entered_buffer (typing : Typing history keys s) (short : keys.length < 99) :
    s.inp.toList.set s.cntr 0x0A#8 =
      keys ++ 0x0A#8 :: leftByte history (keys.length + 1) ::
        s.inp.toList.drop (keys.length + 2) := by
  have length : s.inp.toList.length = 100 := Vector.length_toList
  have first : s.inp.toList.take keys.length = keys := by
    apply List.ext_getElem
    · rw [List.length_take, length]
      omega
    · intro i inside inKeys
      have read := typing.bytes i
      rw [byte, List.getD_eq_getElem _ _ (by omega),
        List.getD_eq_getElem _ _ inKeys] at read
      rw [List.getElem_take, read]
  have next : s.inp.toList.drop (keys.length + 1) =
      leftByte history (keys.length + 1) :: s.inp.toList.drop (keys.length + 2) := by
    have read := typing.bytes (keys.length + 1)
    rw [byte, List.getD_eq_getElem _ _ (by omega),
      List.getD_eq_default _ _ (by omega)] at read
    rw [List.drop_eq_getElem_cons (by omega), read]
  rw [List.set_eq_take_append_cons_drop, typing.cntr, if_pos (by omega), first, next]

theorem text_entered_buffer (typing : Typing history keys s)
    (short : keys.length < 99)
    (complete : ∀ line ∈ history, CompleteLine line) :
    ∃ tail, text (leftByte history (keys.length + 1) ::
        s.inp.toList.drop (keys.length + 2)) = some tail ∧
      (tail = [] ↔ ¬ NewlineLeft history (keys.length + 1)) := by
  have final : 0#8 ∈ leftByte history (keys.length + 1) ::
      s.inp.toList.drop (keys.length + 2) := by
    have nothing := not_newlineLeft_of_complete complete (Nat.le_refl 99)
    by_cases atEnd : keys.length + 1 = 99
    · rw [atEnd, leftByte, if_neg nothing]
      exact List.mem_cons_self
    · have length : s.inp.toList.length = 100 := Vector.length_toList
      have read := typing.bytes 99
      rw [byte, List.getD_eq_getElem _ _ (by omega),
        List.getD_eq_default _ _ (by omega), leftByte, if_neg nothing] at read
      refine List.mem_cons_of_mem _ (List.mem_drop_iff_getElem.mpr ?_)
      refine ⟨99 - (keys.length + 2), by omega, ?_⟩
      rw [← read]
      congr 1
      omega
  rcases CString.exists_text_of_mem final with ⟨tail, held⟩
  refine ⟨tail, held, ?_⟩
  rcases text_cons_cases held with ⟨ended, rfl⟩ | ⟨present, tail', -, rfl⟩
  · have nothing : ¬ NewlineLeft history (keys.length + 1) := by
      intro left
      rw [leftByte, if_pos left] at ended
      exact absurd ended (by decide)
    simp [nothing]
  · have left : NewlineLeft history (keys.length + 1) := by
      by_contra nothing
      exact present (if_neg nothing)
    simp [left]

theorem enterCode_pressed : enterCode &&& 0x80#8 = 0#8 := by decide

theorem keyOf_enterCode : keyOf enterCode = 0x0A#8 := by decide

/-- An Enter that finds room and a string in the buffer starts the next line. -/
theorem typing_next_line {str : List (BitVec 8)} (typing : Typing history (typed line) s)
    (pressed : buf &&& 0x80#8 = 0#8) (enter : keyOf buf = 0x0A#8)
    (room : (typed line).length < 100)
    (held : text (s.inp.toList.set s.cntr 0x0A#8) = some str) :
    ∃ s', scan env buf s = some s' ∧ Typing (history ++ [line]) [] s' := by
  obtain ⟨s', ran, zero, bytes⟩ := @isrKeyb_enter env s buf str pressed enter
    (by rw [typing.cntr]; exact room) typing.ascii held
  refine ⟨s', by rw [scan, ran]; rfl, zero, ?_⟩
  intro i
  rw [bytes, List.getD_nil, leftByte_concat, typing.cntr]
  split_ifs with inside
  · rfl
  · rfl
  · rw [typing.bytes, List.getD_eq_default _ _ (by omega)]

/-- The Enter behind a complete line starts the next line. -/
theorem typing_enter (typing : Typing history (typed line) s)
    (completeLine : CompleteLine line)
    (complete : ∀ line ∈ history, CompleteLine line) :
    ∃ s', scan env enterCode s = some s' ∧ Typing (history ++ [line]) [] s' := by
  have short := completeLine.short
  rcases text_entered_buffer typing short complete with ⟨tail, held, -⟩
  have nulMember : 0#8 ∈ s.inp.toList.set s.cntr 0x0A#8 := by
    rw [entered_buffer typing short]
    rcases CString.text_eq_some_iff.mp held with ⟨-, rest, whole⟩
    rw [whole]
    simp
  rcases CString.exists_text_of_mem nulMember with ⟨str, heldLine⟩
  exact typing_next_line typing enterCode_pressed keyOf_enterCode (by omega) heldLine

theorem typing_history (screen : Screen)
    (complete : ∀ line ∈ history, CompleteLine line) :
    ∃ s, runAll (scan env) (scancodes history) (powerOn screen) = some s ∧
      Typing history [] s := by
  induction history using List.reverseRecOn with
  | nil => exact ⟨_, rfl, typing_powerOn screen⟩
  | append_singleton history line inductionHypothesis =>
      have earlier : ∀ line ∈ history, CompleteLine line :=
        fun other member => complete other (List.mem_append_left _ member)
      have completeLine := complete line (by simp)
      rcases inductionHypothesis earlier with ⟨before, ranBefore, typing⟩
      obtain ⟨written, ranLine, typingLine⟩ :=
        @typing_line env _ line _ typing completeLine.noEnter
          (by have short := completeLine.short; omega)
      obtain ⟨s, ranEnter, final⟩ :=
        @typing_enter env _ _ _ typingLine completeLine earlier
      refine ⟨s, ?_, final⟩
      have split : scancodes (history ++ [line]) =
          scancodes history ++ (line ++ [enterCode]) := by
        simp [scancodes]
      rw [split, runAll_append, ranBefore, Option.bind_some, runAll_concat,
        ranLine, Option.bind_some, ranEnter]

/-- The buffer behind the lines of a session and one more line. -/
theorem typing_session {session : Session}
    (complete : ∀ line ∈ session.history, CompleteLine line)
    (completeLine : CompleteLine line) :
    ∃ s, runAll (scan session.env) (scancodes session.history ++ line)
        (powerOn session.screen) = some s ∧
      Typing session.history (typed line) s := by
  have short := completeLine.short
  obtain ⟨before, ranBefore, typing⟩ :=
    @typing_history session.env session.history session.screen complete
  obtain ⟨s, ranLine, typingLine⟩ :=
    @typing_line session.env _ line _ typing completeLine.noEnter (by omega)
  exact ⟨s, by rw [runAll_append, ranBefore, Option.bind_some, ranLine], typingLine⟩

/-- Keys without NUL, their newline, and the string behind it. -/
theorem text_line {rest tail : List (BitVec 8)} (nulFree : 0#8 ∉ keys)
    (held : text rest = some tail) :
    text (keys ++ 0x0A#8 :: rest) = some (keys ++ 0x0A#8 :: tail) := by
  rw [text, CString.text_append nulFree, CString.text_cons (by decide)]
  show ((text _).map _).map _ = _
  rw [held]
  rfl

/-! ## The command -/

/-- A line is a command only if nothing follows its newline. -/
theorem line_eq_command_iff {word tail : List (BitVec 8)}
    (oneLine : 0x0A#8 ∉ word)
    (ended : tail = [] ↔ ¬ NewlineLeft history (keys.length + 1)) :
    keys ++ 0x0A#8 :: tail = word ++ [0x0A#8] ↔
      keys = word ∧ ¬ NewlineLeft history (word.length + 1) := by
  rw [eq_comm, List.append_cons_inj_of_notMem oneLine List.not_mem_nil]
  constructor
  · rintro ⟨rfl, -, nothing⟩
    exact ⟨rfl, ended.mp nothing.symm⟩
  · rintro ⟨rfl, nothing⟩
    exact ⟨rfl, rfl, (ended.mpr nothing).symm⟩

theorem commandOf_line {tail : List (BitVec 8)}
    (ended : tail = [] ↔ ¬ NewlineLeft history (keys.length + 1)) :
    commandOf (keys ++ 0x0A#8 :: tail) = commandAfter history keys := by
  have isDir : keys ++ 0x0A#8 :: tail = dirLine ↔
      keys = bytes "dir" ∧ ¬ NewlineLeft history 4 :=
    line_eq_command_iff (by decide : 0x0A#8 ∉ bytes "dir") ended
  have isDemo : keys ++ 0x0A#8 :: tail = demoLine ↔
      keys = bytes "demo" ∧ ¬ NewlineLeft history 5 :=
    line_eq_command_iff (by decide : 0x0A#8 ∉ bytes "demo") ended
  simp only [commandOf, commandAfter, isDir, isDemo]

/-- The command of a line, in terms of its keys and of the newlines that the
history left. -/
theorem branchAfter_eq {session : Session} (printable : PrintableLine line)
    (complete : ∀ line ∈ session.history, CompleteLine line) :
    session.branchAfter line = some (commandAfter session.history (typed line)) := by
  have short := printable.short
  rcases typing_session complete printable.complete with ⟨s, ran, typing⟩
  rcases text_entered_buffer typing short complete with ⟨tail, held, ended⟩
  have heldLine : text (s.inp.toList.set s.cntr 0x0A#8) =
      some (typed line ++ 0x0A#8 :: tail) := by
    rw [entered_buffer typing short]
    exact text_line printable.nulFree held
  obtain ⟨s', ranEnter, -⟩ := @isrKeyb_enter session.env s enterCode _ enterCode_pressed
    keyOf_enterCode (by rw [typing.cntr]; omega) typing.ascii heldLine
  rw [Session.branchAfter, ran, Option.bind_eq_bind, Option.bind_some, ranEnter,
    commandOf_line ended]
  rfl

end Typing

/-! ## Two sessions -/

section Sessions

variable {first second : Session} {line : Line}

/-- A line decides its command alone, except for newlines that earlier lines
left in the buffer right behind its own. -/
theorem own_line_decides_iff
    (completeFirst : ∀ line ∈ first.history, CompleteLine line)
    (completeSecond : ∀ line ∈ second.history, CompleteLine line)
    (printable : PrintableLine line) :
    OwnLineDecides first second line ↔
      (typed line = bytes "dir" →
        ¬ NewlineLeft first.history 4 ∧ ¬ NewlineLeft second.history 4) ∧
      (typed line = bytes "demo" →
        (NewlineLeft first.history 5 ↔ NewlineLeft second.history 5)) := by
  have taken : OwnLineDecides first second line ↔
      commandAfter first.history (typed line) =
          commandAfter second.history (typed line) ∧
        (commandAfter first.history (typed line) = .dir ↔
          typed line = bytes "dir") := by
    rw [OwnLineDecides, branchAfter_eq printable completeFirst,
      branchAfter_eq printable completeSecond]
    constructor
    · rintro ⟨branch, inFirst, inSecond, spelled⟩
      obtain rfl := Option.some.inj inFirst
      exact ⟨(Option.some.inj inSecond).symm, spelled⟩
    · rintro ⟨same, spelled⟩
      exact ⟨_, rfl, congrArg some same.symm, spelled⟩
  rw [taken]
  have differ : bytes "dir" ≠ bytes "demo" := by decide
  by_cases dir : typed line = bytes "dir"
  · have notDemo : typed line ≠ bytes "demo" := fun demo => differ (dir.symm.trans demo)
    simp only [commandAfter, dir, differ, true_and, false_and, if_false,
      forall_const, IsEmpty.forall_iff, and_true, iff_true]
    by_cases leftFirst : NewlineLeft first.history 4 <;>
      by_cases leftSecond : NewlineLeft second.history 4 <;>
      simp [leftFirst, leftSecond]
  · by_cases demo : typed line = bytes "demo"
    · simp only [commandAfter, demo, differ.symm, true_and, false_and, if_false,
        forall_const, IsEmpty.forall_iff, iff_false]
      by_cases leftFirst : NewlineLeft first.history 5 <;>
        by_cases leftSecond : NewlineLeft second.history 5 <;>
        simp [leftFirst, leftSecond]
    · simp [commandAfter, dir, demo]

end Sessions

/-! ## A newline that is left -/

/-- FAT routines that draw nothing, and an empty screen. -/
def blankSession (history : List Line) : Session where
  env := ⟨id, id⟩
  screen := ⟨0, 35, fun _ => 0#8⟩
  history := history

/-- The keys `d`, `i`, `r`, with the releases of the first two. -/
def dirKeys : Line := [0x20#8, 0xA0#8, 0x17#8, 0x97#8, 0x13#8]

/-- The keys `d`, `e`, `m`, `o`. -/
def demoKeys : Line := [0x20#8, 0x12#8, 0x32#8, 0x18#8]

theorem own_line_decides_iff_dir :
    OwnLineDecides (blankSession []) (blankSession [dirKeys]) dirKeys ↔
      (typed dirKeys = bytes "dir" →
        ¬ NewlineLeft [] 4 ∧ ¬ NewlineLeft [dirKeys] 4) ∧
      (typed dirKeys = bytes "demo" →
        (NewlineLeft [] 5 ↔ NewlineLeft [dirKeys] 5)) :=
  @own_line_decides_iff (blankSession []) (blankSession [dirKeys]) dirKeys
    (by simp [blankSession])
    (by
      intro line entered
      obtain rfl := List.mem_singleton.mp entered
      exact ⟨by decide, by decide⟩)
    ⟨by decide, by decide⟩

/-- The newline of `demo` lies at index 4, and the next `dir` is not
recognised. -/
theorem dir_after_demo_ignored :
    ¬ ∀ (first second : Session) (line : Line),
        (∀ line ∈ first.history, CompleteLine line) →
        (∀ line ∈ second.history, CompleteLine line) →
        PrintableLine line → OwnLineDecides first second line := by
  intro claimed
  have completeDemo : ∀ line ∈ [demoKeys], CompleteLine line := by
    intro line entered
    obtain rfl := List.mem_singleton.mp entered
    exact ⟨by decide, by decide⟩
  have printable : PrintableLine dirKeys := ⟨by decide, by decide⟩
  obtain ⟨branch, -, afterDemo, spelled⟩ := claimed (blankSession [])
    (blankSession [demoKeys]) dirKeys (by simp [blankSession]) completeDemo printable
  rw [branchAfter_eq printable completeDemo] at afterDemo
  obtain rfl := Option.some.inj afterDemo
  exact absurd (spelled.mpr (by decide)) (by decide)

end Os88.MiniOs
