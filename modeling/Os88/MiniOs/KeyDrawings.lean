/-
Module: Os88.MiniOs.KeyDrawings
Purpose: What a key press draws, as a list of operations on the screen.
Trusted boundary: none
Main exports: Drawing, pixelsOf, keyDrawings, Keyboard.line, Editing,
  isrKeyb_editing
-/
import Os88.MiniOs.KeyboardEffect
import Os88.MiniOs.Pixels

namespace Os88.MiniOs

open Execution
open Keyboard
open StringLib

/-! ## Drawing operations -/

/-- An operation on the screen: `width = width + distance` or
`drawtext(charnum)`. -/
inductive Drawing where
  | shift (distance : Int)
  | text (charnum : Int)
deriving DecidableEq, Repr

namespace Drawing

def apply : Drawing → Screen → Option Screen
  | .shift distance, s => some { s with width := s.width + distance }
  | .text charnum, s => drawtext charnum s

def pixels : Drawing → Screen → List Pixel
  | .shift _, _ => []
  | .text charnum, s => drawtextPixels charnum s

end Drawing

/-- The pixels that a list of operations writes. -/
def pixelsOf : List Drawing → Screen → List Pixel
  | [], _ => []
  | drawing :: rest, s =>
      drawing.pixels s ++ ((drawing.apply s).map (pixelsOf rest)).getD []

/-- The characters typed since the last Enter. -/
def Keyboard.line (s : Keyboard) : List (BitVec 8) := s.inp.toList.take s.cntr

/-- Enter repeats the line. -/
def echoDrawings (line : List (BitVec 8)) : List Drawing :=
  line.map fun ch => .text ch.toInt

/-- The cursor is drawn. -/
def cursorDrawings : List Drawing := [.shift (-2), .text 0x5F, .shift 2]

/-- The operations of a key press: the cursor is erased, the character is drawn,
Enter repeats the line, and the cursor is drawn again. -/
def pressDrawings (ch : BitVec 8) (line : List (BitVec 8)) : List Drawing :=
  [.shift (-16), .text (-1), .shift (-16), .text ch.toInt] ++
    (if ch = 0x0A#8 then echoDrawings line else []) ++ cursorDrawings

/-- The operations of `isr_keyb` for the scancode `buf`. -/
def keyDrawings (buf : BitVec 8) (s : Keyboard) : List Drawing :=
  if buf &&& 0x80#8 = 0#8 then pressDrawings (keyOf buf) s.line else []

section Pixels

variable {s s' : Screen}

theorem pixelsOf_append {first : List Drawing} (ran : runAll Drawing.apply first s = some s')
    (second : List Drawing) :
    pixelsOf (first ++ second) s = pixelsOf first s ++ pixelsOf second s' := by
  induction first generalizing s with
  | nil =>
      obtain rfl := Option.some.inj ran
      rfl
  | cons drawing rest inductionHypothesis =>
      rcases Option.bind_eq_some_iff.mp ran with ⟨middle, once, later⟩
      rw [List.cons_append, pixelsOf, pixelsOf, once]
      simp only [Option.map_some, Option.getD_some, List.append_assoc,
        inductionHypothesis later]

end Pixels

/-! ## The screen of each step -/

section Screens

variable {env : Surroundings} {s s' : Keyboard} {buf ch : BitVec 8} {charnum : Int}

theorem draw_screen (drawn : s.draw charnum = some s') :
    drawtext charnum s.screen = some s'.screen := by
  rcases Option.map_eq_some_iff.mp drawn with ⟨screen, ran, rfl⟩
  exact ran

theorem setInp_screen {i : Nat} (stored : s.setInp i ch = some s') :
    s'.screen = s.screen := by
  rw [setInp] at stored
  split at stored
  · obtain rfl := Option.some.inj stored
    rfl
  · cases stored

theorem clearLine_screen (cleared : clearLine s = some s') : s'.screen = s.screen :=
  countLoop_preserves (fun s' => s'.screen = s.screen)
    (fun _ _ _ stored same => (setInp_screen stored).trans same) cleared rfl

theorem echo_screen {k : Nat} (inside : k < 100) (ran : echo k s = some s') :
    drawtext (s.byte k).toInt s.screen = some s'.screen ∧ s'.inp = s.inp := by
  rw [echo, getElem?_inp inside] at ran
  simp only [Option.bind_eq_bind, Option.bind_some] at ran
  rcases Option.bind_eq_some_iff.mp ran with ⟨drawn, draws, rest⟩
  rw [getElem?_inp inside] at rest
  obtain rfl := Option.some.inj rest
  have screen := draw_screen draws
  rcases Option.map_eq_some_iff.mp draws with ⟨_, _, rfl⟩
  exact ⟨screen, rfl⟩

/-- The loop draws the characters of the line. -/
theorem echo_loop_screen {first count : Nat} (inside : first + count ≤ 100)
    (ran : countLoop echo first count s = some s') :
    runAll Drawing.apply (echoDrawings ((s.inp.toList.drop first).take count)) s.screen =
      some s'.screen := by
  induction count generalizing first s with
  | zero =>
      obtain rfl := Option.some.inj ran
      rfl
  | succ count inductionHypothesis =>
      rcases Option.bind_eq_some_iff.mp ran with ⟨middle, once, later⟩
      rcases echo_screen (by omega) once with ⟨drawn, same⟩
      have rest := inductionHypothesis (by omega) later
      have length : s.inp.toList.length = 100 := Vector.length_toList
      have head : s.inp.toList.drop first =
          s.byte first :: s.inp.toList.drop (first + 1) := by
        rw [List.drop_eq_getElem_cons (by omega), byte, List.getD_eq_getElem _ _ (by omega)]
      rw [same] at rest
      rw [head, List.take_succ_cons, echoDrawings, List.map_cons, runAll_cons]
      show (drawtext _ _).bind _ = _
      rw [drawn]
      exact rest

/-- The first four operations. -/
theorem store_key_screen {s₁ s₂ s₃ : Keyboard}
    (erased : (s.shift (-16)).draw (-1) = some s₁)
    (stored : (s₁.shift (-16)).setInp s₁.cntr ch = some s₂)
    (drawn : (s₂.call (.putcc ch)).draw ch.toInt = some s₃) :
    runAll Drawing.apply [.shift (-16), .text (-1), .shift (-16), .text ch.toInt] s.screen =
      some s₃.screen := by
  have first := draw_screen erased
  have last := draw_screen drawn
  have same : s₂.screen = (s₁.shift (-16)).screen := setInp_screen stored
  have middle : drawtext ch.toInt (s₁.shift (-16)).screen = some s₃.screen := by
    rw [← same]
    exact last
  simp only [shift] at first middle
  simp only [runAll, Drawing.apply, Option.bind_some, first, middle]

theorem cursor_screen (drawn : (s.shift (-2)).draw 0x5F = some s') :
    runAll Drawing.apply cursorDrawings s.screen = some (s'.shift 2).screen := by
  have drawnScreen := draw_screen drawn
  simp only [shift] at drawnScreen
  simp only [cursorDrawings, runAll, Drawing.apply, Option.bind_some, drawnScreen]
  rfl

end Screens

/-! ## Editing a line -/

/-- The buffer holds the line that is being typed. -/
structure Editing (line : List (BitVec 8)) (s : Keyboard) : Prop where
  cntr : s.cntr = line.length
  held : s.line = line
  oneLine : 0x0A#8 ∉ line
  ascii : s.Ascii

/-- The line after a key. -/
def nextLine (ch : BitVec 8) (line : List (BitVec 8)) : List (BitVec 8) :=
  if ch = 0x0A#8 then [] else line ++ [ch]

/-- The line is neither of the commands. -/
def NoCommand (line : List (BitVec 8)) : Prop :=
  line ≠ bytes "dir" ∧ line ≠ bytes "demo"

instance (line : List (BitVec 8)) : Decidable (NoCommand line) :=
  inferInstanceAs (Decidable (_ ∧ _))

section Editing

variable {env : Surroundings} {s : Keyboard} {buf : BitVec 8} {line : List (BitVec 8)}

theorem ascii_of_cleared {s' : Keyboard} (ascii : s.Ascii)
    (cleared : ∀ i, s'.byte i = if i < s.cntr then 0#8 else s.byte i) : s'.Ascii := by
  intro i
  rw [cleared]
  split
  · decide
  · exact ascii i

/-- An Enter on a line that is not a command repeats and clears it. -/
theorem enterLine_other (inside : s.cntr < 100) (ascii : s.Ascii)
    (length : s.cntr = line.length) {rest : List (BitVec 8)}
    (entered : s.inp.toList = line ++ 0x0A#8 :: rest) (oneLine : 0x0A#8 ∉ line)
    (noCommand : NoCommand line) :
    ∃ s', enterLine env s = some (.none, s') ∧ s'.cntr = 0 ∧ s'.Ascii ∧
      runAll Drawing.apply (echoDrawings line) s.screen = some s'.screen := by
  obtain ⟨s₁, echoed, same⟩ := @echo_loop_spec (s.call (.printf "ENTERKEY\n"))
    inside ascii
  have list : s₁.inp.toList = line ++ 0x0A#8 :: rest := by
    rw [same.inp]
    exact entered
  obtain ⟨dir, comparedDir, notDir⟩ := strcmp_other_line
    (by decide : 0#8 ∉ bytes "dir") (by decide) oneLine noCommand.1 rest
  obtain ⟨demo, comparedDemo, notDemo⟩ := strcmp_other_line
    (by decide : 0#8 ∉ bytes "demo") (by decide) oneLine noCommand.2 rest
  rw [← list] at comparedDir comparedDemo
  have insideNow : s₁.cntr < 100 := by
    rw [same.cntr]
    exact inside
  rcases @clearLine_spec s₁ insideNow with ⟨s₂, cleared, bytes₂⟩
  have drawn := echo_loop_screen (by rw [Nat.zero_add]; exact Nat.le_of_lt inside) echoed
  have prefix_ : (s.inp.toList.drop 0).take s.cntr = line := by
    rw [List.drop_zero, entered, length, List.take_left]
  refine ⟨{ s₂ with cntr := 0 }, ?_, rfl,
    ascii_of_cleared (same.ascii ascii) bytes₂, ?_⟩
  · have dirWord : dirLine = bytes "dir" ++ [0x0A#8] := by decide
    have demoWord : demoLine = bytes "demo" ++ [0x0A#8] := by decide
    simp only [enterLine, echoed, dirWord, demoWord, comparedDir, comparedDemo, notDir,
      notDemo, cleared, Option.bind_eq_bind, Option.bind_some, if_false]
    rfl
  · show _ = some s₂.screen
    rw [clearLine_screen cleared, ← drawn]
    exact congrArg (fun line => runAll Drawing.apply (echoDrawings line) s.screen)
      prefix_.symm

/-- The buffer once the key is stored. -/
theorem entered_line (editing : Editing line s) (room : line.length < 100) (ch : BitVec 8) :
    s.inp.toList.set s.cntr ch = line ++ ch :: s.inp.toList.drop (s.cntr + 1) := by
  have length : s.inp.toList.length = 100 := Vector.length_toList
  have held : s.inp.toList.take s.cntr = line := editing.held
  rw [List.set_eq_take_append_cons_drop, if_pos (by rw [length, editing.cntr]; exact room),
    held]

/-- An Enter behind a line that is not a command: its operations are what it does to the
screen, and an empty line follows. -/
theorem isrKeyb_editing_enter (editing : Editing line s) (pressed : buf &&& 0x80#8 = 0#8)
    (room : line.length < 100) (enter : keyOf buf = 0x0A#8) (noCommand : NoCommand line) :
    ∃ s', isrKeyb env buf s = some (some .none, s') ∧
      runAll Drawing.apply (pressDrawings 0x0A#8 line) s.screen = some s'.screen ∧
      Editing [] s' := by
  have inside : s.cntr < 100 := by
    rw [editing.cntr]
    exact room
  obtain ⟨s₁, s₂, s₃, erased, stored, read, drawn, again, cntr, list, bytes⟩ :=
    store_key_spec inside buf
  have asciiNow := ascii_of_stored editing.ascii bytes
  rw [entered_line editing room] at list
  rw [enter] at stored read drawn again list
  have stores := store_key_screen erased stored drawn
  rcases @enterLine_other env s₃ line (by rw [cntr]; exact inside) asciiNow
      (cntr.trans editing.cntr) _ list editing.oneLine noCommand with
    ⟨s₄, ran, zero, ascii, echoed⟩
  rcases cursor_spec s₄ with ⟨s₅, cursor, same⟩
  refine ⟨(s₅.shift 2).call (.outb 0x20 0x20), ?_, ?_, ?_⟩
  · simp only [isrKeyb, pressKey, pressed, enter, erased, stored, read, drawn, again, ran,
      cursor, Option.bind_eq_bind, Option.bind_some, Option.map_some, if_true]
    rfl
  · rw [pressDrawings, if_pos rfl, runAll_append, runAll_append, stores, Option.bind_some,
      echoed, Option.bind_some]
    exact cursor_screen cursor
  · refine ⟨same.cntr.trans zero, ?_, List.not_mem_nil, same.ascii ascii⟩
    show (s₅.shift 2).inp.toList.take (s₅.shift 2).cntr = []
    rw [same.cntr, zero, List.take_zero]

/-- Any other key: its operations are what it does to the screen, and it follows the
line. -/
theorem isrKeyb_editing_character (editing : Editing line s)
    (pressed : buf &&& 0x80#8 = 0#8) (room : line.length < 100)
    (other : keyOf buf ≠ 0x0A#8) :
    ∃ s', isrKeyb env buf s = some (none, s') ∧
      runAll Drawing.apply (pressDrawings (keyOf buf) line) s.screen = some s'.screen ∧
      Editing (line ++ [keyOf buf]) s' := by
  obtain ⟨s₁, s₂, s₃, erased, stored, read, drawn, again, cntr, list, bytes⟩ :=
    store_key_spec (by rw [editing.cntr]; exact room) buf
  have asciiNow := ascii_of_stored editing.ascii bytes
  rw [entered_line editing room] at list
  have stores := store_key_screen erased stored drawn
  rcases cursor_spec { s₃ with cntr := s₃.cntr + 1 } with ⟨s₄, cursor, same⟩
  refine ⟨(s₄.shift 2).call (.outb 0x20 0x20), ?_, ?_, ?_⟩
  · simp only [isrKeyb, pressKey, pressed, erased, stored, read, drawn, again, other,
      cursor, Option.bind_eq_bind, Option.bind_some, if_true, if_false]
    rfl
  · rw [pressDrawings, if_neg other, List.append_nil, runAll_append, stores,
      Option.bind_some]
    exact @cursor_screen { s₃ with cntr := s₃.cntr + 1 } s₄ cursor
  · have next : (s₄.shift 2).cntr = line.length + 1 :=
      same.cntr.trans (by rw [← editing.cntr, ← cntr])
    refine ⟨?_, ?_, ?_, same.ascii asciiNow⟩
    · rw [List.length_append, List.length_singleton]
      exact next
    · show (s₄.shift 2).inp.toList.take (s₄.shift 2).cntr = line ++ [keyOf buf]
      rw [next, same.inp]
      show s₃.inp.toList.take (line.length + 1) = _
      rw [list, List.take_append, List.take_of_length_le (Nat.le_succ _),
        Nat.add_sub_cancel_left]
      rfl
    · simp [editing.oneLine, Ne.symm other]

/-- The operations of a key press are what it does to the screen, and the line
follows the key. -/
theorem isrKeyb_editing (editing : Editing line s) (pressed : buf &&& 0x80#8 = 0#8)
    (room : line.length < 100) (noCommand : keyOf buf = 0x0A#8 → NoCommand line) :
    ∃ branch s', isrKeyb env buf s = some (branch, s') ∧
      runAll Drawing.apply (keyDrawings buf s) s.screen = some s'.screen ∧
      Editing (nextLine (keyOf buf) line) s' := by
  rw [keyDrawings, if_pos pressed, editing.held, nextLine]
  by_cases enter : keyOf buf = 0x0A#8
  · rw [if_pos enter, enter]
    exact ⟨some .none, isrKeyb_editing_enter editing pressed room enter (noCommand enter)⟩
  · rw [if_neg enter]
    exact ⟨none, isrKeyb_editing_character editing pressed room enter⟩

/-- A release draws nothing and keeps the line. -/
theorem isrKeyb_editing_release (editing : Editing line s)
    (released : buf &&& 0x80#8 ≠ 0#8) :
    ∃ s', isrKeyb env buf s = some (none, s') ∧ s'.screen = s.screen ∧ Editing line s' := by
  refine ⟨s.call (.outb 0x20 0x20), ?_, rfl,
    ⟨editing.cntr, editing.held, editing.oneLine, editing.ascii⟩⟩
  simp only [isrKeyb, released, if_false, Option.bind_eq_bind, Option.bind_some]
  rfl

end Editing

end Os88.MiniOs
