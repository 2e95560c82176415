/-
Module: Os88.TextConsole.Display
Purpose: The two ways the screen is painted.  A driver that shows single
  characters as they are set and whole memories on a rerender is run beside the
  consoles, and its display is compared with the memory of the current screen.
Trusted boundary: none
Main exports: Display, displayDriver, Agrees, Representable,
  shownCell_cellValue_iff, Operation.Clean, incremental_display_agrees
-/
import Os88.TextConsole.Operations

namespace Os88.TextConsole

open Execution

/-- The character and the colour in each cell of the display. -/
abbrev Display := Nat → Nat → BitVec 8 × Color

/-- Low byte as character, high byte as colour. -/
def shownCell (cell : Cell) : BitVec 8 × Color :=
  (cell.extractLsb' 0 8, cell.extractLsb' 8 8)

/-- What a full rerender of a memory shows. -/
def screenOf (g : Geometry) (mem : List Cell) : Display :=
  fun x y => shownCell (mem.getD (x + y * g.width) 0)

/-- The driver of such a display, which gives the ttys the memories `mems`. -/
def displayDriver (g : Geometry) (mems : TtyId → List Cell) :
    TtyDriver Display where
  geometry := g
  init := some fun t tty display => ({ tty with mem := mems t }, display)
  rerender := some fun tty _ => screenOf g tty.mem
  switchHandler := some fun tty _ => screenOf g tty.mem
  updateCursorLocation := some fun _ display => display
  setChar := some fun _ x y ch color display x' y' =>
    if x' = x ∧ y' = y then (ch, color) else display x' y'

/-- The display shows what a full rerender of the current screen would. -/
def Agrees (g : Geometry) (c : Console Display) : Prop :=
  ∃ s, c.currentScreen = some s ∧
    ∀ x < g.width, ∀ y < g.height,
      c.device x y = screenOf g (c.ttys s).mem x y

/-! ## The packed cell -/

/-- A character and colour that one cell can hold: sign extension turns the
colour of a byte from 0x80 on into 0xFF. -/
def Representable (ch : BitVec 8) (color : Color) : Prop :=
  ch.toNat < 128 ∨ color = 0xFF

theorem cellValue_low (ch : BitVec 8) (color : Color) :
    (cellValue ch color).extractLsb' 0 8 = ch := by
  apply BitVec.eq_of_getLsbD_eq
  intro i bound
  have h32 : i < 32 := by omega
  have h16 : i < 16 := by omega
  simp [cellValue, BitVec.getElem_signExtend, bound, h16, h32]

theorem cellValue_high_of_lt {ch : BitVec 8} (ascii : ch.toNat < 128)
    (color : Color) : (cellValue ch color).extractLsb' 8 8 = color := by
  apply BitVec.eq_of_getLsbD_eq
  intro i bound
  have positive : ch.msb = false := by
    rw [BitVec.msb_eq_false_iff_two_mul_lt]
    omega
  have h8 : ¬ 8 + i < 8 := by omega
  have h16 : 8 + i < 16 := by omega
  have h32 : 8 + i < 32 := by omega
  simp [cellValue, BitVec.getElem_signExtend, bound, h8, h16, h32, positive]

theorem cellValue_high_of_le {ch : BitVec 8} (extended : 128 ≤ ch.toNat)
    (color : Color) : (cellValue ch color).extractLsb' 8 8 = 0xFF := by
  apply BitVec.eq_of_getLsbD_eq
  intro i bound
  have negative : ch.msb = true := by
    rw [BitVec.msb_eq_true_iff_two_mul_ge]
    omega
  have h8 : ¬ 8 + i < 8 := by omega
  have h16 : 8 + i < 16 := by omega
  have h32 : 8 + i < 32 := by omega
  have ones : (255#8)[i] = true := BitVec.getElem_allOnes i bound
  simp [cellValue, BitVec.getElem_signExtend, bound, h8, h16, h32, negative, ones]

/-- The packed cell denotes the arguments given to the driver exactly for the
representable characters. -/
theorem shownCell_cellValue_iff (ch : BitVec 8) (color : Color) :
    shownCell (cellValue ch color) = (ch, color) ↔ Representable ch color := by
  rw [shownCell, cellValue_low]
  by_cases ascii : ch.toNat < 128
  · rw [cellValue_high_of_lt ascii]
    exact iff_of_true rfl (Or.inl ascii)
  · rw [cellValue_high_of_le (by omega)]
    constructor
    · intro equal
      exact Or.inr (Prod.mk.inj equal).2.symm
    · rintro (small | white)
      · exact absurd small ascii
      · rw [white]

/-! ## Steps that keep the display in agreement -/

section Steps

variable {g : Geometry} {mems : TtyId → List Cell} {t : TtyId}
  {c : Console Display}

/-- Changes of the ttys that spare the memories do not show. -/
theorem Agrees.modify (agrees : Agrees g c) {f : Tty → Tty}
    (spares : (f (c.ttys t)).mem = (c.ttys t).mem) :
    Agrees g (c.modify t f) := by
  rcases agrees with ⟨s, screen, painted⟩
  refine ⟨s, screen, ?_⟩
  intro x hx y hy
  rw [Console.modify_device, painted x hx y hy, Console.modify_ttys]
  by_cases same : s = t
  · rw [same, Function.update_self, spares]
  · rw [Function.update_of_ne same]

/-- A tty that is not on the screen may change. -/
theorem Agrees.modify_hidden (agrees : Agrees g c)
    (hidden : c.currentScreen ≠ some t) (f : Tty → Tty) :
    Agrees g (c.modify t f) := by
  rcases agrees with ⟨s, screen, painted⟩
  refine ⟨s, screen, ?_⟩
  intro x hx y hy
  have ne : s ≠ t := by
    rintro rfl
    exact hidden screen
  rw [Console.modify_device, painted x hx y hy, Console.modify_ttys,
    Function.update_of_ne ne]

theorem Agrees.updateCursorLocation (agrees : Agrees g c) :
    Agrees g (ttyUpdateCursorLocation (displayDriver g mems) c) := by
  rcases agrees with ⟨s, screen, painted⟩
  refine ⟨s, by simpa using screen, ?_⟩
  intro x hx y hy
  rw [ttyUpdateCursorLocation_ttys, ← painted x hx y hy]
  simp [ttyUpdateCursorLocation, screen, displayDriver, Console.notify]

/-- A redraw shows whatever was done to the tty. -/
theorem Agrees.redraw (agrees : Agrees g c) (f : Tty → Tty) :
    Agrees g (ttyRedraw (displayDriver g mems) t (c.modify t f)) := by
  unfold ttyRedraw
  by_cases shown : c.currentScreen = some t
  · rw [if_pos (by exact shown)]
    refine Agrees.updateCursorLocation ⟨t, by simpa using shown, ?_⟩
    intro x hx y hy
    simp [displayDriver, Console.notify]
  · rw [if_neg (by exact shown)]
    exact agrees.modify_hidden shown f

/-- A character set on the screen shows as the cell it was stored in, if a cell
can hold it. -/
theorem Agrees.showChar (agrees : Agrees g c) {x y : Nat} {ch : BitVec 8}
    {color : Color} (hx : x < g.width) (hy : y < g.height)
    (length : (c.ttys t).mem.length = g.cells)
    (clean : c.currentScreen = some t → Representable ch color) :
    Agrees g (showChar (displayDriver g mems) t x y ch color
      (c.modify t (Tty.setChar g x y ch color))) := by
  unfold TextConsole.showChar
  by_cases shown : c.currentScreen = some t
  · rw [if_pos (by exact shown)]
    rcases agrees with ⟨s, screen, painted⟩
    obtain rfl : s = t := Option.some.inj (screen.symm.trans shown)
    refine ⟨s, by simpa using screen, ?_⟩
    intro x' hx' y' hy'
    have index := g.index_lt hx hy
    simp only [displayDriver, Console.notify, Option.map_some,
      Console.modify_ttys, Function.update_self, Console.modify_device,
      Tty.setChar, screenOf, List.getD_eq_getElem?_getD, List.getElem?_set]
    by_cases same : x' = x ∧ y' = y
    · rw [if_pos same, same.1, same.2, if_pos rfl, if_pos (by rwa [length])]
      exact ((shownCell_cellValue_iff ch color).mpr (clean shown)).symm
    · rw [if_neg same, if_neg (fun equal =>
        same (g.index_inj hx' hx equal.symm)), painted x' hx' y' hy', screenOf,
        List.getD_eq_getElem?_getD]
  · rw [if_neg (by exact shown)]
    exact agrees.modify_hidden shown _

/-- Switching to another screen draws it in full. -/
theorem switch_agrees (hidden : c.currentScreen ≠ some t) :
    Agrees g (ttySwitch (displayDriver g mems) t c) := by
  unfold ttySwitch
  rw [if_neg hidden]
  refine Agrees.updateCursorLocation ⟨t, rfl, ?_⟩
  intro x hx y hy
  rfl

theorem Agrees.switch (agrees : Agrees g c) (t : TtyId) :
    Agrees g (ttySwitch (displayDriver g mems) t c) := by
  by_cases shown : c.currentScreen = some t
  · rw [ttySwitch, if_pos shown]
    exact agrees
  · exact switch_agrees shown

theorem newline_agrees {c' : Console Display} (agrees : Agrees g c)
    (row : (c.ttys t).y < g.height) (length : (c.ttys t).mem.length = g.cells)
    (ran : ttyNewline (displayDriver g mems) t c = some c') : Agrees g c' := by
  rw [ttyNewline_eq (displayDriver g mems) t c row length] at ran
  rw [← Option.some.inj ran]
  by_cases last : (displayDriver g mems).geometry.height ≤ (c.ttys t).y + 1
  · rw [if_pos last]
    exact (agrees.redraw _).modify rfl
  · rw [if_neg last]
    exact agrees.modify rfl

theorem printGlyph_agrees {c' : Console Display} {ch : BitVec 8}
    (agrees : Agrees g c) (wellFormed : (c.ttys t).WellFormed g)
    (clean : c.currentScreen = some t → Representable ch (c.ttys t).color)
    (ran : printGlyph (displayDriver g mems) t ch c = some c') : Agrees g c' := by
  have advanced := afterGlyph_becomes (displayDriver g mems) t ch c
  have kept := wellFormed.setChar (c.ttys t).x (c.ttys t).y ch (c.ttys t).color
  have painted : Agrees g (afterGlyph (displayDriver g mems) t ch c) :=
    (agrees.showChar wellFormed.x_lt wellFormed.y_lt wellFormed.mem_length
      clean).modify rfl
  rw [printGlyph_eq (displayDriver g mems) ch wellFormed] at ran
  by_cases wraps : (displayDriver g mems).geometry.width ≤ (c.ttys t).x + 1
  · rw [if_pos wraps] at ran
    exact newline_agrees painted (by rw [advanced.self]; exact kept.y_lt)
      (by rw [advanced.self]; exact kept.mem_length) ran
  · rw [if_neg wraps] at ran
    rw [← Option.some.inj ran]
    exact painted

/-! ## Clean operations -/

/-- The pen colour after a command. -/
def Command.penAfter (pen : Color) : Command → Color
  | .setColor color => color
  | _ => pen

/-- Every character written by the commands, from the given pen on, can be held
by a cell. -/
def CleanCommands : Color → List Command → Prop
  | _, [] => True
  | pen, command :: rest =>
      (∀ ch, command = .glyph ch → Representable ch pen) ∧
        CleanCommands (command.penAfter pen) rest

theorem step_color (tty : Tty) (command : Command) :
    (tty.step g command).color = command.penAfter tty.color := by
  cases command with
  | setColor color => rfl
  | newline =>
      simp only [Tty.step, Tty.newline, Command.penAfter]
      split <;> rfl
  | carriageReturn => rfl
  | backspace => rfl
  | glyph ch =>
      simp only [Tty.step, Tty.glyph, Tty.newline, Command.penAfter]
      split
      · split <;> rfl
      · rfl

theorem execCommand_agrees {c' : Console Display} {command : Command}
    (agrees : Agrees g c) (wellFormed : (c.ttys t).WellFormed g)
    (clean : c.currentScreen = some t →
      ∀ ch, command = .glyph ch → Representable ch (c.ttys t).color)
    (ran : execCommand (displayDriver g mems) t command c = some c') :
    Agrees g c' := by
  cases command with
  | setColor color =>
      rw [← Option.some.inj ran]
      exact agrees.modify rfl
  | newline =>
      exact newline_agrees agrees wellFormed.y_lt wellFormed.mem_length ran
  | carriageReturn =>
      rw [← Option.some.inj ran]
      exact agrees.modify rfl
  | backspace =>
      by_cases column : (c.ttys t).x = 0
      · simp [execCommand, printByte, column] at ran
        rw [← ran]
        exact agrees
      · simp [execCommand, printByte, column] at ran
        rw [← ran]
        exact agrees.modify rfl
  | glyph ch =>
      exact printGlyph_agrees agrees wellFormed
        (fun shown => clean shown ch rfl) ran

/-- A clean string keeps the display in agreement. -/
theorem runCommands_agrees (list : List Command) (agrees : Agrees g c)
    (wellFormed : (c.ttys t).WellFormed g)
    (clean : c.currentScreen = some t → CleanCommands (c.ttys t).color list) :
    ∀ c', runAll (execCommand (displayDriver g mems) t) list c = some c' →
      Agrees g c' := by
  induction list generalizing c with
  | nil =>
      intro c' ran
      rw [← Option.some.inj ran]
      exact agrees
  | cons command rest inductionHypothesis =>
      intro c' ran
      obtain ⟨middle, stepped, changed⟩ :=
        execCommand_effect (displayDriver g mems) command c wellFormed
      rw [runAll_cons, stepped, Option.bind_some] at ran
      refine inductionHypothesis ?_ ?_ ?_ c' ran
      · exact execCommand_agrees agrees wellFormed
          (fun shown => (clean shown).1) stepped
      · rw [changed.self]
        exact wellFormed.step command
      · intro shown
        rw [changed.self, step_color]
        rw [changed.currentScreen] at shown
        exact (clean shown).2

/-- An operation on the tty on the screen writes only characters a cell can
hold.  Nothing is asked of operations on hidden ttys. -/
def Operation.Clean : Operation → Console Display → Prop
  | .print t str, c =>
      c.currentScreen = some t → CleanCommands (c.ttys t).color (commands str)
  | .setChar t _ _ ch color, c =>
      c.currentScreen = some t → Representable ch color
  | .setString t _ _ _ str color, c =>
      c.currentScreen = some t →
        ∀ ch ∈ str.takeWhile (· ≠ 0), Representable ch color
  | _, _ => True

theorem print_agrees {c' : Console Display} {str : List (BitVec 8)}
    (agrees : Agrees g c) (wellFormed : (c.ttys t).WellFormed g)
    (clean : c.currentScreen = some t →
      CleanCommands (c.ttys t).color (commands str))
    (ran : (ttyPrint (displayDriver g mems) t str c).map Prod.snd = some c') :
    Agrees g c' := by
  obtain ⟨final, served, -⟩ :=
    runAll_execCommand_effect (displayDriver g mems) (commands str) wellFormed
  have painted := runCommands_agrees (commands str) agrees wellFormed clean final
    served
  have looped : printLoop (displayDriver g mems) t str 0 c =
      some (textLength str, final) := by
    rw [printLoop_eq_runAll, served, Option.map_some, Nat.zero_add]
  rw [ttyPrint, looped] at ran
  rw [← Option.some.inj ran]
  by_cases shown : final.currentScreen = some t
  · rw [if_pos shown]
    exact painted.updateCursorLocation
  · rw [if_neg shown]
    exact painted

theorem setStringLoop_agrees {xOffset yOffset width : Nat} {color : Color}
    (str : List (BitVec 8)) (i : Nat) (agrees : Agrees g c)
    (inRange : BoxInRange g xOffset yOffset width i (i + textLength str))
    (wellFormed : c.WellFormed g)
    (clean : c.currentScreen = some t →
      ∀ ch ∈ str.takeWhile (· ≠ 0), Representable ch color) :
    ∀ c', setStringLoop (displayDriver g mems) t xOffset yOffset width color i str
        c = some c' → Agrees g c' := by
  induction str generalizing i c with
  | nil =>
      intro c' ran
      rw [← Option.some.inj ran]
      exact agrees
  | cons ch rest inductionHypothesis =>
      intro c' ran
      by_cases ended : ch = 0
      · rw [setStringLoop, if_pos ended] at ran
        rw [← Option.some.inj ran]
        exact agrees
      · rw [textLength_cons ended] at inRange
        rcases inRange i (Nat.le_refl i) (by omega) with ⟨positive, hx, hy⟩
        have changed := afterSetChar_becomes (displayDriver g mems) t
          (xOffset + i % width) (yOffset + i / width) ch color c
        rw [setStringLoop_step (displayDriver g mems) ended rest color positive hx
          hy (wellFormed t).mem_length] at ran
        rw [List.takeWhile_cons_of_pos (by simpa using ended)] at clean
        refine inductionHypothesis (i + 1) ?_ ?_ ?_ ?_ c' ran
        · exact agrees.showChar hx hy (wellFormed t).mem_length
            fun shown => clean shown ch (List.mem_cons_self ..)
        · intro k lower upper
          exact inRange k (by omega) (by omega)
        · exact changed.wellFormed wellFormed ((wellFormed t).setChar _ _ ch color)
        · intro shown other member
          rw [changed.currentScreen] at shown
          exact clean shown other (List.mem_cons_of_mem ch member)

/-- A clean operation in range keeps the display in agreement. -/
theorem exec_agrees {op : Operation} (inRange : op.InRange g)
    (wellFormed : c.WellFormed g) (agrees : Agrees g c) (clean : op.Clean c) :
    ∃ c', op.exec (displayDriver g mems) c = some c' ∧ c'.WellFormed g ∧
      Agrees g c' := by
  obtain ⟨c', ran, kept⟩ :=
    exec_wellFormed (displayDriver g mems) op inRange wellFormed
  refine ⟨c', ran, kept, ?_⟩
  cases op with
  | print t str => exact print_agrees agrees (wellFormed t) clean ran
  | setChar t x y ch color =>
      have written := ttySetChar_eq (displayDriver g mems) t c ch color inRange.1
        inRange.2 (wellFormed t).mem_length
      rw [Operation.exec, written] at ran
      rw [← Option.some.inj ran]
      exact agrees.showChar inRange.1 inRange.2 (wellFormed t).mem_length clean
  | setString t xOffset yOffset width str color =>
      refine setStringLoop_agrees str 0 agrees ?_ wellFormed clean c' ran
      rw [Nat.zero_add]
      exact inRange
  | newline t =>
      exact newline_agrees agrees (wellFormed t).y_lt (wellFormed t).mem_length ran
  | scroll t =>
      have scrolled := ttyScroll_eq (displayDriver g mems) t c
        (wellFormed t).mem_length
      rw [Operation.exec, scrolled] at ran
      rw [← Option.some.inj ran]
      exact agrees.redraw _
  | fillColor t color =>
      have filled := ttyFillColor_eq (displayDriver g mems) t c color
        (wellFormed t).mem_length
      rw [Operation.exec, filled] at ran
      rw [← Option.some.inj ran]
      exact agrees.redraw _
  | clear t =>
      have filled := ttyFillColor_eq (displayDriver g mems) t c 0
        (wellFormed t).mem_length
      rw [Operation.exec, ttyClear, filled] at ran
      rw [← Option.some.inj ran]
      exact agrees.redraw _
  | switch t =>
      rw [← Option.some.inj ran]
      exact agrees.switch t
  | setCurrent t =>
      rw [← Option.some.inj ran]
      exact agrees
  | setColor color =>
      rw [← Option.some.inj ran]
      exact agrees.modify rfl

end Steps

/-! ## Runs -/

section Runs

variable (g : Geometry) (mems : TtyId → List Cell)

/-- The first `tty_switch` draws the default tty. -/
theorem initTty_agrees (threadTty : Option TtyId) (display : Display) :
    Agrees g (initTty (displayDriver g mems) threadTty display) := by
  apply switch_agrees
  rw [initLoop_currentScreen]
  simp

/-- Incremental painting agrees with rerendering.  In a run from `init_tty`
whose operations are clean where they are performed, after each operation the
display equals what a full rerender of the current screen would show. -/
theorem incremental_display_agrees
    (lengths : ∀ t, (mems t).length = g.width * g.height)
    (threadTty : Option TtyId) (display : Display) (ops : List Operation)
    (inRange : ∀ op ∈ ops, op.InRange g)
    (clean : RunMeets (Operation.exec (displayDriver g mems)) Operation.Clean ops
      (initTty (displayDriver g mems) threadTty display)) :
    ∀ before, before <+: ops →
      ∃ c, runAll (Operation.exec (displayDriver g mems)) before
          (initTty (displayDriver g mems) threadTty display) = some c ∧
        Agrees g c := by
  have gives : (displayDriver g mems).GivesMemory :=
    ⟨_, rfl, fun t _ _ => ⟨mems t, lengths t, rfl⟩⟩
  intro before isPrefix
  obtain ⟨c, ran, -, agrees⟩ := runAll_total_of_meets
    (fun c => c.WellFormed g ∧ Agrees g c)
    ⟨initTty_wellFormed (displayDriver g mems) gives threadTty display,
      initTty_agrees g mems threadTty display⟩
    clean
    (fun op member _ kept met =>
      exec_agrees (inRange op member) kept.1 kept.2 met)
    before isPrefix
  exact ⟨c, ran, agrees⟩

/-- Two strings printed around a switch of the screen. -/
theorem incremental_display_agrees_two_by_one :
    ∃ c, runAll (Operation.exec (displayDriver
          ⟨2, 1, by decide, by decide, by decide⟩ fun _ => [0, 0]))
        [.print 0 [0x41], .switch 1, .print 0 [0x41, 0x42]]
        (initTty (displayDriver ⟨2, 1, by decide, by decide, by decide⟩
          fun _ => [0, 0]) none fun _ _ => (0, 0)) = some c ∧
      Agrees ⟨2, 1, by decide, by decide, by decide⟩ c :=
  incremental_display_agrees ⟨2, 1, by decide, by decide, by decide⟩
    (fun _ => [0, 0]) (fun _ => rfl) none (fun _ _ => (0, 0))
    [.print 0 [0x41], .switch 1, .print 0 [0x41, 0x42]]
    (by simp [Operation.InRange])
    (by
      have ascii : ∀ pen, CleanCommands pen (commands [0x41]) :=
        fun pen => ⟨fun ch equal => Or.inl (by cases equal; decide), trivial⟩
      have both : ∀ pen, CleanCommands pen (commands [0x41, 0x42]) :=
        fun pen => ⟨fun ch equal => Or.inl (by cases equal; decide),
          fun ch equal => Or.inl (by cases equal; decide), trivial⟩
      exact ⟨fun _ => ascii _, fun _ _ => ⟨trivial, fun _ _ =>
        ⟨fun _ => both _, fun _ _ => trivial⟩⟩⟩)
    [.print 0 [0x41], .switch 1, .print 0 [0x41, 0x42]] List.prefix_rfl

/-- The character 0x80 printed on the screen in the default colour: the driver
is given colour 0x07, the memory holds colour 0xFF. -/
theorem extended_character_disagrees :
    ∃ c, runAll (Operation.exec (displayDriver
          ⟨2, 1, by decide, by decide, by decide⟩ fun _ => [0, 0]))
        [.print 0 [0x80]]
        (initTty (displayDriver ⟨2, 1, by decide, by decide, by decide⟩
          fun _ => [0, 0]) none fun _ _ => (0, 0)) = some c ∧
      ¬ Agrees ⟨2, 1, by decide, by decide, by decide⟩ c := by
  refine ⟨_, rfl, ?_⟩
  rintro ⟨s, screen, painted⟩
  obtain rfl : (0 : TtyId) = s := Option.some.inj screen
  have wrong := painted 0 (by decide) 0 (by decide)
  exact absurd wrong (by decide)

end Runs

end Os88.TextConsole
