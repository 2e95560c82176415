/-
Module: Os88.TextConsole.LineEnds
Purpose: The lines that a string ends when it is printed, counted without a
  screen, and the cursor of a tty as long as it is not scrolled.
Trusted boundary: none
Main exports: Place, lineEnds, Tty.At, Tty.At.steps,
  step_scrolls, exists_crossing
-/
import Os88.TextConsole.Effect

namespace Os88.TextConsole

/-- A position in a text without a lower edge. -/
structure Place where
  line : Nat
  column : Nat
deriving DecidableEq, Repr

/-- A command ends the line: a newline, or a character in the last column. -/
def Command.EndsLine (width column : Nat) : Command → Prop
  | .newline => True
  | .glyph _ => width ≤ column + 1
  | _ => False

instance (width column : Nat) : DecidablePred (Command.EndsLine width column)
  | .newline => isTrue trivial
  | .glyph _ => inferInstanceAs (Decidable (_ ≤ _))
  | .setColor _ => isFalse id
  | .carriageReturn => isFalse id
  | .backspace => isFalse id

/-- The column after a command that does not end the line. -/
def Command.columnAfter (column : Nat) : Command → Nat
  | .carriageReturn => 0
  | .backspace => column - 1
  | .glyph _ => column + 1
  | _ => column

namespace Place

def obey (width : Nat) (p : Place) (command : Command) : Place :=
  if command.EndsLine width p.column then ⟨p.line + 1, 0⟩
  else ⟨p.line, command.columnAfter p.column⟩

def obeyAll (width : Nat) (list : List Command) (p : Place) : Place :=
  list.foldl (obey width) p

section Lines

variable {width : Nat} {p : Place}

theorem line_le_obey (command : Command) : p.line ≤ (p.obey width command).line := by
  rw [obey]
  split
  · exact Nat.le_succ p.line
  · exact Nat.le_refl p.line

theorem line_le_obeyAll (list : List Command) :
    p.line ≤ (p.obeyAll width list).line := by
  induction list generalizing p with
  | nil => exact Nat.le_refl p.line
  | cons command rest inductionHypothesis =>
      exact (line_le_obey command).trans inductionHypothesis

/-- A text that reaches a line reaches it with one of its commands. -/
theorem exists_crossing {list : List Command} {edge : Nat} (before : p.line < edge)
    (reached : edge ≤ (p.obeyAll width list).line) :
    ∃ first command second, list = first ++ command :: second ∧
      (p.obeyAll width first).line < edge ∧
      edge ≤ ((p.obeyAll width first).obey width command).line := by
  induction list generalizing p with
  | nil => exact absurd reached (Nat.not_le.mpr before)
  | cons command rest inductionHypothesis =>
      by_cases crosses : edge ≤ (p.obey width command).line
      · exact ⟨[], command, rest, rfl, before, crosses⟩
      · obtain ⟨first, command', second, rfl, below, crosses'⟩ :=
          inductionHypothesis (Nat.not_le.mp crosses) reached
        exact ⟨command :: first, command', second, rfl, below, crosses'⟩

end Lines

end Place

/-- The number of lines that a string ends when it is printed from a column on. -/
def lineEnds (width column : Nat) (str : List (BitVec 8)) : Nat :=
  (Place.obeyAll width (commands str) ⟨0, column⟩).line

/-- Counting from another line on. -/
theorem lineEnds_add (width line column : Nat) (str : List (BitVec 8)) :
    (Place.obeyAll width (commands str) ⟨line, column⟩).line =
      line + lineEnds width column str := by
  have shifted : ∀ (list : List Command) (p : Place),
      (Place.obeyAll width list ⟨line + p.line, p.column⟩).line =
        line + (p.obeyAll width list).line := by
    intro list
    induction list with
    | nil => exact fun _ => rfl
    | cons command rest inductionHypothesis =>
        intro p
        have once : Place.obey width ⟨line + p.line, p.column⟩ command =
            ⟨line + (p.obey width command).line, (p.obey width command).column⟩ := by
          rw [Place.obey, Place.obey]
          split <;> rfl
        exact (congrArg (fun q => (Place.obeyAll width rest q).line) once).trans
          (inductionHypothesis (p.obey width command))
  exact shifted (commands str) ⟨0, column⟩

/-! ## The cursor of a tty -/

/-- The cursor stands at a place. -/
structure Tty.At (tty : Tty) (p : Place) : Prop where
  column : tty.x = p.column
  row : tty.y = p.line

section Cursor

variable {g : Geometry} {tty : Tty} {p : Place}

/-- The tty when a command ends its line, before the line feed. -/
def Tty.lineDone (g : Geometry) (tty : Tty) : Command → Tty
  | .glyph ch => tty.advanced g ch
  | _ => tty

theorem lineDone_y (command : Command) : (tty.lineDone g command).y = tty.y := by
  cases command <;> rfl

/-- A command that ends the line is a line feed, maybe behind a character. -/
theorem step_ends (here : tty.At p) {command : Command}
    (ends : command.EndsLine g.width p.column) :
    tty.step g command = (tty.lineDone g command).newline g := by
  cases command with
  | newline => rfl
  | glyph ch =>
      have wraps : g.width ≤ tty.x + 1 := by
        rw [here.column]
        exact ends
      rw [Tty.step, Tty.glyph, if_pos wraps]
      rfl
  | setColor color => exact absurd ends id
  | carriageReturn => exact absurd ends id
  | backspace => exact absurd ends id

/-- A character in front of the last column. -/
theorem step_glyph_stays (fits : ¬ g.width ≤ tty.x + 1) (ch : BitVec 8) :
    tty.step g (.glyph ch) = tty.advanced g ch := by
  rw [Tty.step, Tty.glyph, if_neg fits]

/-- A command that does not, moves in the line. -/
theorem step_stays (here : tty.At p) {command : Command}
    (stays : ¬ command.EndsLine g.width p.column) :
    (tty.step g command).At ⟨p.line, command.columnAfter p.column⟩ := by
  cases command with
  | newline => exact absurd trivial stays
  | glyph ch =>
      have fits : ¬ g.width ≤ tty.x + 1 := by
        rw [here.column]
        exact stays
      rw [step_glyph_stays fits]
      exact ⟨congrArg (· + 1) here.column, here.row⟩
  | setColor color => exact ⟨here.column, here.row⟩
  | carriageReturn => exact ⟨rfl, here.row⟩
  | backspace => exact ⟨congrArg (· - 1) here.column, here.row⟩

/-- As long as the lines are those of the screen, the cursor follows. -/
theorem Tty.At.step (here : tty.At p) {command : Command}
    (inside : (p.obey g.width command).line < g.height) :
    (tty.step g command).At (p.obey g.width command) := by
  rw [Place.obey] at inside ⊢
  by_cases ends : command.EndsLine g.width p.column
  · rw [if_pos ends] at inside ⊢
    rw [step_ends here ends, Tty.newline, lineDone_y, here.row,
      if_neg (Nat.not_le.mpr inside)]
    exact ⟨rfl, rfl⟩
  · rw [if_neg ends]
    exact step_stays here ends

theorem Tty.At.steps (here : tty.At p) {list : List Command}
    (inside : (p.obeyAll g.width list).line < g.height) :
    (list.foldl (Tty.step g) tty).At (p.obeyAll g.width list) := by
  induction list generalizing tty p with
  | nil => exact here
  | cons command rest inductionHypothesis =>
      have once : (p.obey g.width command).line < g.height :=
        Nat.lt_of_le_of_lt (Place.line_le_obeyAll rest) inside
      exact inductionHypothesis (here.step once) inside

/-- The command that leaves the last line scrolls. -/
theorem step_scrolls (here : tty.At p) (inside : p.line < g.height)
    {command : Command} (leaves : g.height ≤ (p.obey g.width command).line) :
    command.EndsLine g.width p.column ∧ tty.y + 1 = g.height := by
  rw [Place.obey] at leaves
  by_cases ends : command.EndsLine g.width p.column
  · rw [if_pos ends] at leaves
    have line : g.height ≤ p.line + 1 := leaves
    exact ⟨ends, by rw [here.row]; omega⟩
  · rw [if_neg ends] at leaves
    exact absurd inside (Nat.not_lt.mpr leaves)

end Cursor

end Os88.TextConsole
