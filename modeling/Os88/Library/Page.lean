/-
Module: Os88.Library.Page
Purpose: An unbounded page of lines, the last lines of which are seen through
  a window.  Writing a cell and lengthening the page are described by what the
  window shows afterwards.
Trusted boundary: none
Main exports: Page, Page.write, Page.reach, Page.window, Page.BlankBelow,
  Page.window_write, Page.window_reach_next
-/
import Mathlib.Logic.Function.Basic

/-- A page with `lines` lines so far; `cell line column` is what stands there. -/
structure Page (α : Type) where
  lines : Nat
  cell : Nat → Nat → α

namespace Page

variable {α : Type}

/-- Put `v` into one cell. -/
def write (p : Page α) (line column : Nat) (v : α) : Page α :=
  { p with cell :=
      Function.update p.cell line (Function.update (p.cell line) column v) }

/-- Make the page long enough to have the line. -/
def reach (p : Page α) (line : Nat) : Page α :=
  { p with lines := max p.lines (line + 1) }

/-- The cell at `row` and `column` of the last `height` lines. -/
def window (p : Page α) (height row column : Nat) : α :=
  p.cell (p.lines - height + row) column

/-- Lines the page does not have yet are blank. -/
def BlankBelow (blank : α) (p : Page α) : Prop :=
  ∀ line, p.lines ≤ line → ∀ column, p.cell line column = blank

variable {p : Page α} {height line : Nat} {blank : α}

@[simp] theorem lines_write (column : Nat) (v : α) :
    (p.write line column v).lines = p.lines := rfl

@[simp] theorem cell_reach : (p.reach line).cell = p.cell := rfl

theorem lines_reach_next : (p.reach p.lines).lines = p.lines + 1 :=
  Nat.max_eq_right (Nat.le_succ p.lines)

theorem reach_of_lt (present : line < p.lines) : p.reach line = p := by
  cases p
  simp only [reach, Nat.max_eq_left (Nat.succ_le_of_lt present)]

theorem cell_write (line column line' column' : Nat) (v : α) :
    (p.write line column v).cell line' column' =
      if line' = line ∧ column' = column then v else p.cell line' column' := by
  simp only [write]
  by_cases sameLine : line' = line
  · subst sameLine
    by_cases sameColumn : column' = column
    · subst sameColumn
      rw [Function.update_self, Function.update_self, if_pos ⟨rfl, rfl⟩]
    · rw [Function.update_self, Function.update_of_ne sameColumn,
        if_neg (fun both => sameColumn both.2)]
  · rw [Function.update_of_ne sameLine, if_neg (fun both => sameLine both.1)]

/-- Writing into a line of the window changes that cell of the window. -/
theorem window_write (row column row' column' : Nat) (v : α) :
    (p.write (p.lines - height + row) column v).window height row' column' =
      if row' = row ∧ column' = column then v
      else p.window height row' column' := by
  rw [window, lines_write, cell_write]
  by_cases same : row' = row ∧ column' = column
  · rw [if_pos ⟨by rw [same.1], same.2⟩, if_pos same]
  · rw [if_neg (fun both => same ⟨by omega, both.2⟩), if_neg same]
    rfl

theorem BlankBelow.write (below : p.BlankBelow blank) (present : line < p.lines)
    (column : Nat) (v : α) : (p.write line column v).BlankBelow blank := by
  intro other past column'
  rw [lines_write] at past
  rw [cell_write, if_neg (fun both => by omega)]
  exact below other past column'

theorem BlankBelow.reach (below : p.BlankBelow blank) (line : Nat) :
    (p.reach line).BlankBelow blank := by
  intro other past column
  exact below other (Nat.le_trans (Nat.le_max_left _ _) past) column

/-- One more line moves the window down by one: its rows move up and the row
that appears is blank. -/
theorem window_reach_next (below : p.BlankBelow blank)
    (long : height ≤ p.lines) {row : Nat} (inside : row < height) (column : Nat) :
    (p.reach p.lines).window height row column =
      if row + 1 < height then p.window height (row + 1) column else blank := by
  rw [window, lines_reach_next, cell_reach]
  by_cases shown : row + 1 < height
  · rw [if_pos shown, window,
      show p.lines + 1 - height + row = p.lines - height + (row + 1) by omega]
  · rw [if_neg shown, show p.lines + 1 - height + row = p.lines by omega]
    exact below p.lines (Nat.le_refl _) column

end Page
