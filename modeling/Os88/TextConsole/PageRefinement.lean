/-
Module: Os88.TextConsole.PageRefinement
Purpose: A reference terminal that writes on an unbounded page, and the proof
  that a tty shows the last lines of that page.
Trusted boundary: none
Main exports: Reference, Reference.print, ShowsWindow, ShowsWindow.step,
  ttyPrint_refines_page
-/
import Os88.Library.Page
import Os88.TextConsole.Operations

namespace Os88.TextConsole

open Execution Patch

/-- A terminal without a lower edge.  It never moves up. -/
structure Reference where
  page : Page Cell
  line : Nat
  column : Nat
  pen : Color

namespace Reference

/-- Column 0 of the next line, which the page has from now on. -/
def newline (r : Reference) : Reference :=
  { r with page := r.page.reach (r.line + 1), line := r.line + 1, column := 0 }

/-- Write one cell and advance, to the next line at the right edge. -/
def glyph (width : Nat) (ch : BitVec 8) (r : Reference) : Reference :=
  let advanced :=
    { r with page := r.page.write r.line r.column (cellValue ch r.pen)
             column := r.column + 1 }
  if width ≤ r.column + 1 then advanced.newline else advanced

def obey (width : Nat) (r : Reference) : Command → Reference
  | .setColor color => { r with pen := color }
  | .newline => r.newline
  | .carriageReturn => { r with column := 0 }
  | .backspace => { r with column := r.column - 1 }
  | .glyph ch => r.glyph width ch

def print (width : Nat) (str : List (BitVec 8)) (r : Reference) : Reference :=
  (commands str).foldl (obey width) r

/-- The page whose only lines are those of the tty. -/
def ofTty (g : Geometry) (tty : Tty) : Reference :=
  { page :=
      { lines := g.height
        cell := fun line column =>
          if line < g.height ∧ column < g.width then
            tty.mem.getD (column + line * g.width) 0
          else 0 }
    line := tty.y
    column := tty.x
    pen := tty.color }

end Reference

/-- The tty shows the last `height` lines of the reference page, and its cursor
and colour are those of the reference terminal relative to that window. -/
structure ShowsWindow (g : Geometry) (tty : Tty) (r : Reference) : Prop where
  y_lt : tty.y < g.height
  mem_length : tty.mem.length = g.cells
  long : g.height ≤ r.page.lines
  line : r.line = r.page.lines - g.height + tty.y
  column : tty.x = r.column
  pen : tty.color = r.pen
  below : r.page.BlankBelow 0
  cells : ∀ row < g.height, ∀ column < g.width,
    tty.mem[column + row * g.width]? = some (r.page.window g.height row column)

/-- With an even width the pairs of cells that `tty_scroll` moves make up whole
rows. -/
theorem getElem?_scrollMem {g : Geometry} (even : g.width % 2 = 0)
    {mem : List Cell} (length : mem.length = g.cells) {k : Nat}
    (inside : k < g.cells) :
    (scrollMem g mem)[k]? =
      if k + g.width < g.cells then mem[k + g.width]? else some 0 := by
  have upper := g.upper_cells
  have halves : 2 * (g.width / 2) = g.width := by omega
  have evenPart : g.width * (g.height - 1) % 2 = 0 := by
    rw [Nat.mul_mod, even, Nat.zero_mul, Nat.zero_mod]
  have part : 2 * (g.width * (g.height - 1) / 2) = g.width * (g.height - 1) := by
    omega
  have whole : 2 * (g.cells / 2) = g.cells := by omega
  rw [scrollMem, halves, part, whole]
  by_cases moved : k + g.width < g.cells
  · rw [if_pos moved, getElem?_patch_outside _ _ (by omega),
      getElem?_patch_inside _ (Nat.zero_le k) (by omega) (by omega),
      List.getD_eq_getElem mem 0 (by omega), List.getElem?_eq_getElem (by omega)]
  · rw [if_neg moved, getElem?_patch_inside _ (by omega) (by omega)
      (by rw [length_patch]; omega)]

namespace ShowsWindow

variable {g : Geometry} {tty : Tty} {r : Reference}

theorem ofTty (g : Geometry) (tty : Tty) (wellFormed : tty.WellFormed g) :
    ShowsWindow g tty (Reference.ofTty g tty) where
  y_lt := wellFormed.y_lt
  mem_length := wellFormed.mem_length
  long := Nat.le_refl _
  line := by simp [Reference.ofTty]
  column := rfl
  pen := rfl
  below := by
    intro line past column
    simp only [Reference.ofTty] at past ⊢
    rw [if_neg (by omega)]
  cells := by
    intro row rowInside column columnInside
    have inside : column + row * g.width < tty.mem.length := by
      rw [wellFormed.mem_length]
      exact g.index_lt columnInside rowInside
    simp only [Reference.ofTty, Page.window, Nat.sub_self, Nat.zero_add]
    rw [if_pos ⟨rowInside, columnInside⟩, List.getD_eq_getElem tty.mem 0 inside,
      List.getElem?_eq_getElem inside]

theorem setColumn (seen : ShowsWindow g tty r) (column : Nat) :
    ShowsWindow g { tty with x := column } { r with column := column } :=
  ⟨seen.y_lt, seen.mem_length, seen.long, seen.line, rfl, seen.pen, seen.below,
    seen.cells⟩

theorem setColor (seen : ShowsWindow g tty r) (color : Color) :
    ShowsWindow g { tty with color := color } { r with pen := color } :=
  ⟨seen.y_lt, seen.mem_length, seen.long, seen.line, seen.column, rfl, seen.below,
    seen.cells⟩

/-- Scrolling shows one more line of the page. -/
theorem cells_scroll (seen : ShowsWindow g tty r) (even : g.width % 2 = 0)
    {row column : Nat} (rowInside : row < g.height)
    (columnInside : column < g.width) :
    (scrollMem g tty.mem)[column + row * g.width]? =
      some ((r.page.reach r.page.lines).window g.height row column) := by
  have inside := g.index_lt columnInside rowInside
  have nextRow : column + row * g.width + g.width =
      column + (row + 1) * g.width := by
    rw [Nat.add_mul, Nat.one_mul, Nat.add_assoc]
  rw [getElem?_scrollMem even seen.mem_length inside, nextRow,
    Page.window_reach_next seen.below seen.long rowInside]
  by_cases shown : row + 1 < g.height
  · rw [if_pos shown, if_pos (g.index_lt columnInside shown)]
    exact seen.cells (row + 1) shown column columnInside
  · have last : g.cells ≤ column + (row + 1) * g.width := by
      rw [show row + 1 = g.height by omega, Nat.mul_comm g.height, g.cells_eq]
      exact Nat.le_add_left _ _
    rw [if_neg shown, if_neg (by omega)]

theorem newline (seen : ShowsWindow g tty r) (even : g.width % 2 = 0) :
    ShowsWindow g (tty.newline g) r.newline := by
  have row := seen.y_lt
  have long := seen.long
  have line := seen.line
  unfold Tty.newline
  by_cases last : g.height ≤ tty.y + 1
  · -- The cursor was on the last line of the page, which gets one more.
    have bottom : r.line + 1 = r.page.lines := by omega
    have lines : (r.page.reach r.page.lines).lines = r.page.lines + 1 :=
      Page.lines_reach_next
    rw [if_pos last]
    refine ⟨?_, ?_, ?_, ?_, rfl, seen.pen, seen.below.reach _, ?_⟩
    · show g.height - 1 < g.height
      have := g.height_pos
      omega
    · simp [seen.mem_length]
    · simp only [Reference.newline, bottom, lines]
      omega
    · simp only [Reference.newline, bottom, lines]
      omega
    · intro row rowInside column columnInside
      simp only [Reference.newline, bottom]
      exact seen.cells_scroll even rowInside columnInside
  · have present : r.page.reach (r.line + 1) = r.page :=
      Page.reach_of_lt (by omega)
    rw [if_neg last]
    refine ⟨?_, seen.mem_length, ?_, ?_, rfl, seen.pen, ?_, ?_⟩
    · show tty.y + 1 < g.height
      omega
    · simp only [Reference.newline, present]
      exact long
    · simp only [Reference.newline, present]
      omega
    · simp only [Reference.newline, present]
      exact seen.below
    · simp only [Reference.newline, present]
      exact seen.cells

/-- Writing at the cursor changes the same cell of the window. -/
theorem write (seen : ShowsWindow g tty r) (inside : tty.x < g.width)
    (ch : BitVec 8) :
    ShowsWindow g (tty.setChar g tty.x tty.y ch tty.color)
      { r with page := r.page.write r.line r.column (cellValue ch r.pen) } := by
  have row := seen.y_lt
  have long := seen.long
  have line := seen.line
  refine ⟨seen.y_lt, ?_, seen.long, seen.line, seen.column, seen.pen, ?_, ?_⟩
  · simp [Tty.setChar, seen.mem_length]
  · exact seen.below.write (by omega) _ _
  · intro row' rowInside column' columnInside
    have index := g.index_lt inside seen.y_lt
    simp only [Tty.setChar]
    rw [List.getElem?_set, line, Page.window_write, ← seen.column, ← seen.pen]
    by_cases same : row' = tty.y ∧ column' = tty.x
    · rw [same.1, same.2, if_pos rfl, if_pos (by rwa [seen.mem_length]),
        if_pos ⟨rfl, rfl⟩]
    · have apart : tty.x + tty.y * g.width ≠ column' + row' * g.width := by
        intro equal
        rcases g.index_inj inside columnInside equal with ⟨columns, rows⟩
        exact same ⟨rows.symm, columns.symm⟩
      rw [if_neg apart, if_neg same]
      exact seen.cells row' rowInside column' columnInside

theorem glyph (seen : ShowsWindow g tty r) (even : g.width % 2 = 0)
    (inside : tty.x < g.width) (ch : BitVec 8) :
    ShowsWindow g (tty.glyph g ch) (r.glyph g.width ch) := by
  have advanced := (seen.write inside ch).setColumn (tty.x + 1)
  unfold Tty.glyph Tty.advanced Reference.glyph
  rw [seen.column] at advanced ⊢
  by_cases wraps : g.width ≤ r.column + 1
  · rw [if_pos wraps, if_pos wraps]
    exact advanced.newline even
  · rw [if_neg wraps, if_neg wraps]
    exact advanced

/-- One command keeps the tty a window on the reference page. -/
theorem step (seen : ShowsWindow g tty r) (even : g.width % 2 = 0)
    (inside : tty.x < g.width) (command : Command) :
    ShowsWindow g (tty.step g command) (r.obey g.width command) := by
  cases command with
  | setColor color => exact seen.setColor color
  | newline => exact seen.newline even
  | carriageReturn => exact seen.setColumn 0
  | backspace =>
      have moved := seen.setColumn (tty.x - 1)
      rw [seen.column] at moved
      unfold Tty.step Reference.obey
      rw [seen.column]
      exact moved
  | glyph ch => exact seen.glyph even inside ch

/-- A whole string does. -/
theorem print (seen : ShowsWindow g tty r) (even : g.width % 2 = 0)
    (wellFormed : tty.WellFormed g) (str : List (BitVec 8)) :
    ShowsWindow g (tty.print g str) (r.print g.width str) := by
  unfold Tty.print Reference.print
  induction commands str generalizing tty r with
  | nil => exact seen
  | cons command rest inductionHypothesis =>
      exact inductionHypothesis (seen.step even wellFormed.x_lt command)
        (wellFormed.step command)

end ShowsWindow

/-- `tty_print` refines the unbounded page: on every tty with its cursor on the
screen and every string, it meets no fault and leaves the last `height` lines
of the page the reference terminal writes, starting from the lines of the tty. -/
theorem ttyPrint_refines_page {δ : Type} (drv : TtyDriver δ) (t : TtyId)
    (c : Console δ) (str : List (BitVec 8)) (even : drv.geometry.width % 2 = 0)
    (wellFormed : (c.ttys t).WellFormed drv.geometry) :
    ∃ n c', ttyPrint drv t str c = some (n, c') ∧
      ShowsWindow drv.geometry (c'.ttys t)
        ((Reference.ofTty drv.geometry (c.ttys t)).print drv.geometry.width str) := by
  rcases ttyPrint_effect drv str wellFormed with ⟨final, ran, changed⟩
  refine ⟨_, final, ran, ?_⟩
  rw [changed.self]
  exact (ShowsWindow.ofTty drv.geometry (c.ttys t) wellFormed).print even wellFormed
    str

/-- A string that wraps, scrolls, moves back and changes the colour. -/
theorem ttyPrint_refines_page_two_by_two :
    ∃ n c', ttyPrint (plainDriver ⟨2, 2, by decide, by decide, by decide⟩) 0
        [0x61, 0x62, 0x63, 0x0A, 0x08, 0x01, 0x04, 0x80]
        (initTty (plainDriver ⟨2, 2, by decide, by decide, by decide⟩) none ()) =
          some (n, c') ∧
      ShowsWindow ⟨2, 2, by decide, by decide, by decide⟩ (c'.ttys 0)
        ((Reference.ofTty ⟨2, 2, by decide, by decide, by decide⟩
          ((initTty (plainDriver ⟨2, 2, by decide, by decide, by decide⟩) none
            ()).ttys 0)).print 2
          [0x61, 0x62, 0x63, 0x0A, 0x08, 0x01, 0x04, 0x80]) :=
  ttyPrint_refines_page (plainDriver ⟨2, 2, by decide, by decide, by decide⟩) 0 _ _
    (by decide)
    (initTty_wellFormed (plainDriver ⟨2, 2, by decide, by decide, by decide⟩)
      (plainDriver_givesMemory _) none () 0)

end Os88.TextConsole
