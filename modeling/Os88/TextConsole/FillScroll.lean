/-
Module: Os88.TextConsole.FillScroll
Purpose: `tty_fill_color` and `tty_scroll` cell by cell, on screens of any width
  and height: which memories come out as they should.
Trusted boundary: none
Main exports: Filled, MovedUp, FillReaches, ScrollAligned,
  fill_scroll_right_iff, even_width_iff
-/
import Os88.TextConsole.Operations

namespace Os88.TextConsole

open Patch

variable {δ : Type}

/-! ## What the two functions are for -/

/-- Every cell is a space in the colour. -/
def Filled (g : Geometry) (color : Color) (mem : List Cell) : Prop :=
  ∀ x < g.width, ∀ y < g.height, mem[x + y * g.width]? = some (color ++ 0x20#8)

/-- Every row has the cells of the row below it, and the last row is zero. -/
structure MovedUp (g : Geometry) (before after : List Cell) : Prop where
  rows : ∀ x < g.width, ∀ y < g.height - 1,
    after[x + y * g.width]? = before[x + (y + 1) * g.width]?
  last : ∀ x < g.width, after[x + (g.height - 1) * g.width]? = some 0

/-! ## Cells as a list -/

section Cells

variable {g : Geometry} {mem mem' : List Cell} {color : Color}

/-- Column and row of a cell. -/
theorem cell_position (k : Nat) (inside : k < g.cells) :
    k % g.width < g.width ∧ k / g.width < g.height ∧
      k % g.width + k / g.width * g.width = k := by
  refine ⟨Nat.mod_lt k g.width_pos, ?_, ?_⟩
  · rw [Nat.div_lt_iff_lt_mul g.width_pos, Nat.mul_comm]
    exact inside
  · rw [Nat.mul_comm, Nat.mod_add_div]

theorem filled_iff (mem : List Cell) :
    Filled g color mem ↔ ∀ k < g.cells, mem[k]? = some (color ++ 0x20#8) := by
  constructor
  · intro filled k inside
    rcases cell_position k inside with ⟨column, row, position⟩
    rw [← position]
    exact filled _ column _ row
  · intro filled x column y row
    exact filled _ (g.index_lt column row)

theorem movedUp_iff (before after : List Cell) :
    MovedUp g before after ↔
      (∀ k < g.width * (g.height - 1), after[k]? = before[k + g.width]?) ∧
        ∀ k, g.width * (g.height - 1) ≤ k → k < g.cells → after[k]? = some 0 := by
  have upper := g.upper_cells
  have positive := g.height_pos
  constructor
  · intro moved
    constructor
    · intro k inside
      rcases cell_position k (g := g) (by omega) with ⟨column, -, position⟩
      have row : k / g.width < g.height - 1 := by
        rw [Nat.div_lt_iff_lt_mul g.width_pos, Nat.mul_comm]
        exact inside
      have step := moved.rows _ column _ row
      rwa [Nat.add_mul, Nat.one_mul, ← Nat.add_assoc, position] at step
    · intro k lower inside
      have step := moved.last (k - g.width * (g.height - 1)) (by omega)
      rwa [Nat.mul_comm (g.height - 1), Nat.sub_add_cancel lower] at step
  · rintro ⟨rows, last⟩
    constructor
    · intro x column y row
      have inside : x + y * g.width < g.width * (g.height - 1) := by
        have whole : (y + 1) * g.width ≤ (g.height - 1) * g.width :=
          Nat.mul_le_mul_right g.width row
        rw [Nat.add_mul, Nat.one_mul, Nat.mul_comm (g.height - 1)] at whole
        omega
      rw [rows _ inside, Nat.add_mul, Nat.one_mul, Nat.add_assoc]
    · intro x column
      apply last
      · rw [Nat.mul_comm (g.height - 1)]
        exact Nat.le_add_left _ _
      · rw [Nat.mul_comm (g.height - 1)]
        omega

/-! ## Filling -/

/-- All cells come in pairs, or the one that is left over has its value
already. -/
def FillReaches (g : Geometry) (color : Color) (mem : List Cell) : Prop :=
  g.cells % 2 = 0 ∨ mem[g.cells - 1]? = some (color ++ 0x20#8)

theorem fillMem_filled_iff (length : mem.length = g.cells) :
    Filled g color (fillMem g color mem) ↔ FillReaches g color mem := by
  have positive := g.width_le_cells
  have wide := g.width_pos
  rw [filled_iff]
  have pairs : ∀ k < 2 * (g.cells / 2), (fillMem g color mem)[k]? =
      some (color ++ 0x20#8) :=
    fun k inside => getElem?_patch_inside _ (Nat.zero_le k) inside (by omega)
  constructor
  · intro filled
    by_cases even : g.cells % 2 = 0
    · exact Or.inl even
    · have last := filled (g.cells - 1) (by omega)
      rw [fillMem, getElem?_patch_outside _ _ (by omega)] at last
      exact Or.inr last
  · rintro (even | last) k inside
    · exact pairs k (by omega)
    · by_cases paired : k < 2 * (g.cells / 2)
      · exact pairs k paired
      · obtain rfl : k = g.cells - 1 := by omega
        rw [fillMem, getElem?_patch_outside _ _ (by omega)]
        exact last

/-! ## Scrolling -/

/-- Rows are whole pairs; or the last cell is zero already, and the cells that
are moved by one cell less than a row are equal to their neighbours: those from
the last one of the first row on. -/
def ScrollAligned (g : Geometry) (mem : List Cell) : Prop :=
  g.width % 2 = 0 ∨
    mem[g.cells - 1]? = some 0 ∧
      ∀ k < 2 * (g.width * (g.height - 1) / 2),
        mem[g.width - 1 + k]? = mem[g.width + k]?

/-- The cells that are copied, and those that are zeroed. -/
theorem getElem?_scrollMem_copied (length : mem.length = g.cells) {k : Nat}
    (copied : k < 2 * (g.width * (g.height - 1) / 2)) :
    (scrollMem g mem)[k]? = mem[k + 2 * (g.width / 2)]? := by
  have upper := g.upper_cells
  rw [scrollMem, getElem?_patch_outside _ _ (by omega),
    getElem?_patch_inside _ (Nat.zero_le k) copied (by omega),
    List.getD_eq_getElem mem 0 (by omega), List.getElem?_eq_getElem (by omega)]

theorem getElem?_scrollMem_zeroed (length : mem.length = g.cells) {k : Nat}
    (behind : 2 * (g.width * (g.height - 1) / 2) ≤ k) (paired : k < 2 * (g.cells / 2)) :
    (scrollMem g mem)[k]? = some 0 := by
  rw [scrollMem, getElem?_patch_inside _ behind paired (by rw [length_patch]; omega)]

/-- With an odd number of cells the last one stays. -/
theorem getElem?_scrollMem_left {k : Nat}
    (behind : 2 * (g.width * (g.height - 1) / 2) ≤ k) (single : 2 * (g.cells / 2) ≤ k) :
    (scrollMem g mem)[k]? = mem[k]? := by
  rw [scrollMem, getElem?_patch_outside _ _ (by omega),
    getElem?_patch_outside _ _ (by omega)]

/-- Pairs of cells make up whole rows when the width is even. -/
theorem even_rows (even : g.width % 2 = 0) :
    2 * (g.width / 2) = g.width ∧
      2 * (g.width * (g.height - 1) / 2) = g.width * (g.height - 1) ∧
      2 * (g.cells / 2) = g.cells := by
  have upper := g.upper_cells
  have part : g.width * (g.height - 1) % 2 = 0 := by
    rw [Nat.mul_mod, even, Nat.zero_mul, Nat.zero_mod]
  omega

/-- With an odd width one of the two areas has a cell that is left over: the
rows that are copied, or the whole screen. -/
theorem odd_rows (odd : g.width % 2 ≠ 0) :
    2 * (g.width / 2) = g.width - 1 ∧
      (2 * (g.width * (g.height - 1) / 2) + 1 = g.width * (g.height - 1) ∧
          2 * (g.cells / 2) = g.cells ∨
        2 * (g.width * (g.height - 1) / 2) = g.width * (g.height - 1) ∧
          2 * (g.cells / 2) + 1 = g.cells) := by
  have upper := g.upper_cells
  omega

theorem scrollMem_movedUp_of_even (length : mem.length = g.cells)
    (even : g.width % 2 = 0) : MovedUp g mem (scrollMem g mem) := by
  rcases even_rows even with ⟨halves, part, whole⟩
  have upper := g.upper_cells
  rw [movedUp_iff]
  constructor
  · intro k inside
    rw [getElem?_scrollMem_copied length (by omega), halves]
  · intro k lower inside
    exact getElem?_scrollMem_zeroed length (by omega) (by omega)

/-- On an odd width the cells are copied from one place too early. -/
theorem getElem?_scrollMem_shifted (length : mem.length = g.cells)
    (odd : g.width % 2 ≠ 0) {k : Nat}
    (copied : k < 2 * (g.width * (g.height - 1) / 2)) :
    (scrollMem g mem)[k]? = mem[g.width - 1 + k]? := by
  have halves : 2 * (g.width / 2) = g.width - 1 := (odd_rows odd).1
  rw [getElem?_scrollMem_copied length copied, halves, Nat.add_comm]

theorem scrollMem_movedUp_of_odd (length : mem.length = g.cells)
    (odd : g.width % 2 ≠ 0) :
    MovedUp g mem (scrollMem g mem) ↔ ScrollAligned g mem := by
  have upper := g.upper_cells
  have wide := g.width_pos
  rcases odd_rows odd with ⟨-, left⟩
  rw [movedUp_iff]
  constructor
  · rintro ⟨rows, last⟩
    refine Or.inr ⟨?_, ?_⟩
    · rcases left with ⟨part, whole⟩ | ⟨part, whole⟩
      · -- The last of the upper rows is zeroed with the row below it.
        have row := rows (g.width * (g.height - 1) - 1) (by omega)
        rw [getElem?_scrollMem_zeroed length (by omega) (by omega)] at row
        rw [row]
        congr 1
        omega
      · have kept : (scrollMem g mem)[g.cells - 1]? = mem[g.cells - 1]? :=
          getElem?_scrollMem_left (by omega) (by omega)
        rw [← kept]
        exact last _ (by omega) (by omega)
    · intro k inside
      rw [← getElem?_scrollMem_shifted length odd inside, rows k (by omega),
        Nat.add_comm]
  · rintro (even | ⟨last, equal⟩)
    · exact absurd even odd
    · constructor
      · intro k inside
        by_cases copied : k < 2 * (g.width * (g.height - 1) / 2)
        · rw [getElem?_scrollMem_shifted length odd copied, equal k copied, Nat.add_comm]
        · have next : k + g.width = g.cells - 1 := by omega
          rw [getElem?_scrollMem_zeroed length (by omega) (by omega), next, last]
      · intro k lower inside
        by_cases paired : k < 2 * (g.cells / 2)
        · exact getElem?_scrollMem_zeroed length (by omega) paired
        · obtain rfl : k = g.cells - 1 := by omega
          rw [getElem?_scrollMem_left (by omega) (by omega), last]

theorem scrollMem_movedUp_iff (length : mem.length = g.cells) :
    MovedUp g mem (scrollMem g mem) ↔ ScrollAligned g mem := by
  by_cases even : g.width % 2 = 0
  · exact iff_of_true (scrollMem_movedUp_of_even length even) (Or.inl even)
  · exact scrollMem_movedUp_of_odd length even

end Cells

/-! ## The functions -/

section Functions

variable (drv : TtyDriver δ) (t : TtyId) (color : Color) (c : Console δ)

/-- `tty_fill_color` comes back and has filled the tty. -/
def FillRight : Prop :=
  ∃ c', ttyFillColor drv t color c = some c' ∧
    Filled drv.geometry color (c'.ttys t).mem

/-- `tty_scroll` comes back and has moved the rows of the tty up. -/
def ScrollRight : Prop :=
  ∃ c', ttyScroll drv t c = some c' ∧
    MovedUp drv.geometry (c.ttys t).mem (c'.ttys t).mem

variable {c}

theorem fillRight_iff (length : (c.ttys t).mem.length = drv.geometry.cells) :
    FillRight drv t color c ↔ FillReaches drv.geometry color (c.ttys t).mem := by
  have run := ttyFillColor_eq drv t c color length
  have cells : ((ttyRedraw drv t (c.modify t (Tty.fillColor drv.geometry color))).ttys
      t).mem = fillMem drv.geometry color (c.ttys t).mem :=
    congrArg Tty.mem ((Console.Becomes.modify t c _).redraw t).self
  rw [← fillMem_filled_iff length, ← cells]
  constructor
  · rintro ⟨c', ran, filled⟩
    obtain rfl := Option.some.inj (run.symm.trans ran)
    exact filled
  · intro filled
    exact ⟨_, run, filled⟩

theorem scrollRight_iff (length : (c.ttys t).mem.length = drv.geometry.cells) :
    ScrollRight drv t c ↔ ScrollAligned drv.geometry (c.ttys t).mem := by
  have run := ttyScroll_eq drv t c length
  have cells : ((ttyRedraw drv t (c.modify t (Tty.scroll drv.geometry))).ttys t).mem =
      scrollMem drv.geometry (c.ttys t).mem :=
    congrArg Tty.mem ((Console.Becomes.modify t c _).redraw t).self
  rw [← scrollMem_movedUp_iff length, ← cells]
  constructor
  · rintro ⟨c', ran, moved⟩
    obtain rfl := Option.some.inj (run.symm.trans ran)
    exact moved
  · intro moved
    exact ⟨_, run, moved⟩

/-- Both functions do what they are for on exactly the memories of `FillReaches`
and `ScrollAligned`. -/
theorem fill_scroll_right_iff
    (length : (c.ttys t).mem.length = drv.geometry.cells) :
    FillRight drv t color c ∧ ScrollRight drv t c ↔
      FillReaches drv.geometry color (c.ttys t).mem ∧
        ScrollAligned drv.geometry (c.ttys t).mem :=
  and_congr (fillRight_iff drv t color length) (scrollRight_iff drv t length)

end Functions

/-- Among the geometries it is the even widths on which both functions are right
for all memories. -/
theorem even_width_iff (g : Geometry) :
    (∀ color mem, mem.length = g.cells →
      FillReaches g color mem ∧ ScrollAligned g mem) ↔ g.width % 2 = 0 := by
  constructor
  · intro right
    -- No cell of this memory is zero.
    rcases right 0 (List.replicate g.cells 1) List.length_replicate with ⟨-, aligned⟩
    have positive := g.width_le_cells
    have wide := g.width_pos
    rcases aligned with even | ⟨last, -⟩
    · exact even
    · rw [List.getElem?_replicate_of_lt (by omega)] at last
      exact absurd last (by decide)
  · intro even color mem _
    refine ⟨Or.inl ?_, Or.inl even⟩
    rw [Geometry.cells, Nat.mul_mod, even, Nat.zero_mul, Nat.zero_mod]

theorem fill_scroll_right_iff_text_mode :
    FillRight (plainDriver ⟨80, 25, by decide, by decide, by decide⟩) 0
          TTY_COLOR_DEFAULT
          (initTty (plainDriver ⟨80, 25, by decide, by decide, by decide⟩) none ()) ∧
        ScrollRight (plainDriver ⟨80, 25, by decide, by decide, by decide⟩) 0
          (initTty (plainDriver ⟨80, 25, by decide, by decide, by decide⟩) none ()) ↔
      FillReaches ⟨80, 25, by decide, by decide, by decide⟩ TTY_COLOR_DEFAULT
          ((initTty (plainDriver ⟨80, 25, by decide, by decide, by decide⟩) none ()).ttys
            0).mem ∧
        ScrollAligned ⟨80, 25, by decide, by decide, by decide⟩
          ((initTty (plainDriver ⟨80, 25, by decide, by decide, by decide⟩) none ()).ttys
            0).mem :=
  fill_scroll_right_iff (plainDriver ⟨80, 25, by decide, by decide, by decide⟩) 0
    TTY_COLOR_DEFAULT
    (initTty_wellFormed (plainDriver ⟨80, 25, by decide, by decide, by decide⟩)
      (plainDriver_givesMemory _) none () 0).mem_length

/-- On a screen of 175 x 65 characters the last of the 11375 cells keeps its old
value. -/
theorem odd_screen_not_filled :
    ∃ c : Console Unit,
      (c.ttys 0).mem.length = (Geometry.mk 175 65 (by decide) (by decide) (by decide)).cells ∧
        ¬ (FillRight (plainDriver ⟨175, 65, by decide, by decide, by decide⟩) 0
              TTY_COLOR_DEFAULT c ∧
            ScrollRight (plainDriver ⟨175, 65, by decide, by decide, by decide⟩) 0 c) := by
  refine ⟨
    { ttys := fun _ => { lock := false, x := 0, y := 0, color := 0
                         mem := List.replicate 11375 0 }
      currentScreen := some 0
      currentTty := none
      threadTty := none
      device := () }, List.length_replicate, ?_⟩
  rintro ⟨filled, -⟩
  rw [fillRight_iff _ _ _ List.length_replicate] at filled
  rcases filled with even | last
  · exact absurd even (by decide)
  · rw [List.getElem?_replicate_of_lt (by decide)] at last
    exact absurd last (by decide)

end Os88.TextConsole
