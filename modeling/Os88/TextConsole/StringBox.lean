/-
Module: Os88.TextConsole.StringBox
Purpose: `tty_set_string` fills its box and nothing else.
Trusted boundary: none
Main exports: boxAddress, BoxFits, boxAddress_inj, setString_frame, setString_cell,
  ttySetString_fills_box
-/
import Os88.TextConsole.Isolation

namespace Os88.TextConsole

open Execution

variable {δ : Type}

/-- Where the cell for index `k` of the string lies in the memory. -/
def boxAddress (g : Geometry) (xOffset yOffset width k : Nat) : Nat :=
  xOffset + k % width + (yOffset + k / width) * g.width

/-- The box for a string of length `n` is on the screen: `width` columns and
`n / width` rows, rounded up. -/
structure BoxFits (g : Geometry) (xOffset yOffset width n : Nat) : Prop where
  width_pos : 0 < width
  right : xOffset + width ≤ g.width
  bottom : yOffset + (n + width - 1) / width ≤ g.height

section Box

variable {g : Geometry} {xOffset yOffset width n : Nat}

/-- The row of an index is one of the rows of the box. -/
theorem BoxFits.cell (fits : BoxFits g xOffset yOffset width n) {k : Nat} (inside : k < n) :
    xOffset + k % width < g.width ∧ yOffset + k / width < g.height := by
  have column := Nat.mod_lt k fits.width_pos
  have rowsAbove : k / width + 1 ≤ (n + width - 1) / width := by
    rw [← Nat.add_div_right k fits.width_pos]
    apply Nat.div_le_div_right
    omega
  have right := fits.right
  have bottom := fits.bottom
  constructor
  · omega
  · omega

/-- The box as the range of the loop of `tty_set_string`. -/
theorem BoxFits.inRange (fits : BoxFits g xOffset yOffset width n) :
    BoxInRange g xOffset yOffset width 0 n :=
  fun _ _ inside => ⟨fits.width_pos, fits.cell inside⟩

theorem BoxFits.address_lt (fits : BoxFits g xOffset yOffset width n) {k : Nat}
    (inside : k < n) : boxAddress g xOffset yOffset width k < g.cells := by
  rcases fits.cell inside with ⟨column, row⟩
  exact g.index_lt column row

/-- Quotient and remainder give the index back, and the address gives both. -/
theorem boxAddress_inj (fits : BoxFits g xOffset yOffset width n) {k l : Nat}
    (inside : k < n) (inside' : l < n)
    (same : boxAddress g xOffset yOffset width k = boxAddress g xOffset yOffset width l) :
    k = l := by
  rcases fits.cell inside with ⟨column, -⟩
  rcases fits.cell inside' with ⟨column', -⟩
  rcases g.index_inj column column' same with ⟨columns, rows⟩
  calc k = width * (k / width) + k % width := (Nat.div_add_mod k width).symm
    _ = width * (l / width) + l % width := by
      rw [show k / width = l / width by omega, show k % width = l % width by omega]
    _ = l := Nat.div_add_mod l width

end Box

/-! ## The memory after the loop -/

section Loop

variable (g : Geometry) (xOffset yOffset width : Nat) (color : Color)

/-- The loop touches the memory only. -/
theorem setString_rest (i : Nat) (str : List (BitVec 8)) (tty : Tty) :
    tty.setString g xOffset yOffset width color i str =
      { tty with mem := (tty.setString g xOffset yOffset width color i str).mem } := by
  induction str generalizing i tty with
  | nil => rfl
  | cons ch rest inductionHypothesis =>
      rw [Tty.setString]
      split
      · rfl
      · exact inductionHypothesis (i + 1) _

/-- Cells that no index of the string names keep their value. -/
theorem setString_frame (i : Nat) (str : List (BitVec 8)) (tty : Tty) {j : Nat}
    (outside : ∀ k < textLength str, j ≠ boxAddress g xOffset yOffset width (i + k)) :
    (tty.setString g xOffset yOffset width color i str).mem[j]? = tty.mem[j]? := by
  induction str generalizing i tty with
  | nil => rfl
  | cons ch rest inductionHypothesis =>
      rw [Tty.setString]
      split
      · rfl
      · rename_i present
        rw [textLength_cons present] at outside
        rw [inductionHypothesis]
        · have here := outside 0 (by omega)
          exact List.getElem?_set_ne (Ne.symm here)
        · intro k inside
          have later := outside (k + 1) (by omega)
          rwa [show i + (k + 1) = i + 1 + k by omega] at later

variable {xOffset yOffset width}

/-- The cell that index `k` of the string names holds its character: no later
index names it again. -/
theorem setString_cell {n : Nat} (fits : BoxFits g xOffset yOffset width n) (i : Nat)
    (str : List (BitVec 8)) (tty : Tty) (memory : tty.mem.length = g.cells)
    (rest : i + textLength str ≤ n) {k : Nat} (inside : k < textLength str) :
    (tty.setString g xOffset yOffset width color i str).mem[
        boxAddress g xOffset yOffset width (i + k)]? =
      some (cellValue (str.getD k 0) color) := by
  induction str generalizing i k tty with
  | nil => simp [textLength] at inside
  | cons ch str inductionHypothesis =>
      by_cases ended : ch = 0
      · simp [textLength, ended] at inside
      · rw [textLength_cons ended] at rest inside
        rw [Tty.setString, if_neg ended]
        cases k with
        | zero =>
            rw [setString_frame]
            · exact List.getElem?_set_self (by rw [memory]; exact fits.address_lt (by omega))
            · intro l before same
              have equal := boxAddress_inj fits (by omega) (by omega) same
              omega
        | succ k =>
            have later := inductionHypothesis (i + 1)
              (tty.setChar g (xOffset + i % width) (yOffset + i / width) ch color)
              (by rw [Tty.setChar, List.length_set]; exact memory) (by omega)
              (by omega : k < textLength str)
            rwa [show i + 1 + k = i + (k + 1) by omega] at later

end Loop

/-- After `tty_set_string` each cell of the box holds the character with its
index, in the colour; the indices have cells of their own; the other cells, the
cursor and the pen are as before, and so are the other ttys. -/
theorem ttySetString_fills_box (drv : TtyDriver δ) (c : Console δ) (t : TtyId)
    {xOffset yOffset width : Nat} (str : List (BitVec 8)) (color : Color)
    (memory : (c.ttys t).mem.length = drv.geometry.cells)
    (fits : BoxFits drv.geometry xOffset yOffset width (textLength str)) :
    ∃ c', ttySetString drv t xOffset yOffset width str color c = some c' ∧
      (∀ k < textLength str,
        (c'.ttys t).mem[boxAddress drv.geometry xOffset yOffset width k]? =
          some (cellValue (str.getD k 0) color)) ∧
      (∀ k < textLength str, xOffset + k % width < drv.geometry.width ∧
        yOffset + k / width < drv.geometry.height) ∧
      (∀ k < textLength str, ∀ l < textLength str,
        boxAddress drv.geometry xOffset yOffset width k =
          boxAddress drv.geometry xOffset yOffset width l → k = l) ∧
      (∀ j, (∀ k < textLength str, j ≠ boxAddress drv.geometry xOffset yOffset width k) →
        (c'.ttys t).mem[j]? = (c.ttys t).mem[j]?) ∧
      c'.ttys t = { c.ttys t with mem := (c'.ttys t).mem } ∧
      ∀ u, u ≠ t → c'.ttys u = c.ttys u := by
  obtain ⟨c', ran, changed⟩ := setStringLoop_effect drv t xOffset yOffset width color str 0
    (by rw [Nat.zero_add]; exact fits.inRange) memory
  refine ⟨c', ran, ?_, fun k inside => fits.cell inside,
    fun k inside l inside' => boxAddress_inj fits inside inside', ?_, ?_,
    fun u other => changed.other other⟩
  · intro k inside
    have cell := setString_cell drv.geometry color fits 0 str (c.ttys t) memory (by omega)
      inside
    rwa [Nat.zero_add, ← changed.self] at cell
  · intro j outside
    rw [changed.self]
    apply setString_frame
    intro k inside
    rw [Nat.zero_add]
    exact outside k inside
  · rw [changed.self]
    exact setString_rest drv.geometry xOffset yOffset width color 0 str (c.ttys t)

/-- Five characters in three columns of a screen of five by four. -/
theorem ttySetString_fills_box_five_by_four :
    ∃ c', ttySetString (plainDriver ⟨5, 4, by decide, by decide, by decide⟩) 1 2 1 3
        [0x61, 0x62, 0x63, 0x64, 0x65] 0x4A
        (initTty (plainDriver ⟨5, 4, by decide, by decide, by decide⟩) none ()) = some c' ∧
      (∀ k < 5, (c'.ttys 1).mem[boxAddress ⟨5, 4, by decide, by decide, by decide⟩ 2 1 3 k]? =
        some (cellValue (([0x61, 0x62, 0x63, 0x64, 0x65] : List (BitVec 8)).getD k 0) 0x4A)) ∧
      ∀ u : TtyId, u ≠ 1 → c'.ttys u =
        (initTty (plainDriver ⟨5, 4, by decide, by decide, by decide⟩) none ()).ttys u := by
  rcases ttySetString_fills_box (plainDriver ⟨5, 4, by decide, by decide, by decide⟩)
    (initTty (plainDriver ⟨5, 4, by decide, by decide, by decide⟩) none ()) 1
    [0x61, 0x62, 0x63, 0x64, 0x65] 0x4A
    (initTty_wellFormed _ (plainDriver_givesMemory _) none () 1).mem_length
    (show BoxFits ⟨5, 4, by decide, by decide, by decide⟩ 2 1 3 5 from
      ⟨by decide, by decide, by decide⟩) with ⟨c', ran, cells, -, -, -, -, others⟩
  exact ⟨c', ran, cells, others⟩

end Os88.TextConsole
