/-
Module: Os88.TextConsole.Operations
Purpose: Runs of console operations from `init_tty`, the invariant they keep,
  and the bounds on cursors and memory that follow.
Trusted boundary: none
Main exports: Operation, Operation.exec, Operation.InRange,
  Console.WellFormed, exec_wellFormed, initTty_wellFormed,
  run_bounds
-/
import Os88.TextConsole.Effect

namespace Os88.TextConsole

open Execution

variable {δ : Type}

/-- The operations the rest of the kernel performs on the consoles.  A colour
change goes to the tty that `tty_set_current` selected. -/
inductive Operation where
  | print (t : TtyId) (str : List (BitVec 8))
  | setChar (t : TtyId) (x y : Nat) (ch : BitVec 8) (color : Color)
  | setString (t : TtyId) (xOffset yOffset width : Nat)
      (str : List (BitVec 8)) (color : Color)
  | newline (t : TtyId)
  | scroll (t : TtyId)
  | fillColor (t : TtyId) (color : Color)
  | clear (t : TtyId)
  | switch (t : TtyId)
  | setCurrent (t : Option TtyId)
  | setColor (color : Color)
deriving Repr

/-- Perform one operation. -/
def Operation.exec (drv : TtyDriver δ) :
    Operation → Console δ → Option (Console δ)
  | .print t str, c => (ttyPrint drv t str c).map Prod.snd
  | .setChar t x y ch color, c => ttySetChar drv t x y ch color c
  | .setString t xOffset yOffset width str color, c =>
      ttySetString drv t xOffset yOffset width str color c
  | .newline t, c => ttyNewline drv t c
  | .scroll t, c => ttyScroll drv t c
  | .fillColor t color, c => ttyFillColor drv t color c
  | .clear t, c => ttyClear drv t c
  | .switch t, c => some (ttySwitch drv t c)
  | .setCurrent t, c => some (ttySetCurrent t c)
  | .setColor color, c => some (ksetColor color c)

/-- The cells of a box of the given width, filled row by row from its corner,
are on the screen for the indices `first` to `last - 1`. -/
def BoxInRange (g : Geometry) (xOffset yOffset width first last : Nat) : Prop :=
  ∀ k, first ≤ k → k < last →
    0 < width ∧ xOffset + k % width < g.width ∧ yOffset + k / width < g.height

/-- The coordinates an operation is given are on the screen. -/
def Operation.InRange (g : Geometry) : Operation → Prop
  | .setChar _ x y _ _ => x < g.width ∧ y < g.height
  | .setString _ xOffset yOffset width str _ =>
      BoxInRange g xOffset yOffset width 0 (textLength str)
  | _ => True

/-- Every tty satisfies the invariant. -/
def Console.WellFormed (g : Geometry) (c : Console δ) : Prop :=
  ∀ t, (c.ttys t).WellFormed g

/-- `init` gives each tty the memory of one screen and changes nothing else of
it. -/
def TtyDriver.GivesMemory (drv : TtyDriver δ) : Prop :=
  ∃ init, drv.init = some init ∧
    ∀ t tty device, ∃ mem : List Cell, mem.length = drv.geometry.cells ∧
      (init t tty device).1 = { tty with mem := mem }

namespace Console

variable {g : Geometry} {t : TtyId} {tty : Tty} {c c' : Console δ}

/-- A change of one tty keeps the invariant if that tty keeps it. -/
theorem Becomes.wellFormed (changed : c.Becomes t tty c')
    (wellFormed : c.WellFormed g) (kept : tty.WellFormed g) :
    c'.WellFormed g := by
  intro u
  by_cases same : u = t
  · rw [same, changed.self]
    exact kept
  · rw [changed.other same]
    exact wellFormed u

theorem WellFormed.of_ttys_eq (wellFormed : c.WellFormed g)
    (same : c'.ttys = c.ttys) : c'.WellFormed g := by
  intro u
  rw [same]
  exact wellFormed u

end Console

section Steps

variable (drv : TtyDriver δ) {c : Console δ}

theorem ttySwitch_ttys (t : TtyId) (c : Console δ) :
    (ttySwitch drv t c).ttys = c.ttys := by
  unfold ttySwitch
  split
  · rfl
  · simp

/-- The console after one pass of `tty_set_string` at a cell in range. -/
def afterSetChar (t : TtyId) (x y : Nat) (ch : BitVec 8) (color : Color)
    (c : Console δ) : Console δ :=
  showChar drv t x y ch color (c.modify t (Tty.setChar drv.geometry x y ch color))

theorem afterSetChar_becomes (t : TtyId) (x y : Nat) (ch : BitVec 8)
    (color : Color) (c : Console δ) :
    c.Becomes t ((c.ttys t).setChar drv.geometry x y ch color)
      (afterSetChar drv t x y ch color c) :=
  (Console.Becomes.modify t c _).showChar t x y ch color

theorem setStringLoop_step {t : TtyId} {xOffset yOffset width i : Nat}
    {ch : BitVec 8} (present : ch ≠ 0) (rest : List (BitVec 8)) (color : Color)
    (positive : 0 < width) (hx : xOffset + i % width < drv.geometry.width)
    (hy : yOffset + i / width < drv.geometry.height)
    (length : (c.ttys t).mem.length = drv.geometry.cells) :
    setStringLoop drv t xOffset yOffset width color i (ch :: rest) c =
      setStringLoop drv t xOffset yOffset width color (i + 1) rest
        (afterSetChar drv t (xOffset + i % width) (yOffset + i / width) ch color
          c) := by
  have wide := drv.geometry.width_le_cells
  have high := drv.geometry.height_le_cells
  have size := drv.geometry.cells_lt_size
  have column : sizeT (xOffset + i % width) = xOffset + i % width :=
    sizeT_of_lt (by omega)
  have row : sizeT (yOffset + i / width) = yOffset + i / width :=
    sizeT_of_lt (by omega)
  rw [setStringLoop, if_neg present, if_neg (by omega), column, row,
    ttySetChar_eq drv t c ch color hx hy length]
  rfl

/-- The loop of `tty_set_string` keeps to the ttys' invariant while the indices
it still visits are in range. -/
theorem setStringLoop_wellFormed (t : TtyId) (xOffset yOffset width : Nat)
    (color : Color) (str : List (BitVec 8)) (i : Nat)
    (inRange : BoxInRange drv.geometry xOffset yOffset width i
      (i + textLength str))
    (wellFormed : c.WellFormed drv.geometry) :
    ∃ c', setStringLoop drv t xOffset yOffset width color i str c = some c' ∧
      c'.WellFormed drv.geometry := by
  induction str generalizing i c with
  | nil => exact ⟨c, rfl, wellFormed⟩
  | cons ch rest inductionHypothesis =>
      by_cases ended : ch = 0
      · exact ⟨c, by rw [setStringLoop, if_pos ended], wellFormed⟩
      · rw [textLength_cons ended] at inRange
        rcases inRange i (Nat.le_refl i) (by omega) with ⟨positive, hx, hy⟩
        rw [setStringLoop_step drv ended rest color positive hx hy
          (wellFormed t).mem_length]
        apply inductionHypothesis (i + 1)
        · intro k lower upper
          exact inRange k (by omega) (by omega)
        · exact (afterSetChar_becomes drv t _ _ ch color c).wellFormed wellFormed
            ((wellFormed t).setChar _ _ ch color)

/-- Every operation in range succeeds and keeps the invariant. -/
theorem exec_wellFormed (op : Operation) (inRange : op.InRange drv.geometry)
    (wellFormed : c.WellFormed drv.geometry) :
    ∃ c', op.exec drv c = some c' ∧ c'.WellFormed drv.geometry := by
  cases op with
  | print t str =>
      rcases ttyPrint_effect drv str (wellFormed t) with ⟨final, ran, changed⟩
      refine ⟨final, by rw [Operation.exec, ran]; rfl, ?_⟩
      exact changed.wellFormed wellFormed ((wellFormed t).print str)
  | setChar t x y ch color =>
      refine ⟨_, ttySetChar_eq drv t c ch color inRange.1 inRange.2
        (wellFormed t).mem_length, ?_⟩
      exact (afterSetChar_becomes drv t x y ch color c).wellFormed wellFormed
        ((wellFormed t).setChar x y ch color)
  | setString t xOffset yOffset width str color =>
      refine setStringLoop_wellFormed drv t xOffset yOffset width color str 0 ?_
        wellFormed
      rw [Nat.zero_add]
      exact inRange
  | newline t =>
      obtain ⟨final, ran, changed⟩ :=
        ttyNewline_effect drv (wellFormed t).y_lt (wellFormed t).mem_length
      exact ⟨final, ran, changed.wellFormed wellFormed
        (Tty.WellFormed.newline (wellFormed t).y_lt (wellFormed t).mem_length)⟩
  | scroll t =>
      refine ⟨_, ttyScroll_eq drv t c (wellFormed t).mem_length, ?_⟩
      exact ((Console.Becomes.modify t c _).redraw t).wellFormed wellFormed
        (wellFormed t).scroll
  | fillColor t color =>
      refine ⟨_, ttyFillColor_eq drv t c color (wellFormed t).mem_length, ?_⟩
      exact ((Console.Becomes.modify t c _).redraw t).wellFormed wellFormed
        ((wellFormed t).fillColor color)
  | clear t =>
      refine ⟨_, ttyFillColor_eq drv t c 0 (wellFormed t).mem_length, ?_⟩
      exact ((Console.Becomes.modify t c _).redraw t).wellFormed wellFormed
        ((wellFormed t).fillColor 0)
  | switch t => exact ⟨_, rfl, wellFormed.of_ttys_eq (ttySwitch_ttys drv t c)⟩
  | setCurrent t => exact ⟨_, rfl, wellFormed⟩
  | setColor color =>
      exact ⟨_, rfl, (Console.Becomes.modify (ttyCurrentProcess c) c
        fun tty => { tty with color := color }).wellFormed wellFormed
          ((wellFormed (ttyCurrentProcess c)).setColor color)⟩

/-- Runs in range succeed and keep the invariant. -/
theorem run_wellFormed (ops : List Operation)
    (inRange : ∀ op ∈ ops, op.InRange drv.geometry)
    (wellFormed : c.WellFormed drv.geometry) :
    ∃ c', runAll (Operation.exec drv) ops c = some c' ∧
      c'.WellFormed drv.geometry :=
  runAll_total (Console.WellFormed drv.geometry) wellFormed
    fun op member _ kept => exec_wellFormed drv op (inRange op member) kept

end Steps

/-- A driver that gives every tty a cleared memory and shows nothing. -/
def plainDriver (g : Geometry) : TtyDriver Unit where
  geometry := g
  init := some fun _ tty device =>
    ({ tty with mem := List.replicate g.cells 0 }, device)
  rerender := none
  switchHandler := none
  updateCursorLocation := none
  setChar := none

theorem plainDriver_givesMemory (g : Geometry) : (plainDriver g).GivesMemory :=
  ⟨_, rfl, fun _ _ _ => ⟨_, List.length_replicate, rfl⟩⟩

/-! ## The state after `init_tty` -/

section Init

variable (drv : TtyDriver δ)

theorem initOne_other {c : Console δ} {t u : TtyId} (ne : u ≠ t) :
    (initOne drv c t).ttys u = c.ttys u := by
  unfold initOne ttyInit
  cases drv.init with
  | none => simp [Function.update_of_ne ne]
  | some init => simp [Function.update_of_ne ne]

theorem initOne_self (gives : drv.GivesMemory) (c : Console δ) (t : TtyId) :
    ((initOne drv c t).ttys t).WellFormed drv.geometry := by
  rcases gives with ⟨init, present, gives⟩
  obtain ⟨mem, length, given⟩ :=
    gives t ((ttyInit t c).ttys t) (ttyInit t c).device
  have stored : (initOne drv c t).ttys t =
      { (ttyInit t c).ttys t with mem := mem } := by
    simp only [initOne, present, ← given, Function.update_self]
  rw [stored]
  refine ⟨?_, ?_, length⟩
  · simpa [ttyInit] using drv.geometry.width_pos
  · simpa [ttyInit] using drv.geometry.height_pos

/-- The loop of `init_tty` establishes the invariant one tty after the other. -/
theorem initLoop_wellFormed (gives : drv.GivesMemory) (ids : List TtyId)
    (c : Console δ)
    (rest : ∀ t, t ∉ ids → (c.ttys t).WellFormed drv.geometry) :
    (ids.foldl (initOne drv) c).WellFormed drv.geometry := by
  induction ids generalizing c with
  | nil => exact fun t => rest t (by simp)
  | cons i ids inductionHypothesis =>
      apply inductionHypothesis
      intro t absent
      by_cases same : t = i
      · rw [same]
        exact initOne_self drv gives c i
      · rw [initOne_other drv same]
        exact rest t (by simp [same, absent])

theorem initLoop_currentScreen (ids : List TtyId) (c : Console δ) :
    (ids.foldl (initOne drv) c).currentScreen = c.currentScreen := by
  induction ids generalizing c with
  | nil => rfl
  | cons i ids inductionHypothesis =>
      rw [List.foldl_cons, inductionHypothesis]
      unfold initOne
      cases drv.init <;> rfl

theorem initTty_wellFormed (gives : drv.GivesMemory) (threadTty : Option TtyId)
    (device : δ) : (initTty drv threadTty device).WellFormed drv.geometry := by
  apply Console.WellFormed.of_ttys_eq _ (ttySwitch_ttys drv defaultTty _)
  apply initLoop_wellFormed drv gives
  intro t absent
  exact absurd (List.mem_finRange t) absent

/-- Cursor and memory bounds.  A run of operations from `init_tty` never
accesses a cell outside the `width * height` cells of a tty, since such an
access would be a fault, and leaves every cursor on the screen. -/
theorem run_bounds (gives : drv.GivesMemory) (threadTty : Option TtyId)
    (device : δ) (ops : List Operation)
    (inRange : ∀ op ∈ ops, op.InRange drv.geometry) :
    ∃ c, runAll (Operation.exec drv) ops (initTty drv threadTty device) = some c ∧
      ∀ t, (c.ttys t).x < drv.geometry.width ∧
        (c.ttys t).y < drv.geometry.height ∧
        (c.ttys t).mem.length = drv.geometry.width * drv.geometry.height := by
  obtain ⟨final, ran, kept⟩ := run_wellFormed drv ops inRange
    (initTty_wellFormed drv gives threadTty device)
  exact ⟨final, ran, fun t => ⟨(kept t).x_lt, (kept t).y_lt, (kept t).mem_length⟩⟩

/-- The bounds on a screen of two rows of three cells. -/
theorem run_bounds_three_by_two :
    ∃ c, runAll (Operation.exec (plainDriver ⟨3, 2, by decide, by decide, by decide⟩))
        [.print 0 [0x61, 0x0A, 0x62, 0x63, 0x64], .scroll 0, .fillColor 1 0x47,
          .switch 1]
        (initTty (plainDriver ⟨3, 2, by decide, by decide, by decide⟩) none ()) =
          some c ∧
      ∀ t, (c.ttys t).x < 3 ∧ (c.ttys t).y < 2 ∧ (c.ttys t).mem.length = 3 * 2 :=
  run_bounds (plainDriver ⟨3, 2, by decide, by decide, by decide⟩)
    (plainDriver_givesMemory _) none () _ (by simp [Operation.InRange])

end Init

end Os88.TextConsole
