/-
Module: Os88.TextConsole.Background
Purpose: A screen filled with a colour, and what printing on it leaves of the
  colour: it survives until the text scrolls.
Trusted boundary: none
Main exports: cellColor, PlainByte, PrintKeepsBackground,
  printKeepsBackground_iff
-/
import Os88.TextConsole.LineEnds
import Os88.TextConsole.Display
import Os88.TextConsole.PageRefinement

namespace Os88.TextConsole

open Execution Patch

variable {δ : Type}

/-- The attribute byte of a cell. -/
def cellColor (cell : Cell) : Color := cell.extractLsb' 8 8

/-- A printable 7-bit character, `\n`, `\r` or `\b`. -/
def PlainByte (ch : BitVec 8) : Prop :=
  (0x20 ≤ ch.toNat ∧ ch.toNat ≤ 0x7E) ∨ ch = 0x0A ∨ ch = 0x0D ∨ ch = 0x08

instance : DecidablePred PlainByte :=
  fun _ => inferInstanceAs (Decidable (_ ∨ _ ∨ _ ∨ _))

/-- Every cell of the screen is in the memory, with the attribute. -/
def Colored (g : Geometry) (color : Color) (mem : List Cell) : Prop :=
  ∀ x < g.width, ∀ y < g.height, ∃ cell, mem[x + y * g.width]? = some cell ∧
    cellColor cell = color

/-- Filling the tty, choosing the same pen and printing leaves every cell with
that colour. -/
def PrintKeepsBackground (drv : TtyDriver δ) (t : TtyId) (color : Color)
    (str : List (BitVec 8)) (c : Console δ) : Prop :=
  ∃ filled n printed, ttyFillColor drv t color c = some filled ∧
    ttyPrint drv t str (filled.modify t fun tty => { tty with color := color }) =
      some (n, printed) ∧
    Colored drv.geometry color (printed.ttys t).mem

/-! ## Commands of plain strings -/

/-- A command that keeps the pen, and writes only 7-bit characters. -/
def Command.Plain : Command → Prop
  | .setColor _ => False
  | .glyph ch => ch.toNat < 128
  | _ => True

theorem PlainByte.present {ch : BitVec 8} (plain : PlainByte ch) : ch ≠ 0 := by
  rintro rfl
  exact absurd plain (by decide)

theorem PlainByte.ordinary {ch : BitVec 8} (plain : PlainByte ch) :
    ch ≠ TTY_CMD_SET_COLOR := by
  rintro rfl
  exact absurd plain (by decide)

theorem PlainByte.command {ch : BitVec 8} (plain : PlainByte ch) :
    (byteCommand ch).Plain := by
  rw [byteCommand]
  split
  · exact trivial
  · split
    · exact trivial
    · split
      · exact trivial
      · rename_i newline carriage backspace
        rcases plain with ⟨-, small⟩ | rfl | rfl | rfl
        · show ch.toNat < 128
          omega
        · exact absurd rfl newline
        · exact absurd rfl carriage
        · exact absurd rfl backspace

theorem plain_commands {str : List (BitVec 8)} (plain : ∀ ch ∈ str, PlainByte ch) :
    ∀ command ∈ commands str, command.Plain := by
  induction str with
  | nil => exact fun command member => absurd member (List.not_mem_nil)
  | cons ch rest inductionHypothesis =>
      have first := plain ch (List.mem_cons_self ..)
      rw [commands_byte first.present first.ordinary]
      intro command member
      rcases List.mem_cons.mp member with rfl | later
      · exact first.command
      · exact inductionHypothesis
          (fun other inside => plain other (List.mem_cons_of_mem ch inside)) command
          later

/-! ## While the text stays on the screen -/

section Cells

variable {g : Geometry} {tty : Tty} {color : Color}

/-- All cells have the attribute, and so will the next one. -/
structure Painted (g : Geometry) (color : Color) (tty : Tty) : Prop where
  wellFormed : tty.WellFormed g
  pen : tty.color = color
  cells : ∀ cell ∈ tty.mem, cellColor cell = color

theorem cellColor_cellValue {ch : BitVec 8} (ascii : ch.toNat < 128)
    (color : Color) : cellColor (cellValue ch color) = color :=
  cellValue_high_of_lt ascii color

theorem cellColor_blank (color : Color) : cellColor (color ++ 0x20#8) = color := by
  revert color
  decide

theorem Painted.colored (painted : Painted g color tty) : Colored g color tty.mem := by
  intro x columnInside y rowInside
  have inside : x + y * g.width < tty.mem.length := by
    rw [painted.wellFormed.mem_length]
    exact g.index_lt columnInside rowInside
  exact ⟨_, List.getElem?_eq_getElem inside, painted.cells _ (List.getElem_mem inside)⟩

theorem Painted.advanced (painted : Painted g color tty) {ch : BitVec 8}
    (ascii : ch.toNat < 128) :
    (tty.advanced g ch).color = color ∧
      ∀ cell ∈ (tty.advanced g ch).mem, cellColor cell = color := by
  refine ⟨painted.pen, ?_⟩
  intro cell member
  rcases List.mem_or_eq_of_mem_set member with old | rfl
  · exact painted.cells cell old
  · rw [painted.pen]
    exact cellColor_cellValue ascii color

/-- Scrolling brings in zeroes only. -/
theorem mem_scrollMem (even : g.width % 2 = 0) {mem : List Cell}
    (length : mem.length = g.cells) {cell : Cell} (member : cell ∈ scrollMem g mem) :
    cell ∈ mem ∨ cell = 0 := by
  rcases List.getElem_of_mem member with ⟨k, inside, value⟩
  have found := List.getElem?_eq_getElem inside
  rw [length_scrollMem, length] at inside
  rw [value, getElem?_scrollMem even length inside] at found
  split at found
  · exact Or.inl (List.mem_of_getElem? found)
  · exact Or.inr (Option.some.inj found).symm

/-- A line feed keeps the attributes if it does not scroll or the row that
scrolling brings in has the right one. -/
theorem newline_cells (even : g.width % 2 = 0) (length : tty.mem.length = g.cells)
    (cells : ∀ cell ∈ tty.mem, cellColor cell = color)
    (row : color = 0 ∨ tty.y + 1 < g.height) :
    ∀ cell ∈ (tty.newline g).mem, cellColor cell = color := by
  rw [Tty.newline]
  split
  · rcases row with rfl | inside
    · intro cell member
      rcases mem_scrollMem even length member with old | rfl
      · exact cells cell old
      · rfl
    · omega
  · exact cells

theorem newline_color (tty : Tty) : (tty.newline g).color = tty.color := by
  rw [Tty.newline]
  split <;> rfl

/-- A plain command keeps the colour, unless it scrolls in another one. -/
theorem Painted.step (painted : Painted g color tty) (even : g.width % 2 = 0)
    {command : Command} (plain : command.Plain)
    (row : color = 0 ∨ tty.y + 1 < g.height ∨ ¬ command.EndsLine g.width tty.x) :
    Painted g color (tty.step g command) := by
  have kept := painted.wellFormed.step command
  by_cases ends : command.EndsLine g.width tty.x
  · have ended := step_ends (p := ⟨tty.y, tty.x⟩) ⟨rfl, rfl⟩ ends
    have done : (tty.lineDone g command).color = color ∧
        (tty.lineDone g command).mem.length = g.cells ∧
        ∀ cell ∈ (tty.lineDone g command).mem, cellColor cell = color := by
      cases command with
      | glyph ch =>
          exact ⟨(painted.advanced plain).1,
            (painted.wellFormed.setChar tty.x tty.y ch tty.color).mem_length,
            (painted.advanced plain).2⟩
      | _ => exact ⟨painted.pen, painted.wellFormed.mem_length, painted.cells⟩
    have bottom : color = 0 ∨ (tty.lineDone g command).y + 1 < g.height := by
      rw [lineDone_y]
      rcases row with zero | inside | stays
      · exact Or.inl zero
      · exact Or.inr inside
      · exact absurd ends stays
    refine ⟨kept, ?_, ?_⟩
    · rw [ended, newline_color]
      exact done.1
    · rw [ended]
      exact newline_cells even done.2.1 done.2.2 bottom
  · cases command with
    | glyph ch =>
        have fits : ¬ g.width ≤ tty.x + 1 := ends
        rw [step_glyph_stays fits] at kept ⊢
        exact ⟨kept, (painted.advanced plain).1, (painted.advanced plain).2⟩
    | newline => exact absurd trivial ends
    | setColor color => exact absurd plain id
    | carriageReturn => exact ⟨kept, painted.pen, painted.cells⟩
    | backspace => exact ⟨kept, painted.pen, painted.cells⟩

/-- Plain commands that end fewer lines than the screen has keep the colour; with
colour 0 all plain commands do. -/
theorem Painted.steps (painted : Painted g color tty) (even : g.width % 2 = 0)
    {p : Place} {list : List Command} (plain : ∀ command ∈ list, command.Plain)
    (row : color = 0 ∨ tty.At p ∧ (p.obeyAll g.width list).line < g.height) :
    Painted g color (list.foldl (Tty.step g) tty) := by
  induction list generalizing tty p with
  | nil => exact painted
  | cons command rest inductionHypothesis =>
      have plainRest : ∀ other ∈ rest, other.Plain :=
        fun other member => plain other (List.mem_cons_of_mem command member)
      have plainFirst := plain command (List.mem_cons_self ..)
      rcases row with zero | ⟨here, inside⟩
      · exact inductionHypothesis (painted.step even plainFirst (Or.inl zero))
          plainRest (p := p) (Or.inl zero)
      · have once : (p.obey g.width command).line < g.height :=
          Nat.lt_of_le_of_lt (Place.line_le_obeyAll rest) inside
        have low : tty.y + 1 < g.height ∨ ¬ command.EndsLine g.width tty.x := by
          rw [here.row, here.column]
          by_cases ends : command.EndsLine g.width p.column
          · rw [Place.obey, if_pos ends] at once
            exact Or.inl once
          · exact Or.inr ends
        exact inductionHypothesis (painted.step even plainFirst (Or.inr low))
          plainRest (Or.inr ⟨here.step once, inside⟩)

/-! ## When the text scrolls -/

/-- The cursor is on the last row, whose last cell is blank. -/
structure Scrolled (g : Geometry) (tty : Tty) : Prop where
  wellFormed : tty.WellFormed g
  bottom : tty.y + 1 = g.height
  blank : tty.mem[g.cells - 1]? = some 0

/-- A line feed on the last row scrolls in a blank one. -/
theorem newline_scrolled (even : g.width % 2 = 0) (length : tty.mem.length = g.cells)
    (bottom : tty.y + 1 = g.height) : Scrolled g (tty.newline g) := by
  have positive := g.height_pos
  have wide := g.width_pos
  have cells := g.width_le_cells
  have kept : (tty.newline g).WellFormed g :=
    Tty.WellFormed.newline (by omega) length
  have scrolled : tty.newline g =
      { tty with x := 0, y := g.height - 1, mem := scrollMem g tty.mem } :=
    if_pos (by omega)
  refine ⟨kept, ?_, ?_⟩
  · rw [scrolled]
    show g.height - 1 + 1 = g.height
    omega
  · rw [scrolled]
    show (scrollMem g tty.mem)[g.cells - 1]? = some 0
    rw [getElem?_scrollMem even length (by omega), if_neg (by omega)]

/-- What is printed on the last row never reaches its last cell: the character
for that cell ends the line. -/
theorem Scrolled.step (scrolled : Scrolled g tty) (even : g.width % 2 = 0)
    (command : Command) : Scrolled g (tty.step g command) := by
  have kept := scrolled.wellFormed.step command
  by_cases ends : command.EndsLine g.width tty.x
  · rw [step_ends (p := ⟨tty.y, tty.x⟩) ⟨rfl, rfl⟩ ends]
    apply newline_scrolled even
    · cases command with
      | glyph ch =>
          exact (scrolled.wellFormed.setChar tty.x tty.y ch tty.color).mem_length
      | _ => exact scrolled.wellFormed.mem_length
    · rw [lineDone_y]
      exact scrolled.bottom
  · cases command with
    | glyph ch =>
        have fits : ¬ g.width ≤ tty.x + 1 := ends
        have elsewhere : tty.x + tty.y * g.width ≠ g.cells - 1 := by
          have upper := g.upper_cells
          have row : tty.y = g.height - 1 := by
            have bottom := scrolled.bottom
            omega
          rw [row, Nat.mul_comm]
          omega
        rw [step_glyph_stays fits] at kept ⊢
        refine ⟨kept, scrolled.bottom, ?_⟩
        show (tty.mem.set _ _)[g.cells - 1]? = some 0
        rw [List.getElem?_set_ne elsewhere]
        exact scrolled.blank
    | newline => exact absurd trivial ends
    | setColor color => exact ⟨kept, scrolled.bottom, scrolled.blank⟩
    | carriageReturn => exact ⟨kept, scrolled.bottom, scrolled.blank⟩
    | backspace => exact ⟨kept, scrolled.bottom, scrolled.blank⟩

theorem Scrolled.steps (scrolled : Scrolled g tty) (even : g.width % 2 = 0)
    (list : List Command) : Scrolled g (list.foldl (Tty.step g) tty) := by
  induction list generalizing tty with
  | nil => exact scrolled
  | cons command rest inductionHypothesis =>
      exact inductionHypothesis (scrolled.step even command)

/-- Commands that end as many lines as the screen has scroll. -/
theorem scrolled_of_crossing (wellFormed : tty.WellFormed g) (even : g.width % 2 = 0)
    {p : Place} (here : tty.At p) {list : List Command}
    (crosses : g.height ≤ (p.obeyAll g.width list).line) :
    Scrolled g (list.foldl (Tty.step g) tty) := by
  have below : p.line < g.height := by
    rw [← here.row]
    exact wellFormed.y_lt
  obtain ⟨first, command, second, rfl, inside, leaves⟩ :=
    Place.exists_crossing below crosses
  have middle := here.steps inside
  have kept := wellFormed.steps first
  rcases step_scrolls middle inside leaves with ⟨ends, bottom⟩
  rw [List.foldl_append, List.foldl_cons]
  apply Scrolled.steps _ even
  rw [step_ends middle ends]
  apply newline_scrolled even
  · cases command with
    | glyph ch => exact (kept.setChar _ _ ch _).mem_length
    | _ => exact kept.mem_length
  · rw [lineDone_y]
    exact bottom

/-- A filled tty is painted once its pen has the colour. -/
theorem painted_fillColor (wellFormed : tty.WellFormed g) (even : g.width % 2 = 0)
    (color : Color) : Painted g color { tty.fillColor g color with color := color } := by
  have kept := (wellFormed.fillColor color).setColor color
  refine ⟨kept, rfl, ?_⟩
  intro cell member
  have whole : 2 * (g.cells / 2) = g.cells := by
    have pairs : g.cells % 2 = 0 := by
      rw [g.cells_eq, Nat.mul_mod, even, Nat.zero_mul, Nat.zero_mod]
    omega
  rcases List.getElem_of_mem member with ⟨k, inside, rfl⟩
  have length := kept.mem_length
  have filled : (fillMem g color tty.mem)[k]? = some (color ++ 0x20#8) := by
    rw [fillMem, whole, getElem?_patch_inside _ (Nat.zero_le k)]
    · exact Nat.lt_of_lt_of_eq inside length
    · rw [wellFormed.mem_length]
      exact Nat.lt_of_lt_of_eq inside length
  have value := Option.some.inj ((List.getElem?_eq_getElem inside).symm.trans filled)
  exact (congrArg cellColor value).trans (cellColor_blank color)

/-- A screen that has scrolled shows a cell of colour 0. -/
theorem Scrolled.not_colored (scrolled : Scrolled g tty) (other : color ≠ 0) :
    ¬ Colored g color tty.mem := by
  intro colored
  have wide := g.width_pos
  have positive := g.height_pos
  have last : g.width - 1 + (g.height - 1) * g.width = g.cells - 1 := by
    have upper := g.upper_cells
    rw [Nat.mul_comm (g.height - 1)]
    omega
  rcases colored (g.width - 1) (by omega) (g.height - 1) (by omega) with
    ⟨cell, found, shown⟩
  rw [last, scrolled.blank] at found
  obtain rfl := Option.some.inj found
  exact other shown.symm

end Cells

/-! ## Printing on a filled screen -/

section Printing

variable (drv : TtyDriver δ) {t : TtyId} {c : Console δ}

/-- The tty once it is filled, has its pen and is printed on. -/
theorem fill_then_print (color : Color) (str : List (BitVec 8))
    (wellFormed : (c.ttys t).WellFormed drv.geometry) :
    ∃ filled n printed, ttyFillColor drv t color c = some filled ∧
      ttyPrint drv t str (filled.modify t fun tty => { tty with color := color }) =
        some (n, printed) ∧
      printed.ttys t =
        ({ (c.ttys t).fillColor drv.geometry color with color := color } : Tty).print
          drv.geometry str := by
  have filled : c.Becomes t _ (ttyRedraw drv t _) :=
    (Console.Becomes.modify t c (Tty.fillColor drv.geometry color)).redraw t
  have chosen := filled.thenModify fun tty => { tty with color := color }
  obtain ⟨printed, ran, changed⟩ := ttyPrint_effect drv str
    (c := (ttyRedraw drv t (c.modify t (Tty.fillColor drv.geometry color))).modify t
      fun tty => { tty with color := color }) (t := t)
    (by rw [chosen.self]; exact (wellFormed.fillColor color).setColor color)
  refine ⟨_, _, printed, ttyFillColor_eq drv t c color wellFormed.mem_length, ran, ?_⟩
  rw [changed.self, chosen.self]

/-- With colour 0, and as long as the string ends fewer lines than the screen
has, the colour survives. -/
theorem keepsBackground {color : Color} {str : List (BitVec 8)}
    (wellFormed : (c.ttys t).WellFormed drv.geometry)
    (even : drv.geometry.width % 2 = 0) (plain : ∀ ch ∈ str, PlainByte ch)
    (row : color = 0 ∨ lineEnds drv.geometry.width 0 str < drv.geometry.height) :
    PrintKeepsBackground drv t color str c := by
  obtain ⟨filled, n, printed, ran, ranPrint, tty⟩ :=
    fill_then_print drv color str wellFormed
  refine ⟨filled, n, printed, ran, ranPrint, ?_⟩
  rw [tty]
  have painted := (painted_fillColor wellFormed even color).steps even
    (p := ⟨0, 0⟩) (plain_commands plain) (row.imp_right fun inside => ⟨⟨rfl, rfl⟩, inside⟩)
  exact painted.colored

/-- A string that ends as many lines as the screen has scrolls the colour out of
the last row. -/
theorem losesBackground {color : Color} {str : List (BitVec 8)}
    (wellFormed : (c.ttys t).WellFormed drv.geometry)
    (even : drv.geometry.width % 2 = 0) (other : color ≠ 0)
    (crosses : drv.geometry.height ≤ lineEnds drv.geometry.width 0 str) :
    ¬ PrintKeepsBackground drv t color str c := by
  obtain ⟨filled, n, printed, ran, ranPrint, tty⟩ :=
    fill_then_print drv color str wellFormed
  rintro ⟨filled', n', printed', ran', ranPrint', colored⟩
  obtain rfl := Option.some.inj (ran.symm.trans ran')
  obtain ⟨rfl, rfl⟩ := Prod.mk.inj (Option.some.inj (ranPrint.symm.trans ranPrint'))
  rw [tty] at colored
  have scrolled := scrolled_of_crossing
    ((wellFormed.fillColor color).setColor color) even (p := ⟨0, 0⟩) ⟨rfl, rfl⟩ crosses
  exact scrolled.not_colored other colored

/-- A filled background survives printing exactly when it is colour 0 or the
string ends fewer lines than the screen has. -/
theorem printKeepsBackground_iff {color : Color} {str : List (BitVec 8)}
    (wellFormed : (c.ttys t).WellFormed drv.geometry)
    (even : drv.geometry.width % 2 = 0) (plain : ∀ ch ∈ str, PlainByte ch) :
    PrintKeepsBackground drv t color str c ↔
      color = 0 ∨ lineEnds drv.geometry.width 0 str < drv.geometry.height := by
  constructor
  · intro keeps
    by_contra neither
    rcases not_or.mp neither with ⟨other, crosses⟩
    exact losesBackground drv wellFormed even other (Nat.not_lt.mp crosses) keeps
  · exact keepsBackground drv wellFormed even plain

end Printing

/-- Light grey on red, as on the exception screen. -/
def exceptionColor : Color := ttyMkcolor TTY_COLOR_LIGHTGREY TTY_COLOR_RED

theorem printKeepsBackground_iff_newline :
    PrintKeepsBackground (plainDriver ⟨80, 25, by decide, by decide, by decide⟩) 0
        exceptionColor [0x0A]
        (initTty (plainDriver ⟨80, 25, by decide, by decide, by decide⟩) none ()) ↔
      exceptionColor = 0 ∨ lineEnds 80 0 [0x0A] < 25 :=
  printKeepsBackground_iff (plainDriver ⟨80, 25, by decide, by decide, by decide⟩)
    (initTty_wellFormed (plainDriver ⟨80, 25, by decide, by decide, by decide⟩)
      (plainDriver_givesMemory _) none () 0) (by decide) (by decide)

/-- 25 newlines on the screen of 25 rows. -/
theorem newlines_lose_background :
    ¬ PrintKeepsBackground (plainDriver ⟨80, 25, by decide, by decide, by decide⟩) 0
        exceptionColor (List.replicate 25 0x0A)
        (initTty (plainDriver ⟨80, 25, by decide, by decide, by decide⟩) none ()) :=
  losesBackground (plainDriver ⟨80, 25, by decide, by decide, by decide⟩)
    (initTty_wellFormed (plainDriver ⟨80, 25, by decide, by decide, by decide⟩)
      (plainDriver_givesMemory _) none () 0) (by decide) (by decide) (by decide)

end Os88.TextConsole
