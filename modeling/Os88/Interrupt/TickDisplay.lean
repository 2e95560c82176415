/-
Module: Os88.Interrupt.TickDisplay
Purpose: `timer_callback` of timer.c: what it leaves in the first row of the
  monitor, for every tick and every content of the row.
Trusted boundary: the functions of the monitor and `kdec` lie outside the
  repository and enter as parameters with their documented behaviour; so does
  `tick`, a number of 32 bits.
Main exports: Monitor, Monitor.Meets, clearLoop, timerCallback, shownTick, ClearsLine,
  putAll_spec, clearLoop_eq, timerCallback_eq, timerCallback_cell, clearsLine_iff
-/
import Os88.Library.Decimal
import Os88.StringLib.Functions

namespace Os88.Interrupt

open Decimal
open StringLib (bytes)

variable {σ : Type}

/-- The functions that timer.c calls. -/
structure Monitor (σ : Type) where
  /-- the column and the row -/
  getCursor : σ → BitVec 8 × BitVec 8
  moveCursor : BitVec 8 → BitVec 8 → σ → σ
  put : BitVec 8 → σ → σ
  write : List (BitVec 8) → σ → σ
  kdec : BitVec 32 → σ → σ

def Monitor.putAll (monitor : Monitor σ) (text : List (BitVec 8)) (s : σ) : σ :=
  text.foldl (fun s ch => monitor.put ch s) s

def Printable (ch : BitVec 8) : Prop :=
  0x20 ≤ ch.toNat ∧ ch.toNat ≤ 0x7E

instance (ch : BitVec 8) : Decidable (Printable ch) :=
  inferInstanceAs (Decidable (_ ∧ _))

/-- The documented behaviour; `cell s col row` is the character shown there.  Of
characters that do not fit in front of the last column, or that are not printable,
nothing is said. -/
structure Monitor.Meets (monitor : Monitor σ) (cell : σ → Nat → Nat → BitVec 8) : Prop where
  cursor_move : ∀ x y s, monitor.getCursor (monitor.moveCursor x y s) = (x, y)
  cell_move : ∀ x y s, cell (monitor.moveCursor x y s) = cell s
  cursor_put : ∀ {ch s x y}, Printable ch → monitor.getCursor s = (x, y) → x.toNat < 79 →
    y.toNat < 25 → monitor.getCursor (monitor.put ch s) = (x + 1#8, y)
  cell_put : ∀ {ch s x y}, Printable ch → monitor.getCursor s = (x, y) → x.toNat < 79 →
    y.toNat < 25 → ∀ col row, cell (monitor.put ch s) col row =
      if col = x.toNat ∧ row = y.toNat then ch else cell s col row
  write : ∀ text s, monitor.write text s = monitor.putAll text s
  kdec : ∀ n s, monitor.kdec n s = monitor.putAll (decimal n.toNat) s

/-- The bound is computed again from the cursor on every pass, and `i` counts up
to it. -/
def clearLoop (monitor : Monitor σ) (i : Nat) (s : σ) : σ :=
  if i < 80 - (monitor.getCursor s).1.toNat then
    clearLoop monitor (i + 1) (monitor.put 0x20#8 s)
  else s
termination_by 80 - i

/-- `tick` and the screen. -/
def timerCallback (monitor : Monitor σ) (tick : BitVec 32) (s : σ) : BitVec 32 × σ :=
  let tick := tick + 1
  let (origX, origY) := monitor.getCursor s
  let s := monitor.moveCursor 0#8 0#8 s
  let s := monitor.write (bytes "Tick: ") s
  let s := monitor.kdec tick s
  let s := clearLoop monitor 0 s
  (tick, monitor.moveCursor origX origY s)

/-- What the first row starts with. -/
def shownTick (tick : BitVec 32) : List (BitVec 8) :=
  bytes "Tick: " ++ decimal (tick + 1).toNat

/-- Row 0 holds the tick and blanks up to column 79, the other rows are unchanged,
and the cursor is where it was. -/
def ClearsLine (monitor : Monitor σ) (cell : σ → Nat → Nat → BitVec 8) (tick : BitVec 32)
    (s : σ) : Prop :=
  let s' := (timerCallback monitor tick s).2
  (∀ col < 80, cell s' col 0 = ((shownTick tick)[col]?).getD 0x20#8) ∧
    (∀ col row, row ≠ 0 → cell s' col row = cell s col row) ∧
    monitor.getCursor s' = monitor.getCursor s

section Monitor

variable {monitor : Monitor σ} {cell : σ → Nat → Nat → BitVec 8}

/-- Printing in front of the last column writes the characters from the cursor on,
and moves it behind them. -/
theorem putAll_spec (meets : monitor.Meets cell) {text : List (BitVec 8)} {s : σ}
    {x y : BitVec 8} (cursor : monitor.getCursor s = (x, y)) (row : y.toNat < 25)
    (printable : ∀ ch ∈ text, Printable ch) (fits : x.toNat + text.length ≤ 79) :
    monitor.getCursor (monitor.putAll text s) = (x + BitVec.ofNat 8 text.length, y) ∧
      ∀ col r, cell (monitor.putAll text s) col r =
        if r = y.toNat ∧ x.toNat ≤ col then (text[col - x.toNat]?).getD (cell s col r)
        else cell s col r := by
  induction text generalizing s x with
  | nil => simp [Monitor.putAll, cursor]
  | cons ch text inductionHypothesis =>
      have here : x.toNat < 79 := by
        rw [List.length_cons] at fits
        omega
      have first := printable ch (List.mem_cons_self ..)
      have next : (x + 1#8).toNat = x.toNat + 1 := by
        rw [BitVec.toNat_add, BitVec.toNat_ofNat]
        omega
      rcases inductionHypothesis (meets.cursor_put first cursor here row)
          (fun other member => printable other (List.mem_cons_of_mem _ member))
          (by rw [List.length_cons] at fits; omega) with ⟨cursor', cells⟩
      have written := meets.cell_put first cursor here row
      rw [next] at cells
      refine ⟨?_, fun col r => ?_⟩
      · refine cursor'.trans ?_
        rw [List.length_cons, Nat.add_comm, BitVec.ofNat_add, BitVec.add_assoc]
      · refine (cells col r).trans ?_
        rw [written]
        by_cases sameRow : r = y.toNat
        · rcases Nat.lt_trichotomy col x.toNat with left | rfl | right
          · have outside : ¬ x.toNat ≤ col := by omega
            have outside' : ¬ x.toNat + 1 ≤ col := by omega
            have other : col ≠ x.toNat := by omega
            simp only [outside, outside', other, and_false, false_and, if_false]
          · have outside : ¬ x.toNat + 1 ≤ x.toNat := by omega
            simp [sameRow, outside]
          · have other : col ≠ x.toNat := by omega
            have inside : x.toNat ≤ col := by omega
            have position : col - x.toNat = col - (x.toNat + 1) + 1 := by omega
            simp only [sameRow, other, inside, Nat.succ_le_of_lt right, and_true, if_true,
              if_false, position, List.getElem?_cons_succ]
        · simp only [sameRow, false_and, and_false, if_false]

/-- The cursor meets the bound half way: with `x` columns printed, half of the
others are cleared. -/
theorem clearLoop_eq (meets : monitor.Meets cell) {s : σ} {x y : BitVec 8}
    (cursor : monitor.getCursor s = (x, y)) (row : y.toNat < 25) (i : Nat)
    (few : x.toNat ≤ i + 16) :
    clearLoop monitor i s =
      monitor.putAll (List.replicate ((81 - x.toNat - i) / 2) 0x20#8) s := by
  rw [clearLoop, cursor]
  by_cases more : i < 80 - x.toNat
  · have here : x.toNat < 79 := by omega
    have next : (x + 1#8).toNat = x.toNat + 1 := by
      rw [BitVec.toNat_add, BitVec.toNat_ofNat]
      omega
    have blank : Printable 0x20#8 := by decide
    have moved := meets.cursor_put blank cursor here row
    have passes : (81 - x.toNat - i) / 2 = (81 - (x + 1#8).toNat - (i + 1)) / 2 + 1 := by omega
    rw [if_pos more, clearLoop_eq meets moved row (i + 1) (by omega), passes,
      List.replicate_succ]
    rfl
  · have passes : (81 - x.toNat - i) / 2 = 0 := by omega
    rw [if_neg more, passes]
    rfl
termination_by 80 - i

theorem length_shownTick_le (tick : BitVec 32) : (shownTick tick).length ≤ 16 := by
  have digits : (decimal (tick + 1).toNat).length ≤ 10 :=
    length_decimal_le (by decide)
      (Nat.lt_trans (tick + 1).isLt (show 2 ^ 32 < 10 ^ 10 by decide))
  have label : (bytes "Tick: ").length = 6 := by decide
  rw [shownTick, List.length_append, label]
  omega

theorem printable_shownTick {tick : BitVec 32} {ch : BitVec 8} (member : ch ∈ shownTick tick) :
    Printable ch := by
  rcases List.mem_append.mp member with inLabel | inDigits
  · have label : ∀ ch ∈ bytes "Tick: ", 0x20 ≤ ch.toNat ∧ ch.toNat ≤ 0x7E := by decide
    exact label ch inLabel
  · have digit := isDigit_of_mem inDigits
    exact ⟨Nat.le_trans (show 0x20 ≤ 0x30 by decide) digit.1,
      Nat.le_trans digit.2 (show 0x39 ≤ 0x7E by decide)⟩

/-- What `timer_callback` prints from the start of the first row on. -/
def printed (tick : BitVec 32) : List (BitVec 8) :=
  shownTick tick ++ List.replicate ((81 - (shownTick tick).length) / 2) 0x20#8

theorem timerCallback_eq (meets : monitor.Meets cell) (tick : BitVec 32) (s : σ) :
    timerCallback monitor tick s = (tick + 1,
      monitor.moveCursor (monitor.getCursor s).1 (monitor.getCursor s).2
        (monitor.putAll (printed tick) (monitor.moveCursor 0#8 0#8 s))) := by
  have short := length_shownTick_le tick
  have start := meets.cursor_move 0#8 0#8 s
  have printable : ∀ ch ∈ shownTick tick, Printable ch := fun ch => printable_shownTick
  have shown := putAll_spec meets start (by decide) printable
    (by rw [BitVec.toNat_ofNat]; omega)
  have column : (0#8 + BitVec.ofNat 8 (shownTick tick).length).toNat =
      (shownTick tick).length := by
    rw [BitVec.zero_add, BitVec.toNat_ofNat]
    omega
  have cleared := clearLoop_eq meets shown.1 (by decide) 0 (by omega)
  rw [column, Nat.sub_zero] at cleared
  have text : monitor.kdec (tick + 1) (monitor.write (bytes "Tick: ")
      (monitor.moveCursor 0#8 0#8 s)) =
      monitor.putAll (shownTick tick) (monitor.moveCursor 0#8 0#8 s) := by
    rw [meets.write, meets.kdec, shownTick, Monitor.putAll, Monitor.putAll, Monitor.putAll,
      List.foldl_append]
  have whole : monitor.putAll (printed tick) (monitor.moveCursor 0#8 0#8 s) =
      clearLoop monitor 0 (monitor.putAll (shownTick tick) (monitor.moveCursor 0#8 0#8 s)) := by
    rw [cleared, printed, Monitor.putAll, Monitor.putAll, Monitor.putAll, List.foldl_append]
  rw [whole, ← text]
  rfl

theorem length_printed (tick : BitVec 32) :
    (printed tick).length = (81 + (shownTick tick).length) / 2 := by
  have short := length_shownTick_le tick
  rw [printed, List.length_append, List.length_replicate]
  omega

theorem printed_getElem? (tick : BitVec 32) (col : Nat) :
    (printed tick)[col]? =
      if col < (81 + (shownTick tick).length) / 2 then
        some (((shownTick tick)[col]?).getD 0x20#8)
      else none := by
  have length := length_printed tick
  by_cases inside : col < (81 + (shownTick tick).length) / 2
  · rw [if_pos inside, printed]
    by_cases shown : col < (shownTick tick).length
    · rw [List.getElem?_append_left shown, List.getElem?_eq_getElem shown]
      rfl
    · have blank : col - (shownTick tick).length < (81 - (shownTick tick).length) / 2 := by
        omega
      rw [List.getElem?_append_right (by omega), List.getElem?_replicate, if_pos blank,
        List.getElem?_eq_none (by omega)]
      rfl
  · rw [if_neg inside, List.getElem?_eq_none (by omega)]

/-- What a call leaves on the screen: the first row up to the middle is printed, and
all else is as it was. -/
theorem timerCallback_cell (meets : monitor.Meets cell) (tick : BitVec 32) (s : σ) :
    monitor.getCursor (timerCallback monitor tick s).2 = monitor.getCursor s ∧
      ∀ col row, cell (timerCallback monitor tick s).2 col row =
        if row = 0 then ((printed tick)[col]?).getD (cell s col row) else cell s col row := by
  have short := length_shownTick_le tick
  have printable : ∀ ch ∈ printed tick, Printable ch := by
    intro ch member
    rcases List.mem_append.mp member with shown | blank
    · exact printable_shownTick shown
    · rw [List.eq_of_mem_replicate blank]
      decide
  have fits : (0#8).toNat + (printed tick).length ≤ 79 := by
    rw [length_printed, BitVec.toNat_ofNat]
    omega
  have cells := (putAll_spec meets (meets.cursor_move 0#8 0#8 s) (by decide) printable fits).2
  rw [timerCallback_eq meets]
  refine ⟨meets.cursor_move _ _ _, fun col row => ?_⟩
  rw [meets.cell_move, cells, meets.cell_move]
  simp

/-- The row is cleared exactly when the columns behind the middle were blank. -/
theorem clearsLine_iff (meets : monitor.Meets cell) (tick : BitVec 32) (s : σ) :
    ClearsLine monitor cell tick s ↔
      ∀ col, (81 + (shownTick tick).length) / 2 ≤ col → col < 80 → cell s col 0 = 0x20#8 := by
  rcases timerCallback_cell meets tick s with ⟨cursor, cells⟩
  have firstRow : ∀ col, cell (timerCallback monitor tick s).2 col 0 =
      if col < (81 + (shownTick tick).length) / 2 then
        ((shownTick tick)[col]?).getD 0x20#8
      else cell s col 0 := by
    intro col
    rw [cells, if_pos rfl, printed_getElem?]
    by_cases inside : col < (81 + (shownTick tick).length) / 2
    · rw [if_pos inside, if_pos inside, Option.getD_some]
    · rw [if_neg inside, if_neg inside, Option.getD_none]
  constructor
  · rintro ⟨row, -, -⟩ col behind inRow
    have shown := row col inRow
    rw [firstRow, if_neg (by omega), List.getElem?_eq_none (by omega)] at shown
    exact shown
  · intro blank
    refine ⟨fun col inRow => ?_, fun col row other => ?_, cursor⟩
    · rw [firstRow]
      by_cases inside : col < (81 + (shownTick tick).length) / 2
      · rw [if_pos inside]
      · rw [if_neg inside, blank col (by omega) inRow, List.getElem?_eq_none (by omega)]
        rfl
    · rw [cells, if_neg other]

end Monitor

/-- The cursor and the characters shown. -/
abbrev Screen := (BitVec 8 × BitVec 8) × (Nat → Nat → BitVec 8)

def putScreen (ch : BitVec 8) (s : Screen) : Screen :=
  ((s.1.1 + 1#8, s.1.2), fun col row =>
    if col = s.1.1.toNat ∧ row = s.1.2.toNat then ch else s.2 col row)

/-- A monitor with one screen. -/
def screenMonitor : Monitor Screen where
  getCursor s := s.1
  moveCursor x y s := ((x, y), s.2)
  put := putScreen
  write text s := text.foldl (fun s ch => putScreen ch s) s
  kdec n s := (decimal n.toNat).foldl (fun s ch => putScreen ch s) s

theorem screenMonitor_meets : screenMonitor.Meets fun s => s.2 where
  cursor_move _ _ _ := rfl
  cell_move _ _ _ := rfl
  cursor_put := by
    rintro ch ⟨⟨column, row⟩, shown⟩ x y - cursor - -
    obtain ⟨rfl, rfl⟩ := Prod.mk.inj cursor
    rfl
  cell_put := by
    rintro ch ⟨⟨column, row⟩, shown⟩ x y - cursor - - col r
    obtain ⟨rfl, rfl⟩ := Prod.mk.inj cursor
    rfl
  write _ _ := rfl
  kdec _ _ := rfl

/-- A blank screen. -/
theorem clearsLine_iff_blank :
    screenMonitor.Meets (fun s => s.2) ∧
      ClearsLine screenMonitor (fun s => s.2) 0#32 ((3#8, 7#8), fun _ _ => 0x20#8) :=
  ⟨screenMonitor_meets, (clearsLine_iff screenMonitor_meets 0#32 _).mpr fun _ _ _ => rfl⟩

/-- A row full of the letter `x` keeps it in the last column. -/
theorem not_clearsLine_full :
    (timerCallback screenMonitor 0#32 ((3#8, 7#8), fun _ _ => 0x78#8)).2.2 79 0 = 0x78#8 ∧
    ¬ (∀ (σ : Type) (monitor : Monitor σ) (cell : σ → Nat → Nat → BitVec 8),
      monitor.Meets cell → ∀ tick s, ClearsLine monitor cell tick s) := by
  have kept : (timerCallback screenMonitor 0#32 ((3#8, 7#8), fun _ _ => 0x78#8)).2.2 79 0 =
      0x78#8 := by
    have cells := (timerCallback_cell screenMonitor_meets 0#32
      ((3#8, 7#8), fun _ _ => 0x78#8)).2 79 0
    have behind : (printed 0#32)[79]? = none := by decide
    rw [cells, if_pos rfl, behind]
    rfl
  refine ⟨kept, fun all => ?_⟩
  have cleared := (all _ screenMonitor _ screenMonitor_meets 0#32
    ((3#8, 7#8), fun _ _ => 0x78#8)).1 79 (by decide)
  have behind : (shownTick 0#32)[79]? = none := by decide
  rw [behind] at cleared
  exact absurd (kept.symm.trans cleared) (by decide)

end Os88.Interrupt
