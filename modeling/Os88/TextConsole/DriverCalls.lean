/-
Module: Os88.TextConsole.DriverCalls
Purpose: The calls a driver receives while the consoles run, and which runs show
  it nothing but positions of the screen.
Trusted boundary: none
Main exports: DriverCall, TtyDriver.watched, Saw, Operation.StaysInside, exec_saw,
  exec_unwatched, run_saw, driver_sees_valid_positions_iff
-/
import Os88.TextConsole.LineEnds
import Os88.TextConsole.Operations

namespace Os88.TextConsole

open Execution

variable {δ : Type}

/-- A call of one of the callbacks that show a tty, with the coordinates and the
tty it is given. -/
inductive DriverCall where
  | setChar (tty : Tty) (x y : Nat)
  | rerender (tty : Tty)
  | switchHandler (tty : Tty)
  | updateCursorLocation (tty : Tty)

/-- The position of the tty is on the screen. -/
structure Tty.OnScreen (g : Geometry) (tty : Tty) : Prop where
  column : tty.x < g.width
  row : tty.y < g.height

/-- Every position the driver is given is on the screen. -/
def DriverCall.Valid (g : Geometry) : DriverCall → Prop
  | .setChar tty x y => x < g.width ∧ y < g.height ∧ tty.OnScreen g
  | .rerender tty => tty.OnScreen g
  | .switchHandler tty => tty.OnScreen g
  | .updateCursorLocation tty => tty.OnScreen g

/-- A callback that also keeps the call. -/
def logged (call : DriverCall) (callback : δ → δ)
    (device : δ × List DriverCall) : δ × List DriverCall :=
  (callback device.1, device.2 ++ [call])

/-- The same driver on a device that also keeps the list of the calls. -/
def TtyDriver.watched (drv : TtyDriver δ) : TtyDriver (δ × List DriverCall) where
  geometry := drv.geometry
  init := drv.init.map fun init t tty device =>
    ((init t tty device.1).1, (init t tty device.1).2, device.2)
  rerender := drv.rerender.map fun rerender tty =>
    logged (.rerender tty) (rerender tty)
  switchHandler := drv.switchHandler.map fun switchHandler tty =>
    logged (.switchHandler tty) (switchHandler tty)
  updateCursorLocation := drv.updateCursorLocation.map fun update tty =>
    logged (.updateCursorLocation tty) (update tty)
  setChar := drv.setChar.map fun setChar tty x y ch color =>
    logged (.setChar tty x y) (setChar tty x y ch color)

@[simp] theorem TtyDriver.watched_geometry (drv : TtyDriver δ) :
    drv.watched.geometry = drv.geometry := rfl

/-- All calls so far gave positions on the screen. -/
def SawValid (g : Geometry) (c : Console (δ × List DriverCall)) : Prop :=
  ∀ call ∈ c.device.2, call.Valid g

/-! ## When a step is safe to watch -/

/-- The driver has no callback that would show a screen that scrolls. -/
def TtyDriver.IgnoresScroll (drv : TtyDriver δ) : Prop :=
  drv.rerender = none ∧ drv.updateCursorLocation = none

/-- The operation does not end the last line of the screen that is shown: the
line a printed string gets to is counted from the cursor on. -/
def Operation.StaysInside (g : Geometry) (op : Operation) (c : Console δ) : Prop :=
  match op with
  | .print t str =>
      c.currentScreen = some t →
        (c.ttys t).y + lineEnds g.width (c.ttys t).x str < g.height
  | .newline t => c.currentScreen = some t → (c.ttys t).y + 1 < g.height
  | _ => True

/-! ## What the driver sees of one step -/

/-- The calls between the two states are all valid exactly when `good` holds. -/
def Saw (g : Geometry) (good : Prop) (before after : Console (δ × List DriverCall)) :
    Prop :=
  ∃ calls, after.device.2 = before.device.2 ++ calls ∧
    ((∀ call ∈ calls, call.Valid g) ↔ good)

namespace Saw

variable {g : Geometry} {good also : Prop} {c c' c'' : Console (δ × List DriverCall)}

theorem nothing (same : c'.device.2 = c.device.2) : Saw g True c c' :=
  ⟨[], by rw [same, List.append_nil], by simp⟩

theorem trans (one : Saw g good c c') (two : Saw g also c' c'') :
    Saw g (good ∧ also) c c'' := by
  rcases one with ⟨calls, added, valid⟩
  rcases two with ⟨later, added', valid'⟩
  refine ⟨calls ++ later, by rw [added', added, List.append_assoc], ?_⟩
  rw [← valid, ← valid']
  exact List.forall_mem_append

theorem iff (saw : Saw g good c c') (same : good ↔ also) : Saw g also c c' := by
  rcases saw with ⟨calls, added, valid⟩
  exact ⟨calls, added, valid.trans same⟩

/-- Nothing wrong in either step. -/
theorem thenGood (one : Saw g good c c') (two : Saw g True c' c'') : Saw g good c c'' :=
  (one.trans two).iff (and_iff_left trivial)

theorem valid_iff (saw : Saw g good c c') :
    SawValid g c' ↔ SawValid g c ∧ good := by
  rcases saw with ⟨calls, added, valid⟩
  rw [SawValid, added, ← valid]
  exact List.forall_mem_append

/-- A change of a tty behind the driver's back. -/
theorem thenModify (saw : Saw g good c c') (t : TtyId) (f : Tty → Tty) :
    Saw g good c (c'.modify t f) :=
  saw

theorem ofModify {t : TtyId} {f : Tty → Tty} (saw : Saw g good (c.modify t f) c') :
    Saw g good c c' :=
  saw

end Saw

section Calls

variable (drv : TtyDriver δ) {c : Console (δ × List DriverCall)} {t : TtyId}

/-- A callback that is not null shows the call it logs. -/
theorem notify_saw (g : Geometry) (call : DriverCall) (callback : Option (δ → δ)) :
    Saw g (callback = none ∨ call.Valid g) c
      (c.notify (callback.map (logged call))) := by
  cases callback with
  | none => exact (Saw.nothing rfl).iff (by simp)
  | some callback => exact ⟨[call], rfl, by simp⟩

theorem Tty.WellFormed.onScreen {g : Geometry} {tty : Tty}
    (wellFormed : tty.WellFormed g) : tty.OnScreen g :=
  ⟨wellFormed.x_lt, wellFormed.y_lt⟩

/-- The cursor update shows the position of the current screen. -/
theorem ttyUpdateCursorLocation_saw :
    Saw drv.geometry
      (∀ s, c.currentScreen = some s →
        drv.updateCursorLocation = none ∨ (c.ttys s).OnScreen drv.geometry)
      c (ttyUpdateCursorLocation drv.watched c) := by
  unfold ttyUpdateCursorLocation
  cases shown : c.currentScreen with
  | none => exact (Saw.nothing rfl).iff (by simp)
  | some s =>
      have saw := notify_saw (c := c) drv.geometry (.updateCursorLocation (c.ttys s))
        (drv.updateCursorLocation.map fun f => f (c.ttys s))
      rw [Option.map_map] at saw
      simp only [TtyDriver.watched, Option.map_map]
      exact saw.iff (by simp [DriverCall.Valid])

theorem ttyUpdateCursorLocation_sawValid (wellFormed : c.WellFormed drv.geometry) :
    Saw drv.geometry True c (ttyUpdateCursorLocation drv.watched c) :=
  (ttyUpdateCursorLocation_saw drv).iff
    (iff_true_intro fun s _ => Or.inr (wellFormed s).onScreen)

/-- A redraw shows the tty twice. -/
theorem ttyRedraw_saw :
    Saw drv.geometry
      (c.currentScreen = some t →
        drv.IgnoresScroll ∨ (c.ttys t).OnScreen drv.geometry)
      c (ttyRedraw drv.watched t c) := by
  unfold ttyRedraw
  by_cases shown : c.currentScreen = some t
  · rw [if_pos shown]
    have drawn := notify_saw (c := c) drv.geometry (.rerender (c.ttys t))
      (drv.rerender.map fun f => f (c.ttys t))
    rw [Option.map_map] at drawn
    simp only [TtyDriver.watched, Option.map_map]
    refine (drawn.trans (ttyUpdateCursorLocation_saw drv)).iff ?_
    simp only [Console.notify_currentScreen, Console.notify_ttys, shown,
      Option.some.injEq, forall_eq', TtyDriver.IgnoresScroll, forall_const,
      Option.map_eq_none_iff, DriverCall.Valid]
    exact and_or_right.symm
  · rw [if_neg shown]
    exact (Saw.nothing rfl).iff (by simp [shown])

theorem showChar_saw {x y : Nat} (ch : BitVec 8) (color : Color)
    (column : x < drv.geometry.width) (row : y < drv.geometry.height)
    (onScreen : (c.ttys t).OnScreen drv.geometry) :
    Saw drv.geometry True c (showChar drv.watched t x y ch color c) := by
  unfold showChar
  split
  · have saw := notify_saw (c := c) drv.geometry (.setChar (c.ttys t) x y)
      (drv.setChar.map fun f => f (c.ttys t) x y ch color)
    rw [Option.map_map] at saw
    simp only [TtyDriver.watched, Option.map_map]
    exact saw.iff (iff_true_intro (Or.inr ⟨column, row, onScreen⟩))
  · exact Saw.nothing rfl

/-- `tty_switch` shows consoles that keep the invariant. -/
theorem ttySwitch_saw (wellFormed : c.WellFormed drv.geometry) :
    Saw drv.geometry True c (ttySwitch drv.watched t c) := by
  unfold ttySwitch
  split
  · exact Saw.nothing rfl
  · have saw := notify_saw (c := { c with currentScreen := some t }) drv.geometry
      (.switchHandler (c.ttys t)) (drv.switchHandler.map fun f => f (c.ttys t))
    rw [Option.map_map] at saw
    simp only [TtyDriver.watched, Option.map_map]
    have handled := saw.iff (iff_true_intro (Or.inr (wellFormed t).onScreen))
    exact handled.thenGood (ttyUpdateCursorLocation_sawValid drv
      (wellFormed.of_ttys_eq (Console.notify_ttys _ _)))

/-! ## The operations -/

theorem ttyFillColor_saw (color : Color) (wellFormed : (c.ttys t).WellFormed drv.geometry) :
    ∃ c', ttyFillColor drv.watched t color c = some c' ∧
      Saw drv.geometry True c c' := by
  refine ⟨_, ttyFillColor_eq drv.watched t c color wellFormed.mem_length, ?_⟩
  refine Saw.ofModify ((ttyRedraw_saw drv).iff (iff_true_intro fun _ => Or.inr ?_))
  rw [Console.modify_ttys, Function.update_self]
  exact (wellFormed.fillColor color).onScreen

theorem ttyScroll_saw (wellFormed : (c.ttys t).WellFormed drv.geometry) :
    ∃ c', ttyScroll drv.watched t c = some c' ∧ Saw drv.geometry True c c' := by
  refine ⟨_, ttyScroll_eq drv.watched t c wellFormed.mem_length, ?_⟩
  refine Saw.ofModify ((ttyRedraw_saw drv).iff (iff_true_intro fun _ => Or.inr ?_))
  rw [Console.modify_ttys, Function.update_self]
  exact wellFormed.scroll.onScreen

/-- `tty_newline` scrolls while the row of the tty is the one below the screen. -/
theorem ttyNewline_saw (row : (c.ttys t).y < drv.geometry.height)
    (length : (c.ttys t).mem.length = drv.geometry.cells) :
    ∃ c', ttyNewline drv.watched t c = some c' ∧
      Saw drv.geometry
        (c.currentScreen = some t →
          drv.IgnoresScroll ∨ (c.ttys t).y + 1 < drv.geometry.height) c c' := by
  refine ⟨_, ttyNewline_eq drv.watched t c row length, ?_⟩
  by_cases last : drv.watched.geometry.height ≤ (c.ttys t).y + 1
  · have below : ¬ (c.ttys t).y + 1 < drv.geometry.height := Nat.not_lt.mpr last
    rw [if_pos last]
    refine ((Saw.ofModify (ttyRedraw_saw drv)).iff ?_).thenModify t _
    rw [Console.modify_ttys, Function.update_self, Console.modify_currentScreen]
    exact imp_congr_right fun _ =>
      or_congr_right (iff_of_false (fun onScreen => below onScreen.row) below)
  · rw [if_neg last]
    exact (Saw.nothing rfl).iff
      (iff_true_intro fun _ => Or.inr (Nat.not_le.mp last)).symm

/-- The place of the cursor. -/
def Tty.place (tty : Tty) : Place := ⟨tty.y, tty.x⟩

theorem Tty.At.place_eq {tty : Tty} {p : Place} (here : tty.At p) : tty.place = p := by
  rw [Tty.place, here.row, here.column]

/-- What the driver sees of commands at tty `t`: nothing wrong as long as it does
not show the lines that they end, or these are lines of the screen. -/
def SawLines (drv : TtyDriver δ) (t : TtyId) (list : List Command)
    (c c' : Console (δ × List DriverCall)) : Prop :=
  Saw drv.geometry
    (c.currentScreen = some t → drv.IgnoresScroll ∨
      ((c.ttys t).place.obeyAll drv.geometry.width list).line < drv.geometry.height)
    c c'

/-- A step without calls that does not end the line. -/
theorem sawLines_stays (command : Command) {c' : Console (δ × List DriverCall)}
    (row : (c.ttys t).y < drv.geometry.height)
    (stays : ¬ command.EndsLine drv.geometry.width (c.ttys t).x)
    (saw : Saw drv.geometry True c c') : SawLines drv t [command] c c' := by
  refine saw.iff (iff_true_intro fun _ => Or.inr ?_).symm
  have same : (c.ttys t).place.obey drv.geometry.width command =
      ⟨(c.ttys t).y, command.columnAfter (c.ttys t).x⟩ := if_neg stays
  rw [Place.obeyAll, List.foldl_cons, List.foldl_nil, same]
  exact row

/-- One that ends it. -/
theorem sawLines_ends (command : Command) {c' : Console (δ × List DriverCall)}
    (ends : command.EndsLine drv.geometry.width (c.ttys t).x)
    (saw : Saw drv.geometry
      (c.currentScreen = some t →
        drv.IgnoresScroll ∨ (c.ttys t).y + 1 < drv.geometry.height) c c') :
    SawLines drv t [command] c c' := by
  have next : (c.ttys t).place.obey drv.geometry.width command =
      ⟨(c.ttys t).y + 1, 0⟩ := if_pos ends
  rw [SawLines, Place.obeyAll, List.foldl_cons, List.foldl_nil, next]
  exact saw

theorem printGlyph_saw (ch : BitVec 8) (wellFormed : (c.ttys t).WellFormed drv.geometry) :
    ∃ c', printGlyph drv.watched t ch c = some c' ∧
      SawLines drv t [.glyph ch] c c' := by
  have written := wellFormed.setChar (c.ttys t).x (c.ttys t).y ch (c.ttys t).color
  have advanced := afterGlyph_becomes drv.watched t ch c
  have shown : Saw drv.geometry True c (afterGlyph drv.watched t ch c) := by
    refine (Saw.ofModify (showChar_saw drv ch _ wellFormed.x_lt wellFormed.y_lt
      ?_)).thenModify t _
    rw [Console.modify_ttys, Function.update_self]
    exact written.onScreen
  have glyph := printGlyph_eq drv.watched ch wellFormed
  by_cases wraps : drv.watched.geometry.width ≤ (c.ttys t).x + 1
  · obtain ⟨final, ran, saw⟩ :=
      ttyNewline_saw drv (c := afterGlyph drv.watched t ch c) (t := t)
        (by rw [advanced.self]; exact written.y_lt)
        (by rw [advanced.self]; exact written.mem_length)
    rw [if_pos wraps, ran] at glyph
    rw [advanced.currentScreen, advanced.self] at saw
    exact ⟨final, glyph, sawLines_ends drv (.glyph ch) wraps
      ((shown.trans saw).iff (and_iff_right trivial))⟩
  · rw [if_neg wraps] at glyph
    exact ⟨_, glyph, sawLines_stays drv (.glyph ch) wellFormed.y_lt wraps shown⟩

theorem execCommand_saw (command : Command)
    (wellFormed : (c.ttys t).WellFormed drv.geometry) :
    ∃ c', execCommand drv.watched t command c = some c' ∧
      SawLines drv t [command] c c' := by
  cases command with
  | setColor color =>
      exact ⟨_, rfl, sawLines_stays drv _ wellFormed.y_lt id (.nothing rfl)⟩
  | newline =>
      obtain ⟨final, ran, saw⟩ := ttyNewline_saw drv wellFormed.y_lt wellFormed.mem_length
      exact ⟨final, ran, sawLines_ends drv .newline trivial saw⟩
  | carriageReturn =>
      exact ⟨_, rfl, sawLines_stays drv _ wellFormed.y_lt id (.nothing rfl)⟩
  | backspace =>
      by_cases column : (c.ttys t).x = 0
      · exact ⟨c, by simp [execCommand, printByte, column],
          sawLines_stays drv _ wellFormed.y_lt id (.nothing rfl)⟩
      · exact ⟨c.modify t fun tty => { tty with x := tty.x - 1 },
          by simp [execCommand, printByte, column],
          sawLines_stays drv _ wellFormed.y_lt id (.nothing rfl)⟩
  | glyph ch => exact printGlyph_saw drv ch wellFormed

/-- All commands of a string: a line that is left stays left. -/
theorem runAll_execCommand_saw (list : List Command)
    (wellFormed : (c.ttys t).WellFormed drv.geometry) :
    ∃ c', runAll (execCommand drv.watched t) list c = some c' ∧
      SawLines drv t list c c' := by
  induction list generalizing c with
  | nil =>
      exact ⟨c, rfl, (Saw.nothing rfl).iff
        (iff_true_intro fun _ => Or.inr wellFormed.y_lt).symm⟩
  | cons command rest inductionHypothesis =>
      obtain ⟨middle, ran, saw⟩ := execCommand_saw drv command wellFormed
      obtain ⟨_, ran', changed⟩ := execCommand_effect drv.watched command c wellFormed
      obtain rfl := Option.some.inj (ran.symm.trans ran')
      have tty : middle.ttys t = (c.ttys t).step drv.geometry command := changed.self
      obtain ⟨final, later, saw'⟩ := inductionHypothesis (c := middle) (by
        rw [tty]
        exact wellFormed.step command)
      refine ⟨final, by rw [runAll_cons, ran, Option.bind_some, later],
        (saw.trans saw').iff ?_⟩
      rw [changed.currentScreen, tty, ← imp_and, ← or_and_left]
      refine imp_congr_right fun _ => or_congr_right ?_
      have here : (c.ttys t).At (c.ttys t).place := ⟨rfl, rfl⟩
      constructor
      · rintro ⟨once, all⟩
        have moved : ((c.ttys t).step drv.geometry command).At
            ((c.ttys t).place.obey drv.geometry.width command) := here.step once
        rw [moved.place_eq] at all
        exact all
      · intro all
        have once : ((c.ttys t).place.obey drv.geometry.width command).line <
            drv.geometry.height :=
          Nat.lt_of_le_of_lt (Place.line_le_obeyAll rest) all
        have moved : ((c.ttys t).step drv.geometry command).At
            ((c.ttys t).place.obey drv.geometry.width command) := here.step once
        refine ⟨once, ?_⟩
        rw [moved.place_eq]
        exact all

/-- `tty_print` shows its tty with every character, and the cursor at the end. -/
theorem ttyPrint_saw (str : List (BitVec 8)) (wellFormed : c.WellFormed drv.geometry) :
    ∃ n c', ttyPrint drv.watched t str c = some (n, c') ∧
      SawLines drv t (commands str) c c' := by
  obtain ⟨final, ran, saw⟩ := runAll_execCommand_saw drv (commands str) (wellFormed t)
  obtain ⟨_, ran', changed⟩ :=
    runAll_execCommand_effect drv.watched (commands str) (wellFormed t)
  obtain rfl := Option.some.inj (ran.symm.trans ran')
  have kept : final.WellFormed drv.geometry :=
    changed.wellFormed wellFormed ((wellFormed t).steps (commands str))
  have looped : printLoop drv.watched t str 0 c = some (textLength str, final) := by
    rw [printLoop_eq_runAll, ran, Option.map_some, Nat.zero_add]
  refine ⟨textLength str, _, by rw [ttyPrint, looped]; rfl, ?_⟩
  by_cases shown : final.currentScreen = some t
  · rw [if_pos shown]
    exact Saw.thenGood saw (ttyUpdateCursorLocation_sawValid drv kept)
  · rw [if_neg shown]
    exact saw

theorem setStringLoop_saw {xOffset yOffset width : Nat} (color : Color)
    (str : List (BitVec 8)) (i : Nat)
    (inRange : BoxInRange drv.geometry xOffset yOffset width i (i + textLength str))
    (wellFormed : c.WellFormed drv.geometry) :
    ∃ c', setStringLoop drv.watched t xOffset yOffset width color i str c = some c' ∧
      Saw drv.geometry True c c' := by
  induction str generalizing i c with
  | nil => exact ⟨c, rfl, .nothing rfl⟩
  | cons ch rest inductionHypothesis =>
      by_cases ended : ch = 0
      · exact ⟨c, by rw [setStringLoop, if_pos ended], .nothing rfl⟩
      · rw [textLength_cons ended] at inRange
        rcases inRange i (Nat.le_refl i) (by omega) with ⟨positive, column, row⟩
        have written := (wellFormed t).setChar (xOffset + i % width)
          (yOffset + i / width) ch color
        have shown : Saw drv.geometry True c (afterSetChar drv.watched t
            (xOffset + i % width) (yOffset + i / width) ch color c) := by
          refine Saw.ofModify (showChar_saw drv ch color column row ?_)
          rw [Console.modify_ttys, Function.update_self]
          exact written.onScreen
        obtain ⟨final, ran, saw⟩ := inductionHypothesis (i + 1)
          (fun k lower upper => inRange k (by omega) (by omega))
          ((afterSetChar_becomes drv.watched t _ _ ch color c).wellFormed wellFormed
            written)
        refine ⟨final, ?_, shown.thenGood saw⟩
        rw [setStringLoop_step drv.watched ended rest color positive column row
          (wellFormed t).mem_length]
        exact ran

/-- Every operation in range. -/
theorem exec_saw (op : Operation) (inRange : op.InRange drv.geometry)
    (wellFormed : c.WellFormed drv.geometry) :
    ∃ c', op.exec drv.watched c = some c' ∧
      Saw drv.geometry (drv.IgnoresScroll ∨ op.StaysInside drv.geometry c) c c' := by
  have harmless : ∀ {c'}, Saw drv.geometry True c c' →
      Saw drv.geometry (drv.IgnoresScroll ∨ True) c c' :=
    fun saw => saw.iff (iff_true_intro (Or.inr trivial)).symm
  cases op with
  | print t str =>
      obtain ⟨n, final, ran, saw⟩ := ttyPrint_saw drv (t := t) str wellFormed
      refine ⟨final, by rw [Operation.exec, ran]; rfl, saw.iff ?_⟩
      rw [Operation.StaysInside, ← lineEnds_add]
      exact forall_or_left
  | setChar t x y ch color =>
      refine ⟨_, ttySetChar_eq drv.watched t c ch color inRange.1 inRange.2
        (wellFormed t).mem_length, harmless (Saw.ofModify
          (showChar_saw drv ch color inRange.1 inRange.2 ?_))⟩
      rw [Console.modify_ttys, Function.update_self]
      exact ((wellFormed t).setChar x y ch color).onScreen
  | setString t xOffset yOffset width str color =>
      obtain ⟨final, ran, saw⟩ := setStringLoop_saw drv color str 0
        (by rw [Nat.zero_add]; exact inRange) (t := t) wellFormed
      exact ⟨final, ran, harmless saw⟩
  | newline t =>
      obtain ⟨final, ran, saw⟩ :=
        ttyNewline_saw drv (wellFormed t).y_lt (wellFormed t).mem_length
      exact ⟨final, ran, saw.iff forall_or_left⟩
  | scroll t =>
      obtain ⟨final, ran, saw⟩ := ttyScroll_saw drv (wellFormed t)
      exact ⟨final, ran, harmless saw⟩
  | fillColor t color =>
      obtain ⟨final, ran, saw⟩ := ttyFillColor_saw drv color (wellFormed t)
      exact ⟨final, ran, harmless saw⟩
  | clear t =>
      obtain ⟨final, ran, saw⟩ := ttyFillColor_saw drv 0 (wellFormed t)
      exact ⟨final, ran, harmless saw⟩
  | switch t => exact ⟨_, rfl, harmless (ttySwitch_saw drv wellFormed)⟩
  | setCurrent t => exact ⟨_, rfl, harmless (.nothing rfl)⟩
  | setColor color => exact ⟨_, rfl, harmless (.nothing rfl)⟩

end Calls

/-! ## Without the list of calls -/

def Console.unwatched (c : Console (δ × List DriverCall)) : Console δ where
  ttys := c.ttys
  currentScreen := c.currentScreen
  currentTty := c.currentTty
  threadTty := c.threadTty
  device := c.device.1

section Unwatched

variable (drv : TtyDriver δ) (c : Console (δ × List DriverCall)) (t : TtyId)

theorem notify_unwatched (callback : Option (δ → δ)) (call : DriverCall) :
    (c.notify (callback.map (logged call))).unwatched =
      c.unwatched.notify callback := by
  cases callback <;> rfl

theorem ttyUpdateCursorLocation_unwatched :
    (ttyUpdateCursorLocation drv.watched c).unwatched =
      ttyUpdateCursorLocation drv c.unwatched := by
  unfold ttyUpdateCursorLocation
  have screen : c.unwatched.currentScreen = c.currentScreen := rfl
  rw [screen]
  cases c.currentScreen with
  | none => rfl
  | some s =>
      have same := notify_unwatched c (drv.updateCursorLocation.map fun f => f (c.ttys s))
        (.updateCursorLocation (c.ttys s))
      rw [Option.map_map] at same
      simp only [TtyDriver.watched, Option.map_map]
      exact same

theorem ttyRedraw_unwatched :
    (ttyRedraw drv.watched t c).unwatched = ttyRedraw drv t c.unwatched := by
  have same := notify_unwatched c (drv.rerender.map fun f => f (c.ttys t))
    (.rerender (c.ttys t))
  rw [Option.map_map] at same
  have screen : c.unwatched.currentScreen = c.currentScreen := rfl
  unfold ttyRedraw
  rw [screen]
  split
  · rw [ttyUpdateCursorLocation_unwatched]
    simp only [TtyDriver.watched, Option.map_map]
    exact congrArg _ same
  · rfl

theorem ttyFillColor_unwatched (color : Color) :
    (ttyFillColor drv.watched t color c).map Console.unwatched =
      ttyFillColor drv t color c.unwatched := by
  have mem : (c.unwatched.ttys t).mem = (c.ttys t).mem := rfl
  unfold ttyFillColor
  rw [mem]
  cases filled : countLoop (fun i mem => store32 mem i (fillWord color))
    0 (sizeT (drv.geometry.width * drv.geometry.height) / 2) (c.ttys t).mem with
  | none => simp [TtyDriver.watched, filled]
  | some mem =>
      simp only [TtyDriver.watched, filled, Option.bind_eq_bind, Option.bind_some]
      exact congrArg some (ttyRedraw_unwatched drv _ t)

theorem ttyScroll_unwatched :
    (ttyScroll drv.watched t c).map Console.unwatched =
      ttyScroll drv t c.unwatched := by
  have mem : (c.unwatched.ttys t).mem = (c.ttys t).mem := rfl
  unfold ttyScroll
  rw [mem]
  cases copied : countLoop (scrollPass drv.geometry) 0
    (sizeT (drv.geometry.width * (drv.geometry.height - 1)) / 2) (c.ttys t).mem with
  | none => simp [TtyDriver.watched, copied]
  | some moved =>
      simp only [TtyDriver.watched, copied, Option.bind_eq_bind, Option.bind_some]
      cases countLoop (fun i mem => store32 mem i 0)
        (sizeT (drv.geometry.width * (drv.geometry.height - 1)) / 2)
        (sizeT (drv.geometry.width * drv.geometry.height) / 2 -
          sizeT (drv.geometry.width * (drv.geometry.height - 1)) / 2) moved with
      | none => rfl
      | some mem => exact congrArg some (ttyRedraw_unwatched drv _ t)

/-- A step after a step. -/
theorem bind_unwatched {one : Option (Console (δ × List DriverCall))}
    {one' : Option (Console δ)} (same : one.map Console.unwatched = one')
    {two : Console (δ × List DriverCall) → Option (Console (δ × List DriverCall))}
    {two' : Console δ → Option (Console δ)}
    (follow : ∀ c, (two c).map Console.unwatched = two' c.unwatched) :
    (one.bind two).map Console.unwatched = one'.bind two' := by
  subst same
  cases one with
  | none => rfl
  | some c => exact follow c

theorem ttyNewline_unwatched :
    (ttyNewline drv.watched t c).map Console.unwatched =
      ttyNewline drv t c.unwatched := by
  have scrolled := ttyScroll_unwatched drv
    (c.modify t fun tty => { tty with x := 0, y := sizeT (tty.y + 1) }) t
  have row : ((c.modify t fun tty => { tty with x := 0, y := sizeT (tty.y + 1) }).ttys
      t).y = sizeT ((c.ttys t).y + 1) := by simp
  have row' : ((c.unwatched.modify t
      fun tty => { tty with x := 0, y := sizeT (tty.y + 1) }).ttys t).y =
        sizeT ((c.ttys t).y + 1) := row
  simp only [ttyNewline, TtyDriver.watched_geometry, row, row']
  by_cases last : drv.geometry.height ≤ sizeT ((c.ttys t).y + 1)
  · rw [if_pos last, if_pos last]
    exact bind_unwatched scrolled fun _ => rfl
  · rw [if_neg last, if_neg last]
    rfl

theorem showChar_unwatched (x y : Nat) (ch : BitVec 8) (color : Color) :
    (showChar drv.watched t x y ch color c).unwatched =
      showChar drv t x y ch color c.unwatched := by
  have same := notify_unwatched c (drv.setChar.map fun f => f (c.ttys t) x y ch color)
    (.setChar (c.ttys t) x y)
  rw [Option.map_map] at same
  have screen : c.unwatched.currentScreen = c.currentScreen := rfl
  unfold showChar
  rw [screen]
  split
  · simp only [TtyDriver.watched, Option.map_map]
    exact same
  · rfl

theorem ttySetChar_unwatched (x y : Nat) (ch : BitVec 8) (color : Color) :
    (ttySetChar drv.watched t x y ch color c).map Console.unwatched =
      ttySetChar drv t x y ch color c.unwatched := by
  have mem : (c.unwatched.ttys t).mem = (c.ttys t).mem := rfl
  unfold ttySetChar
  rw [mem]
  cases stored : store16 (c.ttys t).mem (sizeT (x + y * drv.geometry.width))
    (cellValue ch color) with
  | none => simp [TtyDriver.watched, stored]
  | some mem =>
      simp only [TtyDriver.watched, stored, Option.bind_eq_bind, Option.bind_some]
      exact congrArg some (showChar_unwatched drv _ t x y ch color)

theorem printGlyph_unwatched (ch : BitVec 8) :
    (printGlyph drv.watched t ch c).map Console.unwatched =
      printGlyph drv t ch c.unwatched := by
  have stored :=
    ttySetChar_unwatched drv c t (c.ttys t).x (c.ttys t).y ch (c.ttys t).color
  refine bind_unwatched stored fun c' => ?_
  have advanced : (c'.modify t fun tty => { tty with x := sizeT (tty.x + 1) }).unwatched =
      c'.unwatched.modify t fun tty => { tty with x := sizeT (tty.x + 1) } := rfl
  rw [← advanced]
  by_cases wraps : drv.geometry.width ≤
      ((c'.modify t fun tty => { tty with x := sizeT (tty.x + 1) }).ttys t).x
  · exact (congrArg _ (if_pos wraps)).trans
      ((ttyNewline_unwatched drv _ t).trans (if_pos wraps).symm)
  · exact (congrArg _ (if_neg wraps)).trans (if_neg wraps).symm

theorem printByte_unwatched (ch : BitVec 8) :
    (printByte drv.watched t ch c).map Console.unwatched =
      printByte drv t ch c.unwatched := by
  unfold printByte
  split
  · exact ttyNewline_unwatched drv c t
  · split
    · rfl
    · split
      · have column : (c.unwatched.ttys t).x = (c.ttys t).x := rfl
        rw [column]
        split <;> rfl
      · exact printGlyph_unwatched drv c t ch

theorem execCommand_unwatched (command : Command) :
    (execCommand drv.watched t command c).map Console.unwatched =
      execCommand drv t command c.unwatched := by
  cases command with
  | setColor color => rfl
  | newline => exact printByte_unwatched drv c t 0x0A
  | carriageReturn => exact printByte_unwatched drv c t 0x0D
  | backspace => exact printByte_unwatched drv c t 0x08
  | glyph ch => exact printGlyph_unwatched drv c t ch

theorem runAll_unwatched {ι : Type}
    {step : ι → Console (δ × List DriverCall) → Option (Console (δ × List DriverCall))}
    {step' : ι → Console δ → Option (Console δ)}
    (same : ∀ i c, (step i c).map Console.unwatched = step' i c.unwatched) (list : List ι) :
    (runAll step list c).map Console.unwatched = runAll step' list c.unwatched := by
  induction list generalizing c with
  | nil => rfl
  | cons i rest inductionHypothesis =>
      rw [runAll_cons, runAll_cons]
      exact bind_unwatched (same i c) fun c' => inductionHypothesis c'

theorem ttyPrint_snd {ε : Type} (drv : TtyDriver ε) (c : Console ε) (t : TtyId)
    (str : List (BitVec 8)) :
    (ttyPrint drv t str c).map Prod.snd =
      (runAll (execCommand drv t) (commands str) c).bind fun c =>
        some (if c.currentScreen = some t then ttyUpdateCursorLocation drv c else c) := by
  rw [ttyPrint, printLoop_eq_runAll]
  cases runAll (execCommand drv t) (commands str) c <;> rfl

theorem setStringLoop_unwatched (xOffset yOffset width : Nat) (color : Color)
    (str : List (BitVec 8)) (i : Nat) :
    (setStringLoop drv.watched t xOffset yOffset width color i str c).map
        Console.unwatched =
      setStringLoop drv t xOffset yOffset width color i str c.unwatched := by
  induction str generalizing i c with
  | nil => rfl
  | cons ch rest inductionHypothesis =>
      rw [setStringLoop, setStringLoop]
      split
      · rfl
      · split
        · rfl
        · exact bind_unwatched (ttySetChar_unwatched drv c t _ _ ch color)
            fun c' => inductionHypothesis c' (i + 1)

theorem ttySwitch_unwatched :
    (ttySwitch drv.watched t c).unwatched = ttySwitch drv t c.unwatched := by
  have same := notify_unwatched { c with currentScreen := some t }
    (drv.switchHandler.map fun f => f (c.ttys t)) (.switchHandler (c.ttys t))
  rw [Option.map_map] at same
  have screen : c.unwatched.currentScreen = c.currentScreen := rfl
  unfold ttySwitch
  rw [screen]
  split
  · rfl
  · rw [ttyUpdateCursorLocation_unwatched]
    simp only [TtyDriver.watched, Option.map_map]
    exact congrArg _ same

/-- The list of calls is an observer: without it the operations are those of the
driver itself. -/
theorem exec_unwatched (op : Operation) :
    (op.exec drv.watched c).map Console.unwatched = op.exec drv c.unwatched := by
  cases op with
  | print t str =>
      rw [Operation.exec, Operation.exec, ttyPrint_snd, ttyPrint_snd]
      refine bind_unwatched (runAll_unwatched c
        (fun command c' => execCommand_unwatched drv c' t command) (commands str))
        fun c' => ?_
      have screen : c'.unwatched.currentScreen = c'.currentScreen := rfl
      rw [screen]
      split
      · exact congrArg some (ttyUpdateCursorLocation_unwatched drv c')
      · rfl
  | setChar t x y ch color => exact ttySetChar_unwatched drv c t x y ch color
  | setString t xOffset yOffset width str color =>
      exact setStringLoop_unwatched drv c t xOffset yOffset width color str 0
  | newline t => exact ttyNewline_unwatched drv c t
  | scroll t => exact ttyScroll_unwatched drv c t
  | fillColor t color => exact ttyFillColor_unwatched drv c t color
  | clear t => exact ttyFillColor_unwatched drv c t 0
  | switch t => exact congrArg some (ttySwitch_unwatched drv c t)
  | setCurrent t => rfl
  | setColor color => rfl

theorem initTty_unwatched (threadTty : Option TtyId) (device : δ) :
    (initTty drv.watched threadTty (device, [])).unwatched =
      initTty drv threadTty device := by
  have once : ∀ (c : Console (δ × List DriverCall)) (i : TtyId),
      (initOne drv.watched c i).unwatched = initOne drv c.unwatched i := by
    intro c i
    unfold initOne
    cases callback : drv.init with
    | none => simp [TtyDriver.watched, callback]; rfl
    | some init => simp [TtyDriver.watched, callback]; rfl
  have loop : ∀ (ids : List TtyId) (c : Console (δ × List DriverCall)),
      (ids.foldl (initOne drv.watched) c).unwatched =
        ids.foldl (initOne drv) c.unwatched := by
    intro ids
    induction ids with
    | nil => exact fun c => rfl
    | cons i rest inductionHypothesis =>
        intro c
        rw [List.foldl_cons, List.foldl_cons, inductionHypothesis, once]
  unfold initTty
  rw [ttySwitch_unwatched, loop]
  rfl

end Unwatched

/-! ## Runs -/

section Runs

variable (drv : TtyDriver δ) {c : Console (δ × List DriverCall)}

/-- From a state that keeps the invariant a run in range comes to its end, and
what the driver saw at its end is valid exactly when it was valid before and no
operation made it invalid. -/
theorem run_saw (ops : List Operation)
    (inRange : ∀ op ∈ ops, op.InRange drv.geometry)
    (wellFormed : c.WellFormed drv.geometry) :
    ∃ c', runAll (Operation.exec drv.watched) ops c = some c' ∧
      (SawValid drv.geometry c' ↔ SawValid drv.geometry c ∧
        (drv.IgnoresScroll ∨ RunMeets (Operation.exec drv)
          (Operation.StaysInside drv.geometry) ops c.unwatched)) := by
  induction ops generalizing c with
  | nil => exact ⟨c, rfl, by simp [RunMeets]⟩
  | cons op rest inductionHypothesis =>
      have here := inRange op (List.mem_cons_self ..)
      obtain ⟨middle, ran, saw⟩ := exec_saw drv op here wellFormed
      obtain ⟨_, ran', kept⟩ := exec_wellFormed drv.watched op here wellFormed
      obtain rfl := Option.some.inj (ran.symm.trans ran')
      obtain ⟨final, finished, valid⟩ := inductionHypothesis
        (fun op' member => inRange op' (List.mem_cons_of_mem op member)) kept
      refine ⟨final, by rw [runAll_cons, ran, Option.bind_some, finished], ?_⟩
      have alone : op.exec drv c.unwatched = some middle.unwatched := by
        rw [← exec_unwatched, ran, Option.map_some]
      have next : (∀ s', op.exec drv c.unwatched = some s' →
            RunMeets (Operation.exec drv) (Operation.StaysInside drv.geometry) rest s') ↔
          RunMeets (Operation.exec drv) (Operation.StaysInside drv.geometry) rest
            middle.unwatched := by
        simp only [alone, Option.some.injEq, forall_eq']
      have here' : op.StaysInside drv.geometry c ↔
          op.StaysInside drv.geometry c.unwatched := Iff.rfl
      rw [valid, saw.valid_iff, RunMeets, next, here', and_assoc, ← or_and_left]

theorem watched_givesMemory {drv : TtyDriver δ} (memory : drv.GivesMemory) :
    drv.watched.GivesMemory := by
  rcases memory with ⟨init, present, gives⟩
  refine ⟨fun t tty device =>
    ((init t tty device.1).1, (init t tty device.1).2, device.2), ?_, ?_⟩
  · simp [TtyDriver.watched, present]
  · exact fun t tty device => gives t tty device.1

/-- The loop of `init_tty` shows nothing. -/
theorem initLoop_saw (ids : List TtyId) :
    Saw drv.geometry True c (ids.foldl (initOne drv.watched) c) := by
  induction ids generalizing c with
  | nil => exact .nothing rfl
  | cons i ids inductionHypothesis =>
      have once : Saw drv.geometry True c (initOne drv.watched c i) := by
        refine .nothing ?_
        unfold initOne
        cases callback : drv.init <;> simp [TtyDriver.watched, callback, ttyInit]
      exact once.thenGood inductionHypothesis

/-- `init_tty` shows the cleared cursor of its first screen. -/
theorem initTty_sawValid (memory : drv.GivesMemory) (threadTty : Option TtyId)
    (device : δ) :
    SawValid drv.geometry (initTty drv.watched threadTty (device, [])) := by
  refine ((initLoop_saw drv (List.finRange 8)).thenGood (ttySwitch_saw drv
    (initLoop_wellFormed drv.watched (watched_givesMemory memory) _ _ ?_))).valid_iff.mpr
      ⟨?_, trivial⟩
  · intro t absent
    exact absurd (List.mem_finRange t) absent
  · simp [SawValid]

/-- The driver sees only valid positions exactly when it ignores scrolling, or no
operation of the run ends the last line of the screen that is shown. -/
theorem driver_sees_valid_positions_iff (memory : drv.GivesMemory)
    (threadTty : Option TtyId) (device : δ) (ops : List Operation)
    (inRange : ∀ op ∈ ops, op.InRange drv.geometry) :
    (∃ c, runAll (Operation.exec drv.watched) ops
        (initTty drv.watched threadTty (device, [])) = some c ∧
      SawValid drv.geometry c) ↔
    drv.IgnoresScroll ∨ RunMeets (Operation.exec drv)
      (Operation.StaysInside drv.geometry) ops (initTty drv threadTty device) := by
  obtain ⟨final, ran, valid⟩ := run_saw drv ops inRange
    (initTty_wellFormed drv.watched (watched_givesMemory memory) threadTty (device, []))
  rw [initTty_unwatched,
    and_iff_right (initTty_sawValid drv memory threadTty device)] at valid
  rw [← valid]
  constructor
  · rintro ⟨final', ran', saw⟩
    obtain rfl := Option.some.inj (ran.symm.trans ran')
    exact saw
  · exact fun saw => ⟨final, ran, saw⟩

end Runs

/-- A driver that redraws the screen when it is asked to. -/
def redrawingDriver (g : Geometry) : TtyDriver Unit :=
  { plainDriver g with rerender := some fun _ device => device }

theorem driver_sees_valid_positions_iff_text_mode :
    (∃ c, runAll
        (Operation.exec
          (redrawingDriver ⟨80, 25, by decide, by decide, by decide⟩).watched)
        [.print 0 [0x48, 0x69, 0x0A]]
        (initTty (redrawingDriver ⟨80, 25, by decide, by decide, by decide⟩).watched none
          ((), [])) = some c ∧
      SawValid ⟨80, 25, by decide, by decide, by decide⟩ c) ↔
    (redrawingDriver ⟨80, 25, by decide, by decide, by decide⟩).IgnoresScroll ∨
      RunMeets
        (Operation.exec (redrawingDriver ⟨80, 25, by decide, by decide, by decide⟩))
        (Operation.StaysInside ⟨80, 25, by decide, by decide, by decide⟩)
        [.print 0 [0x48, 0x69, 0x0A]]
        (initTty (redrawingDriver ⟨80, 25, by decide, by decide, by decide⟩) none ()) :=
  driver_sees_valid_positions_iff
    (redrawingDriver ⟨80, 25, by decide, by decide, by decide⟩)
    (plainDriver_givesMemory _) none () _ (by simp [Operation.InRange])

/-- 25 newlines: the screen is redrawn while its cursor is in row 25. -/
theorem redraw_below_screen :
    ¬ ∃ c, runAll
        (Operation.exec
          (redrawingDriver ⟨80, 25, by decide, by decide, by decide⟩).watched)
        [.print 0 (List.replicate 25 0x0A)]
        (initTty (redrawingDriver ⟨80, 25, by decide, by decide, by decide⟩).watched none
          ((), [])) = some c ∧
      SawValid ⟨80, 25, by decide, by decide, by decide⟩ c := by
  rintro ⟨final', ran', saw⟩
  obtain ⟨final, ran, valid⟩ := run_saw
    (redrawingDriver ⟨80, 25, by decide, by decide, by decide⟩)
    [.print 0 (List.replicate 25 0x0A)] (by simp [Operation.InRange])
    (initTty_wellFormed _
      (watched_givesMemory (plainDriver_givesMemory ⟨80, 25, by decide, by decide, by decide⟩))
      none ((), []))
  obtain rfl := Option.some.inj (ran.symm.trans ran')
  rcases (valid.mp saw).2 with ignores | ⟨inside, -⟩
  · exact absurd ignores.1 (by simp [redrawingDriver])
  · exact absurd (inside rfl) (by decide)

end Os88.TextConsole
