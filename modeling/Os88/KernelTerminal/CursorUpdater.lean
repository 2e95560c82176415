/-
Module: Os88.KernelTerminal.CursorUpdater
Purpose: The task `__cursor_updater` of kernel/main.c, which moves the hardware cursor to the
  position of the console, interrupted at any point by tasks that print.
Trusted boundary: the console lies outside the repository and may be moved between any two
  accesses of the task; no other task uses the ports of the CRT controller.
Main exports: Console, Crtc, Place, Task, taskStep, Action, step, started, Holds, Fresh,
  CaughtUp, distance, step_keeps, caught_up, cursor_catches_up_iff
-/
import Os88.Library.Waiting

namespace Os88.KernelTerminal

/-! ## The task -/

/-- The coordinates in `disp->con`. -/
structure Console where
  cx : Int
  cy : Int
deriving DecidableEq

/-- The index register of the CRT controller and its registers `0x0E` and `0x0F`. -/
structure Crtc where
  index : BitVec 8
  high : BitVec 8
  low : BitVec 8
deriving DecidableEq

def Crtc.outportb (port : BitVec 16) (val : BitVec 8) (crtc : Crtc) : Crtc :=
  if port = 0x3D4 then { crtc with index := val }
  else if port = 0x3D5 then
    if crtc.index = 0x0E then { crtc with high := val }
    else if crtc.index = 0x0F then { crtc with low := val }
    else crtc
  else crtc

/-- Where the hardware shows the cursor. -/
def Crtc.cursor (crtc : Crtc) : BitVec 16 := crtc.high ++ crtc.low

/-- The accesses of one pass, in their order. -/
inductive Place where
  | loadFirst
  | loadSecond
  | test
  | selectLow
  | writeLow
  | selectHigh
  | writeHigh
deriving DecidableEq, Repr

/-- The console, the controller and the task, with the coordinate it has loaded. -/
structure Task where
  con : Console
  crtc : Crtc
  place : Place
  loaded : Int
  pos : BitVec 16
  lastpos : BitVec 16

/-- `con.cy*80 + con.cx` in a `uint16_t` -/
def position (cy cx : Int) : BitVec 16 := BitVec.ofInt 16 (cy * 80 + cx)

def Console.position (con : Console) : BitVec 16 := KernelTerminal.position con.cy con.cx

/-- One access of the task.  Which of the two coordinates is loaded first is up to the
compiler. -/
def taskStep (rowFirst : Bool) (t : Task) : Task :=
  match t.place with
  | .loadFirst =>
      { t with loaded := if rowFirst then t.con.cy else t.con.cx, place := .loadSecond }
  | .loadSecond =>
      { t with
        pos := if rowFirst then position t.loaded t.con.cx else position t.con.cy t.loaded
        place := .test }
  | .test =>
      if t.pos = t.lastpos then { t with place := .loadFirst }
      else { t with lastpos := t.pos, place := .selectLow }
  | .selectLow => { t with crtc := t.crtc.outportb 0x3D4 0x0F, place := .writeLow }
  | .writeLow =>
      { t with crtc := t.crtc.outportb 0x3D5 (t.pos.setWidth 8 &&& 0xFF), place := .selectHigh }
  | .selectHigh => { t with crtc := t.crtc.outportb 0x3D4 0x0E, place := .writeHigh }
  | .writeHigh =>
      { t with
        crtc := t.crtc.outportb 0x3D5 ((t.pos >>> 8).setWidth 8 &&& 0xFF)
        place := .loadFirst }

inductive Action where
  | task
  | move (con : Console)

def step (rowFirst : Bool) (t : Task) : Action → Task
  | .task => taskStep rowFirst t
  | .move con => { t with con := con }

/-- The task at its start. -/
def started (con : Console) (crtc : Crtc) : Task where
  con := con
  crtc := crtc
  place := .loadFirst
  loaded := 0
  pos := 0
  lastpos := 0

/-! ## What holds while the console moves -/

/-- The hardware shows the position that was written last, or, as long as none was, what it
showed at the start. -/
def Shows (boot : BitVec 16) (t : Task) : Prop :=
  t.crtc.cursor = t.lastpos ∨ t.lastpos = 0 ∧ t.crtc.cursor = boot

/-- The invariant, by the place of the task. -/
def Holds (boot : BitVec 16) (t : Task) : Prop :=
  match t.place with
  | .loadFirst | .loadSecond | .test => Shows boot t
  | .selectLow => t.lastpos = t.pos
  | .writeLow => t.lastpos = t.pos ∧ t.crtc.index = 0x0F
  | .selectHigh => t.lastpos = t.pos ∧ t.crtc.low = t.pos.setWidth 8
  | .writeHigh => t.lastpos = t.pos ∧ t.crtc.low = t.pos.setWidth 8 ∧ t.crtc.index = 0x0E

theorem and_mask (byte : BitVec 8) : byte &&& 255#8 = byte := by
  rw [show 255#8 = BitVec.allOnes 8 from rfl, BitVec.and_allOnes]

/-- The two bytes of a position make it up again. -/
theorem bytes_position (pos : BitVec 16) :
    (pos >>> 8).setWidth 8 ++ pos.setWidth 8 = pos := by
  apply BitVec.eq_of_getLsbD_eq
  intro i bound
  simp only [BitVec.getLsbD_append, BitVec.getLsbD_setWidth, BitVec.getLsbD_ushiftRight]
  grind

theorem taskStep_keeps {boot : BitVec 16} {t : Task} (rowFirst : Bool) (holds : Holds boot t) :
    Holds boot (taskStep rowFirst t) := by
  rcases t with ⟨con, ⟨index, high, low⟩, place, loaded, pos, lastpos⟩
  cases place with
  | loadFirst => exact holds
  | loadSecond => exact holds
  | test =>
      simp only [taskStep]
      split
      · exact holds
      · rfl
  | selectLow => exact ⟨holds, rfl⟩
  | writeLow =>
      rcases holds with ⟨same, rfl⟩
      refine ⟨same, ?_⟩
      simp [taskStep, Crtc.outportb, and_mask]
  | selectHigh => exact ⟨holds.1, holds.2, rfl⟩
  | writeHigh =>
      rcases holds with ⟨same, isLow, isIndex⟩
      left
      simp only at same isLow isIndex
      subst same isLow isIndex
      simp [taskStep, Crtc.outportb, Crtc.cursor, and_mask, bytes_position]

theorem step_keeps {boot : BitVec 16} {t : Task} (rowFirst : Bool) (action : Action)
    (holds : Holds boot t) : Holds boot (step rowFirst t action) := by
  cases action with
  | task => exact taskStep_keeps rowFirst holds
  | move con =>
      rcases t with ⟨_, crtc, place, loaded, pos, lastpos⟩
      cases place <;> exact holds

/-- Whatever is printed in between. -/
theorem run_keeps {boot : BitVec 16} {t : Task} (rowFirst : Bool) (actions : List Action)
    (holds : Holds boot t) : Holds boot (actions.foldl (step rowFirst) t) := by
  induction actions generalizing t with
  | nil => exact holds
  | cons action actions inductionHypothesis =>
      exact inductionHypothesis (step_keeps rowFirst action holds)

/-! ## The console at rest -/

/-- What the task has loaded in this pass is what the console holds now. -/
def Fresh (rowFirst : Bool) (t : Task) : Prop :=
  match t.place with
  | .loadFirst => True
  | .loadSecond => t.loaded = if rowFirst then t.con.cy else t.con.cx
  | .test | .selectLow | .writeLow | .selectHigh | .writeHigh => t.pos = t.con.position

/-- The task finds nothing to do. -/
def CaughtUp (rowFirst : Bool) (t : Task) : Prop :=
  Fresh rowFirst t ∧ t.lastpos = t.con.position ∧
    (t.place = .loadFirst ∨ t.place = .loadSecond ∨ t.place = .test)

/-- The accesses behind the next one that are left of a pass. -/
def Place.left : Place → Nat
  | .loadFirst => 6
  | .loadSecond => 5
  | .test => 4
  | .selectLow => 3
  | .writeLow => 2
  | .selectHigh => 1
  | .writeHigh => 0

instance (rowFirst : Bool) : ∀ t, Decidable (Fresh rowFirst t)
  | ⟨_, _, .loadFirst, _, _, _⟩ => .isTrue trivial
  | ⟨con, _, .loadSecond, loaded, _, _⟩ =>
      inferInstanceAs (Decidable (loaded = if rowFirst then con.cy else con.cx))
  | ⟨con, _, .test, _, pos, _⟩ | ⟨con, _, .selectLow, _, pos, _⟩
  | ⟨con, _, .writeLow, _, pos, _⟩ | ⟨con, _, .selectHigh, _, pos, _⟩
  | ⟨con, _, .writeHigh, _, pos, _⟩ => inferInstanceAs (Decidable (pos = con.position))

/-- A pass that has loaded something else is followed by another one. -/
def distance (rowFirst : Bool) (t : Task) : Nat :=
  t.place.left + if Fresh rowFirst t then 0 else 7

theorem con_taskStep (rowFirst : Bool) (t : Task) : (taskStep rowFirst t).con = t.con := by
  rcases t with ⟨con, crtc, place, loaded, pos, lastpos⟩
  cases place <;> simp only [taskStep]
  split <;> rfl

theorem fresh_taskStep {rowFirst : Bool} {t : Task} (fresh : Fresh rowFirst t) :
    Fresh rowFirst (taskStep rowFirst t) := by
  rcases t with ⟨con, crtc, place, loaded, pos, lastpos⟩
  cases place with
  | loadFirst => rfl
  | loadSecond =>
      have loadedFirst : loaded = if rowFirst then con.cy else con.cx := fresh
      cases rowFirst <;> subst loadedFirst <;> rfl
  | test =>
      simp only [taskStep]
      split
      · trivial
      · exact fresh
  | selectLow => exact fresh
  | writeLow => exact fresh
  | selectHigh => exact fresh
  | writeHigh => trivial

theorem caughtUp_taskStep {rowFirst : Bool} {t : Task} (caught : CaughtUp rowFirst t) :
    CaughtUp rowFirst (taskStep rowFirst t) := by
  rcases caught with ⟨fresh, shown, early⟩
  refine ⟨fresh_taskStep fresh, ?_, ?_⟩
  · rw [con_taskStep]
    rcases t with ⟨con, crtc, place, loaded, pos, lastpos⟩
    rcases early with rfl | rfl | rfl
    · exact shown
    · exact shown
    · have same : pos = lastpos := Eq.trans fresh shown.symm
      simp only [taskStep, if_pos same]
      exact shown
  · rcases t with ⟨con, crtc, place, loaded, pos, lastpos⟩
    rcases early with rfl | rfl | rfl
    · exact Or.inr (Or.inl rfl)
    · exact Or.inr (Or.inr rfl)
    · have same : pos = lastpos := Eq.trans fresh shown.symm
      simp only [taskStep, if_pos same]
      exact Or.inl trivial

/-- A task that has caught up writes nothing. -/
theorem crtc_taskStep {rowFirst : Bool} {t : Task} (caught : CaughtUp rowFirst t) :
    (taskStep rowFirst t).crtc = t.crtc := by
  rcases t with ⟨con, crtc, place, loaded, pos, lastpos⟩
  rcases caught with ⟨fresh, shown, rfl | rfl | rfl⟩
  · rfl
  · rfl
  · have same : pos = lastpos := Eq.trans fresh shown.symm
    simp only [taskStep, if_pos same]

theorem distance_lt {rowFirst : Bool} {t : Task}
    (nearer : (taskStep rowFirst t).place.left < t.place.left) :
    distance rowFirst (taskStep rowFirst t) < distance rowFirst t := by
  rw [distance, distance]
  by_cases fresh : Fresh rowFirst t
  · rw [if_pos fresh, if_pos (fresh_taskStep fresh)]
    exact nearer
  · rw [if_neg fresh]
    split <;> omega

/-- A pass that loaded something else and has ended. -/
theorem distance_lt_of_stale {rowFirst : Bool} {t : Task} (stale : ¬ Fresh rowFirst t)
    (ended : (taskStep rowFirst t).place = .loadFirst) :
    distance rowFirst (taskStep rowFirst t) < distance rowFirst t := by
  have fresh : Fresh rowFirst (taskStep rowFirst t) := by
    rw [Fresh, ended]
    trivial
  rw [distance, distance, if_neg stale, if_pos fresh, ended]
  show 6 + 0 < t.place.left + 7
  omega

/-- The task comes closer to having caught up. -/
theorem closer_taskStep {boot : BitVec 16} {rowFirst : Bool} {t : Task} (holds : Holds boot t)
    (behind : ¬ CaughtUp rowFirst t) :
    CaughtUp rowFirst (taskStep rowFirst t) ∨
      distance rowFirst (taskStep rowFirst t) < distance rowFirst t := by
  rcases t with ⟨con, crtc, place, loaded, pos, lastpos⟩
  cases place with
  | test =>
      by_cases same : pos = lastpos
      · have stale : ¬ Fresh rowFirst ⟨con, crtc, .test, loaded, pos, lastpos⟩ :=
          fun fresh => behind ⟨fresh, same.symm.trans fresh, Or.inr (Or.inr rfl)⟩
        exact Or.inr (distance_lt_of_stale stale (by simp [taskStep, same]))
      · exact Or.inr (distance_lt (by simp [taskStep, same, Place.left]))
  | writeHigh =>
      by_cases fresh : Fresh rowFirst ⟨con, crtc, .writeHigh, loaded, pos, lastpos⟩
      · have written : lastpos = pos := holds.1
        exact Or.inl ⟨trivial, written.trans fresh, Or.inl rfl⟩
      · exact Or.inr (distance_lt_of_stale fresh rfl)
  | loadFirst => exact Or.inr (distance_lt (Nat.lt_succ_self _))
  | loadSecond => exact Or.inr (distance_lt (Nat.lt_succ_self _))
  | selectLow => exact Or.inr (distance_lt (Nat.lt_succ_self _))
  | writeLow => exact Or.inr (distance_lt (Nat.lt_succ_self _))
  | selectHigh => exact Or.inr (distance_lt (Nat.lt_succ_self _))

theorem distance_le (rowFirst : Bool) (t : Task) : distance rowFirst t ≤ 12 := by
  rcases t with ⟨con, crtc, place, loaded, pos, lastpos⟩
  cases place with
  | loadFirst =>
      have fresh : Fresh rowFirst ⟨con, crtc, .loadFirst, loaded, pos, lastpos⟩ := trivial
      rw [distance, if_pos fresh]
      exact Nat.le_of_ble_eq_true rfl
  | _ =>
      rw [distance]
      split <;> simp [Place.left]

/-- Accesses of the task alone. -/
theorem foldl_task (rowFirst : Bool) (n : Nat) (t : Task) :
    (List.replicate n Action.task).foldl (step rowFirst) t = (taskStep rowFirst)^[n] t := by
  induction n generalizing t with
  | zero => rfl
  | succ n inductionHypothesis =>
      rw [List.replicate_succ, List.foldl_cons, inductionHypothesis]
      rfl

/-- Thirteen accesses after the console was moved last, the task has caught up, and it
stays so. -/
theorem caught_up {boot : BitVec 16} {t : Task} (rowFirst : Bool) (holds : Holds boot t)
    {n : Nat} (enough : 13 ≤ n) :
    Holds boot ((taskStep rowFirst)^[n] t) ∧ CaughtUp rowFirst ((taskStep rowFirst)^[n] t) :=
  @Waiting.settles Task (taskStep rowFirst) (Holds boot) (CaughtUp rowFirst)
    (distance rowFirst) (fun _ => taskStep_keeps rowFirst) (fun _ _ => caughtUp_taskStep)
    (fun _ => closer_taskStep) t holds n (Nat.lt_of_le_of_lt (distance_le rowFirst t) enough)

theorem shows_of_caughtUp {boot : BitVec 16} {rowFirst : Bool} {t : Task}
    (holds : Holds boot t) (caught : CaughtUp rowFirst t) : Shows boot t := by
  rcases t with ⟨con, crtc, place, loaded, pos, lastpos⟩
  rcases caught.2.2 with rfl | rfl | rfl <;> exact holds

/-! ## The hardware cursor -/

/-- Once the console has been at rest for thirteen accesses of the task, the cursor is at its
position. -/
def CatchesUp (rowFirst : Bool) (con : Console) (crtc : Crtc) : Prop :=
  ∀ actions n, 13 ≤ n →
    let t := (actions ++ List.replicate n Action.task).foldl (step rowFirst) (started con crtc)
    t.crtc.cursor = t.con.position

/-- At position 0 the task at its start never writes. -/
theorem idle_at_zero (rowFirst : Bool) (crtc : Crtc) (n : Nat) :
    let t := (taskStep rowFirst)^[n] (started ⟨0, 0⟩ crtc)
    t.crtc = crtc ∧ t.con = ⟨0, 0⟩ ∧ CaughtUp rowFirst t := by
  induction n with
  | zero => exact ⟨rfl, rfl, trivial, rfl, Or.inl rfl⟩
  | succ n inductionHypothesis =>
      rw [Function.iterate_succ_apply']
      rcases inductionHypothesis with ⟨kept, rest, caught⟩
      exact ⟨(crtc_taskStep caught).trans kept, (con_taskStep rowFirst _).trans rest,
        caughtUp_taskStep caught⟩

/-- However the console was moved while the task looked and wrote, the cursor catches up with
it, provided that the hardware shows it at position 0 when the task starts: position 0 is
what the task takes to be shown already. -/
theorem cursor_catches_up_iff (rowFirst : Bool) (con : Console) (crtc : Crtc) :
    CatchesUp rowFirst con crtc ↔ crtc.cursor = 0 := by
  constructor
  · intro catches
    have moved := catches [.move ⟨0, 0⟩] 13 (Nat.le_refl 13)
    rw [List.foldl_append, foldl_task] at moved
    rcases idle_at_zero rowFirst crtc 13 with ⟨kept, rest, -⟩
    change ((taskStep rowFirst)^[13] (started ⟨0, 0⟩ crtc)).crtc.cursor =
      ((taskStep rowFirst)^[13] (started ⟨0, 0⟩ crtc)).con.position at moved
    rw [kept, rest] at moved
    exact moved
  · intro zero actions n enough
    have start : Holds crtc.cursor (started con crtc) := Or.inr ⟨rfl, rfl⟩
    have before := run_keeps rowFirst actions start
    rcases caught_up rowFirst before enough with ⟨holds, caught⟩
    show ((actions ++ List.replicate n Action.task).foldl (step rowFirst)
      (started con crtc)).crtc.cursor = _
    rw [List.foldl_append, foldl_task]
    rcases shows_of_caughtUp holds caught with shown | ⟨unwritten, shown⟩
    · exact shown.trans caught.2.1
    · rw [shown, zero, ← unwritten]
      exact caught.2.1

/-- Twelve accesses are too few when the row was loaded in front of the last move. -/
example : (([Action.task, Action.move ⟨1, 4⟩] ++ List.replicate 12 Action.task).foldl (step true)
    (started ⟨0, 0⟩ ⟨0, 0, 0⟩)).crtc.cursor ≠ (Console.mk 1 4).position := by
  decide

end Os88.KernelTerminal
