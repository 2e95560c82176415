/-
Module: Os88.Boot.Scheduler
Purpose: The loop at the end of `kernel_main` that runs scheduled handlers, interleaved with
  the rest of the kernel: which handlers run, how often and when.
Trusted boundary: `InterruptManager` is declared only.  The rest of the kernel takes a free
  entry for a new handler, and advances the frame counters; it does nothing else to the table.
Main exports: ScheduleEntry, InterruptManager, Kernel, mainStep, Action, step, Alternates,
  Undisturbed, Inv, step_keeps, jobs_run_once_iff, call_is_due, dueEntries, AfterCalls,
  pass_calls_due
-/
import Os88.Library.Execution
import Mathlib.Logic.Function.Iterate

namespace Os88.Boot

open Execution

structure ScheduleEntry where
  free : Bool
  handlerAddress : BitVec 32
  currentFrame : BitVec 32
  lastFrame : BitVec 32

structure InterruptManager where
  ScheduleEnabled : Bool
  ScheduleEntries : Nat → ScheduleEntry

/-- Where `kernel_main` stands: at `while(1)`, or in the `for` loop at the entry `int_num`. -/
inductive Position where
  | whileTrue
  | isNull (int_num : Nat)
  | isFree (int_num : Nat)
  | isDue (int_num : Nat)
  | disable (int_num : Nat)
  | release (int_num : Nat)
  | call (int_num : Nat)
  | enable (int_num : Nat)
deriving DecidableEq, Repr

inductive Event where
  | scheduled (int_num : Nat) (handler : BitVec 32)
  | called (int_num : Nat) (handler : BitVec 32)
deriving DecidableEq, Repr

/-- `trace` has the last event first. -/
structure Kernel where
  manager : InterruptManager
  position : Position
  trace : List Event

namespace Kernel

def entry (k : Kernel) (int_num : Nat) : ScheduleEntry := k.manager.ScheduleEntries int_num

def setEntry (k : Kernel) (int_num : Nat) (entry : ScheduleEntry) : Kernel :=
  { k with manager := { k.manager with
      ScheduleEntries := fun n => if n = int_num then entry else k.entry n } }

def setEnabled (k : Kernel) (enabled : Bool) : Kernel :=
  { k with manager := { k.manager with ScheduleEnabled := enabled } }

def goto (k : Kernel) (position : Position) : Kernel := { k with position }

/-- `int_num++` and the test of the loop. -/
def nextEntry (int_num : Nat) : Position :=
  if int_num + 1 < 256 then .isNull (int_num + 1) else .whileTrue

/-- One step of `kernel_main`.  While the handler that is called runs, the loop stands at
`enable`. -/
def mainStep (k : Kernel) : Kernel :=
  match k.position with
  | .whileTrue => if k.manager.ScheduleEnabled then k.goto (.isNull 0) else k
  | .isNull n => if (k.entry n).handlerAddress = 0 then k.goto .whileTrue else k.goto (.isFree n)
  | .isFree n => if (k.entry n).free then k.goto (nextEntry n) else k.goto (.isDue n)
  | .isDue n =>
      if (k.entry n).lastFrame.toNat ≤ (k.entry n).currentFrame.toNat then k.goto (.disable n)
      else k.goto (nextEntry n)
  | .disable n => (k.setEnabled false).goto (.release n)
  | .release n => (k.setEntry n { k.entry n with free := true }).goto (.call n)
  | .call n => { k.goto (.enable n) with trace := .called n (k.entry n).handlerAddress :: k.trace }
  | .enable n => (k.setEnabled true).goto (nextEntry n)

end Kernel

open Kernel

/-- A step of the kernel: of the loop, or of the rest, in an interrupt or in a handler. -/
inductive Action where
  | main
  | schedule (int_num : Nat) (handler currentFrame lastFrame : BitVec 32)
  | frames (currentFrame : Nat → BitVec 32)

def step (action : Action) (k : Kernel) : Option Kernel :=
  match action with
  | .main => some k.mainStep
  | .schedule n handler currentFrame lastFrame =>
      if (k.entry n).free then
        some { k.setEntry n ⟨false, handler, currentFrame, lastFrame⟩ with
          trace := .scheduled n handler :: k.trace }
      else none
  | .frames currentFrame =>
      if ∀ n ∈ List.range 256, (k.entry n).currentFrame.toNat ≤ (currentFrame n).toNat then
        some { k with manager := { k.manager with ScheduleEntries := fun n =>
          { k.entry n with currentFrame := currentFrame n } } }
      else none

/-! ## Jobs -/

/-- The handler that was scheduled in an entry and not called since. -/
def pending : List Event → Nat → Option (BitVec 32)
  | [], _ => none
  | .scheduled m handler :: before, n => if n = m then some handler else pending before n
  | .called m _ :: before, n => if n = m then none else pending before n

/-- In each entry, handlers are scheduled and called in turns, and a call is of the handler
that was scheduled. -/
def Alternates : List Event → Prop
  | [] => True
  | .scheduled n _ :: before => pending before n = none ∧ Alternates before
  | .called n handler :: before => pending before n = some handler ∧ Alternates before

/-- No handler is put into the entry whose handler is about to be called. -/
def Undisturbed (action : Action) (k : Kernel) : Prop :=
  match action with
  | .schedule n _ _ _ => k.position ≠ .call n
  | _ => True

/-- What holds at a position of the loop, of the entry it is about. -/
def Standing (k : Kernel) : Prop :=
  match k.position with
  | .whileTrue => True
  | .isNull n => n < 256
  | .isFree n => n < 256
  | .isDue n => n < 256 ∧ (k.entry n).free = false
  | .disable n => n < 256 ∧ (k.entry n).free = false ∧
      (k.entry n).lastFrame.toNat ≤ (k.entry n).currentFrame.toNat
  | .release n => n < 256 ∧ (k.entry n).free = false ∧ k.manager.ScheduleEnabled = false ∧
      (k.entry n).lastFrame.toNat ≤ (k.entry n).currentFrame.toNat
  | .call n => n < 256 ∧ (k.entry n).free = true ∧ k.manager.ScheduleEnabled = false ∧
      (k.entry n).lastFrame.toNat ≤ (k.entry n).currentFrame.toNat
  | .enable n => n < 256 ∧ k.manager.ScheduleEnabled = false

/-- The handler that an entry stands for.  The one that is about to be called is in an entry
that is free already. -/
def occupant (k : Kernel) (n : Nat) : Option (BitVec 32) :=
  if k.position = .call n then some (k.entry n).handlerAddress
  else if (k.entry n).free then none
  else some (k.entry n).handlerAddress

structure Inv (k : Kernel) : Prop where
  standing : Standing k
  pending : ∀ n, pending k.trace n = occupant k n
  alternates : Alternates k.trace

section Steps

variable {k k' : Kernel} {n : Nat}

theorem standing_nextEntry (position : k.position = nextEntry n) : Standing k := by
  by_cases inside : n + 1 < 256
  · rw [nextEntry, if_pos inside] at position
    rw [Standing, position]
    exact inside
  · rw [nextEntry, if_neg inside] at position
    rw [Standing, position]
    trivial

theorem nextEntry_ne_call (n m : Nat) : nextEntry n ≠ .call m := by
  rw [nextEntry]
  split
  · exact Position.noConfusion
  · exact Position.noConfusion

theorem not_calling {position : Position} (stands : k.position = position)
    (other : ∀ m, position ≠ .call m) (m : Nat) : k.position ≠ .call m := by
  rw [stands]
  exact other m

/-- Going on to a place where no handler is about to be called. -/
theorem Inv.goto {position : Position} (inv : Inv k) (standing : Standing (k.goto position))
    (before : ∀ m, k.position ≠ .call m) (behind : ∀ m, position ≠ .call m) :
    Inv (k.goto position) := by
  refine ⟨standing, fun m => ?_, inv.alternates⟩
  have same := inv.pending m
  rw [occupant, if_neg (before m)] at same
  rw [occupant, if_neg (show (k.goto position).position ≠ .call m from behind m)]
  exact same

theorem Inv.setEnabled (inv : Inv k) (enabled : Bool) {position : Position}
    (standing : Standing ((k.setEnabled enabled).goto position))
    (before : ∀ m, k.position ≠ .call m) (behind : ∀ m, position ≠ .call m) :
    Inv ((k.setEnabled enabled).goto position) := by
  refine ⟨standing, fun m => ?_, inv.alternates⟩
  have same := inv.pending m
  rw [occupant, if_neg (before m)] at same
  rw [occupant, if_neg (show ((k.setEnabled enabled).goto position).position ≠ .call m from
    behind m)]
  exact same

/-- The entry is free, and its handler about to be called. -/
theorem Inv.release (inv : Inv k) (position : k.position = .release n) : Inv k.mainStep := by
  have standing := inv.standing
  rw [Standing, position] at standing
  rcases standing with ⟨inside, occupied, disabled, due⟩
  have ran : k.mainStep = (k.setEntry n { k.entry n with free := true }).goto (.call n) := by
    rw [mainStep, position]
  have self : k.mainStep.entry n = { k.entry n with free := true } := by
    rw [ran]
    exact if_pos rfl
  have other : ∀ m, m ≠ n → k.mainStep.entry m = k.entry m := by
    intro m different
    rw [ran]
    exact if_neg different
  have at_call : k.mainStep.position = .call n := by rw [ran]; rfl
  have trace : k.mainStep.trace = k.trace := by rw [ran]; rfl
  have off : k.mainStep.manager.ScheduleEnabled = false := by
    rw [ran]
    exact disabled
  refine ⟨?_, fun m => ?_, by rw [trace]; exact inv.alternates⟩
  · rw [Standing, at_call]
    dsimp only
    rw [self]
    exact ⟨inside, rfl, off, due⟩
  · have same := inv.pending m
    rw [occupant, position, if_neg Position.noConfusion] at same
    rw [trace, same, occupant, at_call]
    by_cases here : m = n
    · subst here
      rw [if_pos rfl, self, occupied]
      rfl
    · rw [if_neg (fun equal => here (Position.call.inj equal).symm), other m here]

/-- The handler of the entry is called. -/
theorem Inv.call (inv : Inv k) (position : k.position = .call n) : Inv k.mainStep := by
  have standing := inv.standing
  rw [Standing, position] at standing
  rcases standing with ⟨inside, free, disabled, due⟩
  have ran : k.mainStep = { k.goto (.enable n) with
      trace := .called n (k.entry n).handlerAddress :: k.trace } := by
    rw [mainStep, position]
  rw [ran]
  have waiting := inv.pending n
  rw [occupant, position, if_pos rfl] at waiting
  refine ⟨⟨inside, disabled⟩, fun m => ?_, ⟨waiting, inv.alternates⟩⟩
  have same := inv.pending m
  rw [occupant, position] at same
  rw [occupant, if_neg Position.noConfusion]
  show (if m = n then none else Boot.pending k.trace m) =
    if (k.entry m).free then none else some (k.entry m).handlerAddress
  by_cases here : m = n
  · subst here
    rw [if_pos rfl, free]
    rfl
  · rw [if_neg here, same, if_neg fun equal => here (Position.call.inj equal).symm]

theorem Inv.main (inv : Inv k) : Inv k.mainStep := by
  have standing := inv.standing
  rw [Standing] at standing
  cases position : k.position with
  | whileTrue =>
      have before := not_calling position fun m => Position.noConfusion
      rw [mainStep, position]
      dsimp only
      split
      · exact inv.goto (show 0 < 256 by decide) before fun m => Position.noConfusion
      · exact inv
  | isNull n =>
      have before := not_calling position fun m => Position.noConfusion
      rw [position] at standing
      rw [mainStep, position]
      dsimp only
      split
      · exact inv.goto trivial before fun m => Position.noConfusion
      · exact inv.goto standing before fun m => Position.noConfusion
  | isFree n =>
      have before := not_calling position fun m => Position.noConfusion
      rw [position] at standing
      rw [mainStep, position]
      dsimp only
      split
      · exact inv.goto (standing_nextEntry rfl) before (nextEntry_ne_call n)
      · exact inv.goto ⟨standing, Bool.eq_false_iff.mpr ‹_›⟩ before fun m => Position.noConfusion
  | isDue n =>
      have before := not_calling position fun m => Position.noConfusion
      rw [position] at standing
      rw [mainStep, position]
      dsimp only
      split
      · exact inv.goto ⟨standing.1, standing.2, ‹_›⟩ before fun m => Position.noConfusion
      · exact inv.goto (standing_nextEntry rfl) before (nextEntry_ne_call n)
  | disable n =>
      have before := not_calling position fun m => Position.noConfusion
      rw [position] at standing
      rw [mainStep, position]
      exact inv.setEnabled false ⟨standing.1, standing.2.1, rfl, standing.2.2⟩ before
        fun m => Position.noConfusion
  | release n => exact inv.release position
  | call n => exact inv.call position
  | enable n =>
      have before := not_calling position fun m => Position.noConfusion
      rw [mainStep, position]
      exact inv.setEnabled true (standing_nextEntry rfl) before (nextEntry_ne_call n)

/-- What the rest of the kernel does leaves the loop where it stands. -/
theorem Standing.carry (standing : Standing k) (position : k'.position = k.position)
    (enabled : k'.manager.ScheduleEnabled = k.manager.ScheduleEnabled)
    (kept : ∀ n < 256, (k.entry n).free = false ∨ k.position = .call n →
      (k'.entry n).free = (k.entry n).free ∧
      ((k.entry n).lastFrame.toNat ≤ (k.entry n).currentFrame.toNat →
        (k'.entry n).lastFrame.toNat ≤ (k'.entry n).currentFrame.toNat)) :
    Standing k' := by
  rw [Standing] at standing ⊢
  rw [position, enabled]
  cases stands : k.position with
  | whileTrue => trivial
  | isNull n => rwa [stands] at standing
  | isFree n => rwa [stands] at standing
  | enable n => rwa [stands] at standing
  | isDue n =>
      rw [stands] at standing
      rcases standing with ⟨inside, occupied⟩
      rcases kept n inside (Or.inl occupied) with ⟨same, -⟩
      exact ⟨inside, same.trans occupied⟩
  | disable n =>
      rw [stands] at standing
      rcases standing with ⟨inside, occupied, due⟩
      rcases kept n inside (Or.inl occupied) with ⟨same, still⟩
      exact ⟨inside, same.trans occupied, still due⟩
  | release n =>
      rw [stands] at standing
      rcases standing with ⟨inside, occupied, disabled, due⟩
      rcases kept n inside (Or.inl occupied) with ⟨same, still⟩
      exact ⟨inside, same.trans occupied, disabled, still due⟩
  | call n =>
      rw [stands] at standing
      rcases standing with ⟨inside, free, disabled, due⟩
      rcases kept n inside (Or.inr stands) with ⟨same, still⟩
      exact ⟨inside, same.trans free, disabled, still due⟩

/-- A free entry is taken, but not the one whose handler is about to be called. -/
theorem Inv.schedule (inv : Inv k) {handler currentFrame lastFrame : BitVec 32}
    (free : (k.entry n).free = true) (undisturbed : k.position ≠ .call n) :
    Inv { k.setEntry n ⟨false, handler, currentFrame, lastFrame⟩ with
      trace := .scheduled n handler :: k.trace } := by
  generalize made : { k.setEntry n ⟨false, handler, currentFrame, lastFrame⟩ with
    trace := Event.scheduled n handler :: k.trace } = k'
  have self : k'.entry n = ⟨false, handler, currentFrame, lastFrame⟩ := by
    rw [← made]
    exact if_pos rfl
  have other : ∀ m, m ≠ n → k'.entry m = k.entry m := by
    intro m different
    rw [← made]
    exact if_neg different
  have position : k'.position = k.position := by rw [← made]; rfl
  have enabled : k'.manager.ScheduleEnabled = k.manager.ScheduleEnabled := by rw [← made]; rfl
  have trace : k'.trace = .scheduled n handler :: k.trace := by rw [← made]
  have none_waits := inv.pending n
  rw [occupant, if_neg undisturbed, free, if_pos rfl] at none_waits
  refine ⟨?_, fun m => ?_, by rw [trace]; exact ⟨none_waits, inv.alternates⟩⟩
  · refine inv.standing.carry position enabled fun m _ used => ?_
    have apart : m ≠ n := by
      rintro rfl
      rcases used with occupied | calling
      · exact Bool.noConfusion (free.symm.trans occupied)
      · exact undisturbed calling
    rw [other m apart]
    exact ⟨rfl, id⟩
  · have same := inv.pending m
    rw [trace, occupant, position]
    show (if m = n then some handler else Boot.pending k.trace m) = _
    by_cases here : m = n
    · subst here
      rw [if_pos rfl, if_neg undisturbed, self]
      rfl
    · rw [if_neg here, same, other m here, occupant]

/-- The frame counters go on. -/
theorem Inv.frames (inv : Inv k) {currentFrame : Nat → BitVec 32}
    (forward : ∀ n < 256, (k.entry n).currentFrame.toNat ≤ (currentFrame n).toNat) :
    Inv { k with manager := { k.manager with ScheduleEntries := fun n =>
      { k.entry n with currentFrame := currentFrame n } } } :=
  ⟨inv.standing.carry rfl rfl fun n inside _ => ⟨rfl, fun due =>
    Nat.le_trans due (forward n inside)⟩, inv.pending, inv.alternates⟩

theorem step_keeps {action : Action} (inv : Inv k) (undisturbed : Undisturbed action k)
    (stepped : step action k = some k') : Inv k' := by
  cases action with
  | main =>
      obtain rfl := Option.some.inj stepped
      exact inv.main
  | schedule n handler currentFrame lastFrame =>
      rw [step] at stepped
      split at stepped
      · obtain rfl := Option.some.inj stepped
        exact inv.schedule ‹_› undisturbed
      · cases stepped
  | frames currentFrame =>
      rw [step] at stepped
      split at stepped
      · rename_i forward
        obtain rfl := Option.some.inj stepped
        exact inv.frames fun n inside => forward n (List.mem_range.mpr inside)
      · cases stepped

/-- A handler that is put into the entry whose handler is about to be called is in the way. -/
theorem disturbed_step {action : Action} (inv : Inv k) (disturbed : ¬ Undisturbed action k)
    (stepped : step action k = some k') : ¬ Alternates k'.trace := by
  cases action with
  | main => exact absurd trivial disturbed
  | frames currentFrame => exact absurd trivial disturbed
  | schedule n handler currentFrame lastFrame =>
      have position : k.position = .call n := not_not.mp disturbed
      have waiting := inv.pending n
      rw [occupant, if_pos position] at waiting
      rw [step] at stepped
      split at stepped
      · obtain rfl := Option.some.inj stepped
        rintro ⟨none_waits, -⟩
        rw [waiting] at none_waits
        cases none_waits
      · cases stepped

theorem alternates_of_cons {event : Event} {before : List Event}
    (alternates : Alternates (event :: before)) : Alternates before := by
  cases event with
  | scheduled n handler => exact alternates.2
  | called n handler => exact alternates.2

theorem mainStep_trace (k : Kernel) :
    k.mainStep.trace = k.trace ∨ ∃ event, k.mainStep.trace = event :: k.trace := by
  rw [mainStep]
  cases k.position with
  | call n => exact Or.inr ⟨_, rfl⟩
  | whileTrue => left; dsimp only; split <;> rfl
  | isNull n => left; dsimp only; split <;> rfl
  | isFree n => left; dsimp only; split <;> rfl
  | isDue n => left; dsimp only; split <;> rfl
  | disable n => exact Or.inl rfl
  | release n => exact Or.inl rfl
  | enable n => exact Or.inl rfl

theorem step_trace {action : Action} (stepped : step action k = some k') :
    k'.trace = k.trace ∨ ∃ event, k'.trace = event :: k.trace := by
  cases action with
  | main =>
      obtain rfl := Option.some.inj stepped
      exact mainStep_trace k
  | schedule n handler currentFrame lastFrame =>
      rw [step] at stepped
      split at stepped
      · obtain rfl := Option.some.inj stepped
        exact Or.inr ⟨_, rfl⟩
      · cases stepped
  | frames currentFrame =>
      rw [step] at stepped
      split at stepped
      · obtain rfl := Option.some.inj stepped
        exact Or.inl rfl
      · cases stepped

theorem run_alternates {actions : List Action} (ran : runAll step actions k = some k')
    (alternates : Alternates k'.trace) : Alternates k.trace := by
  induction actions generalizing k with
  | nil =>
      obtain rfl := Option.some.inj ran
      exact alternates
  | cons action actions inductionHypothesis =>
      rcases Option.bind_eq_some_iff.mp ran with ⟨middle, stepped, rest⟩
      have kept := inductionHypothesis rest
      rcases step_trace stepped with same | ⟨event, grown⟩
      · rwa [same] at kept
      · rw [grown] at kept
        exact alternates_of_cons kept

theorem run_keeps {actions : List Action} (inv : Inv k)
    (undisturbed : RunMeets step Undisturbed actions k)
    (ran : runAll step actions k = some k') : Inv k' := by
  induction actions generalizing k with
  | nil =>
      obtain rfl := Option.some.inj ran
      exact inv
  | cons action actions inductionHypothesis =>
      rcases Option.bind_eq_some_iff.mp ran with ⟨middle, stepped, rest⟩
      exact inductionHypothesis (step_keeps inv undisturbed.1 stepped)
        (undisturbed.2 middle stepped) rest

theorem run_alternates_iff {actions : List Action} (inv : Inv k)
    (ran : runAll step actions k = some k') :
    Alternates k'.trace ↔ RunMeets step Undisturbed actions k := by
  refine ⟨fun alternates => ?_, fun undisturbed => (run_keeps inv undisturbed ran).alternates⟩
  induction actions generalizing k with
  | nil => trivial
  | cons action actions inductionHypothesis =>
      rcases Option.bind_eq_some_iff.mp ran with ⟨middle, stepped, rest⟩
      have undisturbed : Undisturbed action k := by
        by_contra disturbed
        exact disturbed_step inv disturbed stepped (run_alternates rest alternates)
      refine ⟨undisturbed, fun other stepped' => ?_⟩
      obtain rfl : middle = other := Option.some.inj (stepped.symm.trans stepped')
      exact inductionHypothesis (step_keeps inv undisturbed stepped) rest

end Steps

/-- The loop is about to start, on a table without a handler. -/
structure Kernel.Booted (k : Kernel) : Prop where
  position : k.position = .whileTrue
  trace : k.trace = []
  free : ∀ n, (k.entry n).free = true

theorem Kernel.Booted.inv {k : Kernel} (booted : k.Booted) : Inv k := by
  refine ⟨?_, fun n => ?_, ?_⟩
  · rw [Standing, booted.position]
    trivial
  · rw [booted.trace, occupant, booted.position, if_neg Position.noConfusion, booted.free,
      if_pos rfl, Boot.pending]
  · rw [booted.trace]
    trivial

/-- In whatever order the loop, interrupts and handlers take their steps: every scheduled
handler is called at most once, no other one is called, and none is overwritten before it
was called, exactly in the runs in which no handler is put into an entry between the two
statements that free the entry and call its handler. -/
theorem jobs_run_once_iff {actions : List Action} {k k' : Kernel} (booted : k.Booted)
    (ran : runAll step actions k = some k') :
    Alternates k'.trace ↔ RunMeets step Undisturbed actions k :=
  run_alternates_iff booted.inv ran

/-- A handler that waits for frame 3 at frame 5, and the loop up to its call. -/
def oneJob : List Action := .schedule 0 0x1000 5 3 :: List.replicate 6 .main

def emptyTable : Kernel := ⟨⟨true, fun _ => ⟨true, 0, 0, 0⟩⟩, .whileTrue, []⟩

/-- The handler is called, or its entry is taken again first. -/
theorem jobs_run_once_iff_oneJob :
    (∃ k', runAll step (oneJob ++ [.main]) emptyTable = some k' ∧
      (Alternates k'.trace ↔ RunMeets step Undisturbed (oneJob ++ [.main]) emptyTable)) ∧
    ∃ k', runAll step (oneJob ++ [.schedule 0 0x2000 5 9]) emptyTable = some k' ∧
      (Alternates k'.trace ↔
        RunMeets step Undisturbed (oneJob ++ [.schedule 0 0x2000 5 9]) emptyTable) :=
  ⟨⟨_, rfl, jobs_run_once_iff ⟨rfl, rfl, fun _ => rfl⟩ rfl⟩,
    _, rfl, jobs_run_once_iff ⟨rfl, rfl, fun _ => rfl⟩ rfl⟩

/-- In these runs a handler is called at its frame or later, from its own entry, which can be
taken again, and while no pass of the loop may begin. -/
theorem call_is_due {actions : List Action} {k k' : Kernel} {n : Nat} (booted : k.Booted)
    (undisturbed : RunMeets step Undisturbed actions k)
    (ran : runAll step actions k = some k') (calls : k'.position = .call n) :
    (k'.entry n).lastFrame.toNat ≤ (k'.entry n).currentFrame.toNat ∧
    pending k'.trace n = some (k'.entry n).handlerAddress ∧
    (k'.entry n).free = true ∧ k'.manager.ScheduleEnabled = false := by
  have inv := run_keeps booted.inv undisturbed ran
  have standing := inv.standing
  rw [Standing, calls] at standing
  rcases standing with ⟨-, free, disabled, due⟩
  have waiting := inv.pending n
  rw [occupant, if_pos calls] at waiting
  exact ⟨due, waiting, free, disabled⟩

theorem call_is_due_oneJob :
    ∃ k', runAll step oneJob emptyTable = some k' ∧ k'.position = .call 0 ∧
      (k'.entry 0).lastFrame.toNat ≤ (k'.entry 0).currentFrame.toNat ∧
      pending k'.trace 0 = some (k'.entry 0).handlerAddress ∧
      (k'.entry 0).free = true ∧ k'.manager.ScheduleEnabled = false := by
  have booted : emptyTable.Booted := ⟨rfl, rfl, fun _ => rfl⟩
  have ran : runAll step oneJob emptyTable = some _ := rfl
  have undisturbed : RunMeets step Undisturbed oneJob emptyTable :=
    (run_alternates_iff booted.inv ran).mp ⟨rfl, trivial⟩
  exact ⟨_, rfl, rfl, call_is_due booted undisturbed rfl rfl⟩

/-! ## One pass -/

/-- Of the `count` entries from `first` on, those whose handlers a pass calls. -/
def dueEntries (k : Kernel) (first count : Nat) : List Nat :=
  ((List.range' first count).takeWhile fun n => (k.entry n).handlerAddress ≠ 0).filter fun n =>
    !(k.entry n).free && decide ((k.entry n).lastFrame.toNat ≤ (k.entry n).currentFrame.toNat)

/-- `k'` is `k` after the handlers of the entries `called` were called, in this order. -/
structure AfterCalls (k k' : Kernel) (called : List Nat) : Prop where
  enabled : k'.manager.ScheduleEnabled = true
  entries : ∀ n, k'.entry n = if n ∈ called then { k.entry n with free := true } else k.entry n
  trace : k'.trace =
    (called.map fun n => Event.called n (k.entry n).handlerAddress).reverse ++ k.trace

def Reaches (k k' : Kernel) : Prop := ∃ steps, mainStep^[steps] k = k'

theorem Reaches.trans {k k' k'' : Kernel} (first : Reaches k k') (second : Reaches k' k'') :
    Reaches k k'' := by
  rcases first with ⟨steps, rfl⟩
  rcases second with ⟨more, rfl⟩
  exact ⟨more + steps, Function.iterate_add_apply mainStep more steps k⟩

theorem Reaches.one {k k' : Kernel} (stepped : k.mainStep = k') : Reaches k k' := ⟨1, stepped⟩

section Passes

variable {k k' k'' : Kernel} {n count : Nat} {called more : List Nat}

theorem AfterCalls.none (enabled : k.manager.ScheduleEnabled = true) (position : Position) :
    AfterCalls k (k.goto position) [] :=
  ⟨enabled, fun _ => (if_neg List.not_mem_nil).symm, rfl⟩

theorem AfterCalls.handler (after : AfterCalls k k' called) (n : Nat) :
    (k'.entry n).handlerAddress = (k.entry n).handlerAddress := by
  rw [after.entries]
  split
  · rfl
  · rfl

theorem AfterCalls.append (first : AfterCalls k k' called) (second : AfterCalls k' k'' more) :
    AfterCalls k k'' (called ++ more) := by
  refine ⟨second.enabled, fun n => ?_, ?_⟩
  · rw [second.entries, first.entries]
    by_cases early : n ∈ called
    · rw [if_pos early, if_pos (List.mem_append_left more early)]
      exact ite_self _
    · rw [if_neg early]
      by_cases late : n ∈ more
      · rw [if_pos late, if_pos (List.mem_append_right called late)]
      · rw [if_neg late, if_neg fun member => (List.mem_append.mp member).elim early late]
  · have same : (more.map fun n => Event.called n (k'.entry n).handlerAddress) =
        more.map fun n => Event.called n (k.entry n).handlerAddress :=
      List.map_congr_left fun n _ => by rw [first.handler]
    rw [second.trace, first.trace, same, List.map_append, List.reverse_append, List.append_assoc]

theorem AfterCalls.dueEntries (after : AfterCalls k k' called) (past : ∀ m ∈ called, m < n) :
    dueEntries k' n count = dueEntries k n count := by
  have same : (fun m => decide ((k'.entry m).handlerAddress ≠ 0)) =
      fun m => decide ((k.entry m).handlerAddress ≠ 0) :=
    funext fun m => by rw [after.handler]
  rw [Boot.dueEntries, same, Boot.dueEntries]
  refine List.filter_congr fun m member => ?_
  have untouched : k'.entry m = k.entry m := by
    rw [after.entries, if_neg]
    intro early
    have above := (List.mem_range'_1.mp (List.takeWhile_subset _ member)).1
    have below := past m early
    omega
  rw [untouched]

/-- The handler of the entry is called. -/
theorem visit_due (occupied : (k.entry n).free = false) :
    ∃ k', mainStep^[4] (k.goto (.disable n)) = k' ∧ k'.position = nextEntry n ∧
      AfterCalls k k' [n] := by
  refine ⟨_, rfl, rfl, rfl, fun m => ?_, ?_⟩
  · show (if m = n then { k.entry n with free := true } else k.entry m) = _
    by_cases here : m = n
    · subst here
      rw [if_pos rfl, if_pos (List.mem_singleton_self m)]
    · rw [if_neg here, if_neg fun member => here (List.mem_singleton.mp member)]
  · show Event.called n
      (if n = n then { k.entry n with free := true } else k.entry n).handlerAddress :: k.trace = _
    rw [if_pos rfl]
    rfl

theorem visit (position : k.position = .isNull n) (enabled : k.manager.ScheduleEnabled = true)
    (handler : (k.entry n).handlerAddress ≠ 0) :
    ∃ k' called, Reaches k k' ∧ k'.position = nextEntry n ∧ AfterCalls k k' called ∧
      called = [n].filter fun n => !(k.entry n).free &&
        decide ((k.entry n).lastFrame.toNat ≤ (k.entry n).currentFrame.toNat) := by
  have begins : k.mainStep = k.goto (.isFree n) := by
    rw [mainStep, position]
    exact if_neg handler
  cases occupied : (k.entry n).free with
  | true =>
      have skips : (k.goto (.isFree n)).mainStep = k.goto (nextEntry n) := if_pos occupied
      refine ⟨k.goto (nextEntry n), [], (Reaches.one begins).trans (Reaches.one skips), rfl,
        AfterCalls.none enabled _, ?_⟩
      rw [List.filter_singleton, occupied]
      rfl
  | false =>
      have goes : (k.goto (.isFree n)).mainStep = k.goto (.isDue n) :=
        if_neg (Bool.eq_false_iff.mp occupied)
      by_cases due : (k.entry n).lastFrame.toNat ≤ (k.entry n).currentFrame.toNat
      · have disables : (k.goto (.isDue n)).mainStep = k.goto (.disable n) := if_pos due
        rcases visit_due occupied with ⟨k', ran, behind, after⟩
        refine ⟨k', [n], (Reaches.one begins).trans ((Reaches.one goes).trans
          ((Reaches.one disables).trans ⟨4, ran⟩)), behind, after, ?_⟩
        rw [List.filter_singleton, occupied, decide_eq_true due]
        rfl
      · have skips : (k.goto (.isDue n)).mainStep = k.goto (nextEntry n) := if_neg due
        refine ⟨k.goto (nextEntry n), [], (Reaches.one begins).trans ((Reaches.one goes).trans
          (Reaches.one skips)), rfl, AfterCalls.none enabled _, ?_⟩
        rw [List.filter_singleton, occupied, decide_eq_false due]
        rfl

theorem pass_from (inside : n + count = 256) (some_left : 0 < count)
    (position : k.position = .isNull n) (enabled : k.manager.ScheduleEnabled = true) :
    ∃ k', Reaches k k' ∧ k'.position = .whileTrue ∧ AfterCalls k k' (dueEntries k n count) := by
  induction count generalizing k n with
  | zero => exact absurd some_left (Nat.lt_irrefl 0)
  | succ count inductionHypothesis =>
      by_cases handler : (k.entry n).handlerAddress = 0
      · have stops : k.mainStep = k.goto .whileTrue := by
          rw [mainStep, position]
          exact if_pos handler
        refine ⟨k.goto .whileTrue, Reaches.one stops, rfl, ?_⟩
        rw [dueEntries, List.range'_succ, List.takeWhile_cons, if_neg]
        · exact AfterCalls.none enabled _
        · rw [handler]
          decide
      · rcases visit position enabled handler with ⟨middle, called, reached, behind, after, which⟩
        have split : dueEntries k n (count + 1) = called ++ dueEntries k (n + 1) count := by
          rw [which, dueEntries, List.range'_succ, List.takeWhile_cons,
            if_pos (decide_eq_true handler), ← List.singleton_append, List.filter_append,
            dueEntries]
        rw [split]
        by_cases last : count = 0
        · subst last
          rw [nextEntry, if_neg (by omega)] at behind
          refine ⟨middle, reached, behind, ?_⟩
          rwa [show dueEntries k (n + 1) 0 = [] from rfl, List.append_nil]
        · rw [nextEntry, if_pos (by omega)] at behind
          rcases inductionHypothesis (by omega) (by omega) behind after.enabled with
            ⟨k', ran, ends, later⟩
          have same : dueEntries middle (n + 1) count = dueEntries k (n + 1) count := by
            refine after.dueEntries fun m member => ?_
            rw [which] at member
            have equal := List.mem_singleton.mp (List.mem_of_mem_filter member)
            omega
          rw [same] at later
          exact ⟨k', reached.trans ran, ends, after.append later⟩

end Passes

/-- The handler in entry 0 is called, the one in entry 1 waits, the one in entry 3 is never
reached. -/
def threeJobs : Kernel :=
  ⟨⟨true, fun n =>
    if n = 0 then ⟨false, 0x1000, 5, 3⟩
    else if n = 1 then ⟨false, 0x2000, 5, 9⟩
    else if n = 3 then ⟨false, 0x3000, 5, 3⟩
    else ⟨true, 0, 0, 0⟩⟩, .whileTrue, []⟩

end Os88.Boot
