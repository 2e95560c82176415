/-
Module: Os88.TextConsole.Isolation
Purpose: The ttys do not interfere: what a run of console operations leaves of
  one tty is what the operations on that tty alone leave of it.
Trusted boundary: the memories of the ttys are disjoint, as `Tty` has them.
Main exports: Operation.addressee, Operation.effect, exec_effect, run_effect,
  ttys_do_not_interfere
-/
import Os88.TextConsole.Operations

namespace Os88.TextConsole

open Execution

variable {δ : Type}

/-! ## Operations by their tty -/

namespace Operation

/-- The tty that an operation is given. -/
def addressee : Operation → Option TtyId
  | .print t _ => some t
  | .setChar t _ _ _ _ => some t
  | .setString t _ _ _ _ _ => some t
  | .newline t => some t
  | .scroll t => some t
  | .fillColor t _ => some t
  | .clear t => some t
  | .switch _ => none
  | .setCurrent _ => none
  | .setColor _ => none

/-- The operation works on the tty it is given, or it selects one.  Only
`kset_color` looks up its tty itself. -/
def NamesTty : Operation → Prop
  | .setColor _ => False
  | _ => True

end Operation

/-- The effect of `tty_set_string` from index `i` on. -/
def Tty.setString (g : Geometry) (xOffset yOffset width : Nat) (color : Color) :
    Nat → List (BitVec 8) → Tty → Tty
  | _, [], tty => tty
  | i, ch :: rest, tty =>
      if ch = 0 then tty
      else Tty.setString g xOffset yOffset width color (i + 1) rest
        (tty.setChar g (xOffset + i % width) (yOffset + i / width) ch color)

/-- The effect of an operation on its tty. -/
def Operation.effect (g : Geometry) : Operation → Tty → Tty
  | .print _ str, tty => tty.print g str
  | .setChar _ x y ch color, tty => tty.setChar g x y ch color
  | .setString _ xOffset yOffset width str color, tty =>
      tty.setString g xOffset yOffset width color 0 str
  | .newline _, tty => tty.newline g
  | .scroll _, tty => tty.scroll g
  | .fillColor _ color, tty => tty.fillColor g color
  | .clear _, tty => tty.fillColor g 0
  | _, tty => tty

/-- The effect of an operation on all ttys. -/
def effectOnAll (g : Geometry) (ttys : TtyId → Tty) (op : Operation) : TtyId → Tty :=
  fun u => if op.addressee = some u then op.effect g (ttys u) else ttys u

section Steps

variable (drv : TtyDriver δ) {c : Console δ}

theorem setStringLoop_effect (t : TtyId) (xOffset yOffset width : Nat)
    (color : Color) (str : List (BitVec 8)) (i : Nat)
    (inRange : BoxInRange drv.geometry xOffset yOffset width i
      (i + textLength str))
    (length : (c.ttys t).mem.length = drv.geometry.cells) :
    ∃ c', setStringLoop drv t xOffset yOffset width color i str c = some c' ∧
      c.Becomes t ((c.ttys t).setString drv.geometry xOffset yOffset width color i
        str) c' := by
  induction str generalizing i c with
  | nil => exact ⟨c, rfl, .same t c⟩
  | cons ch rest inductionHypothesis =>
      by_cases ended : ch = 0
      · refine ⟨c, by rw [setStringLoop, if_pos ended], ?_⟩
        rw [Tty.setString, if_pos ended]
        exact .same t c
      · rw [textLength_cons ended] at inRange
        rcases inRange i (Nat.le_refl i) (by omega) with ⟨positive, hx, hy⟩
        have once := afterSetChar_becomes drv t (xOffset + i % width)
          (yOffset + i / width) ch color c
        rw [setStringLoop_step drv ended rest color positive hx hy length,
          Tty.setString, if_neg ended]
        obtain ⟨final, ran, changed⟩ := inductionHypothesis (i + 1)
          (c := afterSetChar drv t (xOffset + i % width) (yOffset + i / width) ch
            color c)
          (fun k lower upper => inRange k (by omega) (by omega))
          (by rw [once.self]; simp [Tty.setChar, length])
        rw [once.self] at changed
        exact ⟨final, ran, once.trans changed⟩

/-- A console that changed at the addressee of an operation. -/
theorem Console.Becomes.effectOnAll {c' : Console δ} {t : TtyId} {g : Geometry}
    (op : Operation) (changed : c.Becomes t (op.effect g (c.ttys t)) c')
    (addressed : op.addressee = some t) :
    c'.ttys = effectOnAll g c.ttys op := by
  funext u
  rw [TextConsole.effectOnAll, addressed]
  by_cases same : u = t
  · subst same
    rw [changed.self, if_pos rfl]
  · rw [changed.other same, if_neg fun equal => same (Option.some.inj equal).symm]

/-- Every operation in range has its effect on its own tty, and no other. -/
theorem exec_effect (op : Operation) (named : op.NamesTty)
    (inRange : op.InRange drv.geometry) (wellFormed : c.WellFormed drv.geometry) :
    ∃ c', op.exec drv c = some c' ∧ c'.ttys = effectOnAll drv.geometry c.ttys op := by
  cases op with
  | print t str =>
      rcases ttyPrint_effect drv str (wellFormed t) with ⟨final, ran, changed⟩
      exact ⟨final, by rw [Operation.exec, ran]; rfl,
        changed.effectOnAll (.print t str) rfl⟩
  | setChar t x y ch color =>
      exact ⟨_, ttySetChar_eq drv t c ch color inRange.1 inRange.2
        (wellFormed t).mem_length,
        (afterSetChar_becomes drv t x y ch color c).effectOnAll (.setChar t x y ch color)
          rfl⟩
  | setString t xOffset yOffset width str color =>
      obtain ⟨final, ran, changed⟩ :=
        setStringLoop_effect drv t xOffset yOffset width color str 0
          (by rw [Nat.zero_add]; exact inRange) (wellFormed t).mem_length
      exact ⟨final, ran,
        changed.effectOnAll (.setString t xOffset yOffset width str color) rfl⟩
  | newline t =>
      obtain ⟨final, ran, changed⟩ :=
        ttyNewline_effect drv (wellFormed t).y_lt (wellFormed t).mem_length
      exact ⟨final, ran, changed.effectOnAll (.newline t) rfl⟩
  | scroll t =>
      have changed : c.Becomes t _ (ttyRedraw drv t _) :=
        (Console.Becomes.modify t c (Tty.scroll drv.geometry)).redraw t
      exact ⟨_, ttyScroll_eq drv t c (wellFormed t).mem_length,
        changed.effectOnAll (.scroll t) rfl⟩
  | fillColor t color =>
      have changed : c.Becomes t _ (ttyRedraw drv t _) :=
        (Console.Becomes.modify t c (Tty.fillColor drv.geometry color)).redraw t
      exact ⟨_, ttyFillColor_eq drv t c color (wellFormed t).mem_length,
        changed.effectOnAll (.fillColor t color) rfl⟩
  | clear t =>
      have changed : c.Becomes t _ (ttyRedraw drv t _) :=
        (Console.Becomes.modify t c (Tty.fillColor drv.geometry 0)).redraw t
      exact ⟨_, ttyFillColor_eq drv t c 0 (wellFormed t).mem_length,
        changed.effectOnAll (.clear t) rfl⟩
  | switch t => exact ⟨_, rfl, ttySwitch_ttys drv t c⟩
  | setCurrent t => exact ⟨_, rfl, rfl⟩
  | setColor color => exact absurd named id

end Steps

/-! ## Runs -/

section Runs

variable (drv : TtyDriver δ) {c : Console δ} {ops : List Operation}

/-- A run has the effects of its operations, one after the other. -/
theorem run_effect (named : ∀ op ∈ ops, op.NamesTty)
    (inRange : ∀ op ∈ ops, op.InRange drv.geometry)
    (wellFormed : c.WellFormed drv.geometry) :
    ∃ c', runAll (Operation.exec drv) ops c = some c' ∧
      c'.ttys = ops.foldl (effectOnAll drv.geometry) c.ttys := by
  have run : ∃ c', runAll (Operation.exec drv) ops c = some c' ∧
      c'.WellFormed drv.geometry ∧
        c'.ttys = ops.foldl (effectOnAll drv.geometry) c.ttys := by
    apply runAll_simulates
      (fun (c' : Console δ) ttys => c'.WellFormed drv.geometry ∧ c'.ttys = ttys)
      (effectOnAll drv.geometry) ⟨wellFormed, rfl⟩
    rintro op member c' ttys ⟨kept, rfl⟩
    rcases exec_effect drv op (named op member) (inRange op member) kept with
      ⟨next, ran, effect⟩
    rcases exec_wellFormed drv op (inRange op member) kept with ⟨next', ran', kept'⟩
    obtain rfl : next = next' := Option.some.inj (ran.symm.trans ran')
    exact ⟨next, ran, kept', effect⟩
  rcases run with ⟨final, ran, -, effects⟩
  exact ⟨final, ran, effects⟩

/-- On one tty, only the operations addressed to it have an effect. -/
theorem foldl_effectOnAll (g : Geometry) (ops : List Operation)
    (ttys : TtyId → Tty) (u : TtyId) :
    ops.foldl (effectOnAll g) ttys u =
      (ops.filter (·.addressee = some u)).foldl
        (fun tty op => op.effect g tty) (ttys u) := by
  induction ops generalizing ttys with
  | nil => rfl
  | cons op ops inductionHypothesis =>
      rw [List.foldl_cons, inductionHypothesis, effectOnAll]
      by_cases addressed : op.addressee = some u
      · rw [if_pos addressed, List.filter_cons_of_pos (by simpa using addressed),
          List.foldl_cons]
      · rw [if_neg addressed, List.filter_cons_of_neg (by simpa using addressed)]

/-- In a run, every tty ends as it does when only the operations addressed to
it are run; and a switch of the visible screen changes no tty at all. -/
theorem ttys_do_not_interfere (named : ∀ op ∈ ops, op.NamesTty)
    (inRange : ∀ op ∈ ops, op.InRange drv.geometry)
    (wellFormed : c.WellFormed drv.geometry) :
    (∃ c', runAll (Operation.exec drv) ops c = some c' ∧
      ∀ u, ∃ alone,
        runAll (Operation.exec drv) (ops.filter (·.addressee = some u)) c =
          some alone ∧
        (c'.ttys u).x = (alone.ttys u).x ∧ (c'.ttys u).y = (alone.ttys u).y ∧
        (c'.ttys u).color = (alone.ttys u).color ∧
        (c'.ttys u).mem = (alone.ttys u).mem) ∧
    ∀ t (now : Console δ), (ttySwitch drv t now).ttys = now.ttys := by
  refine ⟨?_, ttySwitch_ttys drv⟩
  rcases run_effect drv named inRange wellFormed with ⟨final, ran, effects⟩
  refine ⟨final, ran, ?_⟩
  intro u
  have fewer : ∀ op ∈ ops.filter (·.addressee = some u), op ∈ ops :=
    fun op member => (List.mem_filter.mp member).1
  obtain ⟨alone, ranAlone, effectsAlone⟩ := run_effect drv
    (fun op member => named op (fewer op member))
    (fun op member => inRange op (fewer op member)) wellFormed
  have same : final.ttys u = alone.ttys u := by
    rw [effects, effectsAlone, foldl_effectOnAll, foldl_effectOnAll,
      List.filter_filter]
    simp only [Bool.and_self]
  exact ⟨alone, ranAlone, by rw [same], by rw [same], by rw [same], by rw [same]⟩

/-- Two ttys, with the screen switched in between. -/
theorem ttys_do_not_interfere_two_by_two :
    (∃ c', runAll (Operation.exec (plainDriver ⟨2, 2, by decide, by decide, by decide⟩))
        [.print 0 [0x61, 0x62, 0x63], .switch 1, .fillColor 1 0x47, .print 0 [0x0A]]
        (initTty (plainDriver ⟨2, 2, by decide, by decide, by decide⟩) none ()) =
          some c' ∧
      ∀ u : TtyId, ∃ alone,
        runAll (Operation.exec (plainDriver ⟨2, 2, by decide, by decide, by decide⟩))
          (([.print 0 [0x61, 0x62, 0x63], .switch 1, .fillColor 1 0x47,
            .print 0 [0x0A]] : List Operation).filter (·.addressee = some u))
          (initTty (plainDriver ⟨2, 2, by decide, by decide, by decide⟩) none ()) =
            some alone ∧
        (c'.ttys u).x = (alone.ttys u).x ∧ (c'.ttys u).y = (alone.ttys u).y ∧
        (c'.ttys u).color = (alone.ttys u).color ∧
        (c'.ttys u).mem = (alone.ttys u).mem) ∧
    ∀ t (now : Console Unit),
      (ttySwitch (plainDriver ⟨2, 2, by decide, by decide, by decide⟩) t now).ttys =
        now.ttys :=
  ttys_do_not_interfere (plainDriver ⟨2, 2, by decide, by decide, by decide⟩)
    (by simp [Operation.NamesTty]) (by simp [Operation.InRange])
    (initTty_wellFormed (plainDriver ⟨2, 2, by decide, by decide, by decide⟩)
      (plainDriver_givesMemory _) none ())

end Runs

end Os88.TextConsole
