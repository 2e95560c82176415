/-
Module: Os88.Interrupt.Routing
Purpose: Where hardware interrupts go after any history of registrations and
  interrupts.
Trusted boundary: none
Main exports: Action, lastRegistered, Kernel.Follows, irqDispatch_effect,
  interrupt_effect, run_follows, routedAfter_iff
-/
import Os88.Interrupt.Model
import Os88.TextConsole.Operations

namespace Os88.Interrupt

open Execution
open StringLib
open TextConsole

variable {H δ : Type}

/-- A line of the two interrupt controllers. -/
abbrev Line := Fin 16

/-- The `irq` argument for a line. -/
def Line.irq (line : Line) : BitVec 8 := BitVec.ofNat 8 line.val

theorem Line.irq_toNat (line : Line) : line.irq.toNat = line.val := by
  simp only [Line.irq, BitVec.toNat_ofNat]
  omega

/-- The vector of a line as interrupt.h numbers them. -/
def Line.vector (line : Line) : BitVec 8 :=
  if line.val < 8 then INTERRUPT_VECTOR_IRQ0 + line.irq
  else INTERRUPT_VECTOR_IRQ8 + (line.irq - 8)

/-- What happens to the kernel between boot and the interrupt of interest. -/
inductive Action (H : Type) where
  | register (line : Line) (handler : Option H)
  | interrupt (line : Line) (frame : InterruptFrame)

section Actions

variable (drv : TtyDriver δ) (env : Environment)

/-- A halted machine takes no further action. -/
def Action.exec : Action H → Kernel H δ → Option (Kernel H δ)
  | .register line handler, k => registerIrqHandler line.irq handler k
  | .interrupt line frame, k =>
      match interruptHandler drv env line.vector frame k with
      | some (.returned k') => some k'
      | _ => none

/-- The kernel before any registration. -/
def Kernel.boot (console : Console δ) : Kernel H δ where
  irqHandlers := Vector.replicate 16 none
  console := console
  events := []

/-- The registration an action makes for a line. -/
def Action.registers (line : Line) : Action H → Option (Option H)
  | .register target handler => if target = line then some handler else none
  | .interrupt _ _ => none

/-- The handler most recently registered for a line. -/
def lastRegistered (history : List (Action H)) (line : Line) : Option H :=
  (history.filterMap (Action.registers line)).getLast?.join

/-- Running a line's handler, if there is one, with the line as argument. -/
def served (handler : Option H) (line : Line) (frame : InterruptFrame) :
    List (Event H) :=
  match handler with
  | some handler => [.ran handler line.irq frame]
  | none => []

/-- The events an interrupt on a line has to cause: its handler, then the end
of interrupt for the line. -/
def routed (handler : Option H) (line : Line) (frame : InterruptFrame) :
    List (Event H) :=
  served handler line frame ++ [.eoi line.irq]

/-- After the history, an interrupt on the line runs its handler and nothing
else and acknowledges the line. -/
def RoutedAfter (console : Console δ) (history : List (Action H)) (line : Line)
    (frame : InterruptFrame) : Prop :=
  ∃ k k', runAll (Action.exec drv env) history (Kernel.boot console) = some k ∧
    (Action.interrupt line frame).exec drv env k = some k' ∧
      k'.events = k.events ++ routed (lastRegistered history line) line frame

end Actions

/-! ## The last registration -/

theorem lastRegistered_concat (history : List (Action H)) (action : Action H)
    (line : Line) :
    lastRegistered (history ++ [action]) line =
      match action.registers line with
      | some handler => handler
      | none => lastRegistered history line := by
  cases registered : action.registers line with
  | some handler => simp [lastRegistered, registered]
  | none => simp [lastRegistered, registered]

/-! ## Printing keeps the consoles well formed -/

section Printing

variable (drv : TtyDriver δ) {c : Console δ}

theorem kprintEach_wellFormed (strings : List (List (BitVec 8)))
    (wellFormed : c.WellFormed drv.geometry) :
    ∃ c', kprintEach drv strings c = some c' ∧ c'.WellFormed drv.geometry := by
  apply runAll_total (Console.WellFormed drv.geometry) wellFormed
  intro str member c kept
  exact exec_wellFormed drv (.print (ttyCurrentProcess c) str) trivial kept

end Printing

/-! ## One interrupt -/

/-- Everything but the consoles and the events is as before; the consoles stay
well formed and the events are extended. -/
structure Kernel.Extends (g : Geometry) (k : Kernel H δ) (new : List (Event H))
    (k' : Kernel H δ) : Prop where
  handlers : k'.irqHandlers = k.irqHandlers
  console : k'.console.WellFormed g
  events : k'.events = k.events ++ new

section Interrupts

variable (drv : TtyDriver δ) (env : Environment) {k : Kernel H δ}

theorem reportNoHandler_effect (irq : BitVec 8)
    (wellFormed : k.console.WellFormed drv.geometry) :
    ∃ k', reportNoHandler drv env irq k = some k' ∧
      k.Extends drv.geometry [] k' := by
  unfold reportNoHandler
  by_cases silent : 1 ≤ irq
  · have selected : (ttySetCurrent (some defaultTty) k.console).WellFormed
        drv.geometry := wellFormed
    obtain ⟨c, printed, kept⟩ := kprintEach_wellFormed drv
      ([bytes "[KDEBUG] No handler for IRQ #"] ++
        kprintInt env (irq.setWidth 32) ++ [bytes "\n"]) selected
    rw [if_pos silent]
    simp only [printed, Option.bind_eq_bind, Option.bind_some]
    exact ⟨_, rfl, rfl, kept, by simp⟩
  · rw [if_neg silent]
    exact ⟨k, rfl, rfl, wellFormed, by simp⟩

theorem serveIrq_effect (line : Line) (frame : InterruptFrame)
    (entry : Option H) (wellFormed : k.console.WellFormed drv.geometry) :
    ∃ k', serveIrq drv env line.irq frame k entry = some k' ∧
      k.Extends drv.geometry (served entry line frame) k' := by
  cases entry with
  | some handler => exact ⟨_, rfl, rfl, wellFormed, rfl⟩
  | none => exact reportNoHandler_effect drv env line.irq wellFormed

theorem irqDispatch_effect (line : Line) (frame : InterruptFrame)
    (wellFormed : k.console.WellFormed drv.geometry) :
    ∃ k', irqDispatch drv env line.irq frame k = some k' ∧
      k.Extends drv.geometry
        (routed k.irqHandlers[line.val] line frame) k' := by
  have entry : k.irqHandlers[line.irq.toNat]? = some k.irqHandlers[line.val] := by
    simp [line.irq_toNat]
  obtain ⟨middle, ran, extended⟩ :=
    serveIrq_effect drv env line frame k.irqHandlers[line.val] wellFormed
  refine ⟨middle.record (.eoi line.irq), ?_, extended.handlers,
    extended.console, ?_⟩
  · simp only [irqDispatch, entry, ran, Option.bind_eq_bind, Option.bind_some]
    rfl
  · simp [Kernel.record, routed, extended.events]

/-- The line whose number `interrupt_handler` computes from the vector: the
second controller's vectors are counted from its own base. -/
def Line.dispatched (line : Line) : Line :=
  ⟨line.val % 8, by omega⟩

theorem Line.vector_hardware (line : Line) :
    line.vector ≠ INTERRUPT_VECTOR_SYSCALL ∧
      ¬ line.vector < INTERRUPT_EXCEPTION_COUNT := by
  revert line
  decide

theorem Line.vector_first (line : Line) (first : line.val < 8) :
    (INTERRUPT_VECTOR_IRQ0 ≤ line.vector ∧ line.vector ≤ INTERRUPT_VECTOR_IRQ7) ∧
      line.vector - INTERRUPT_VECTOR_IRQ0 = line.dispatched.irq := by
  revert line
  decide

theorem Line.vector_second (line : Line) (second : ¬ line.val < 8) :
    ¬ (INTERRUPT_VECTOR_IRQ0 ≤ line.vector ∧
        line.vector ≤ INTERRUPT_VECTOR_IRQ7) ∧
      (INTERRUPT_VECTOR_IRQ8 ≤ line.vector ∧
        line.vector ≤ INTERRUPT_VECTOR_IRQ15) ∧
      line.vector - INTERRUPT_VECTOR_IRQ8 = line.dispatched.irq := by
  revert line
  decide

/-- The vector of a line reaches `irq_dispatch` as one of the lines 0 to 7. -/
theorem interruptHandler_line (line : Line) (frame : InterruptFrame) :
    interruptHandler drv env line.vector frame k =
      (irqDispatch drv env line.dispatched.irq frame k).map .returned := by
  rcases line.vector_hardware with ⟨noSyscall, noException⟩
  rw [interruptHandler, if_neg noSyscall, if_neg noException]
  by_cases first : line.val < 8
  · rcases line.vector_first first with ⟨inside, number⟩
    rw [if_pos inside, number]
  · rcases line.vector_second first with ⟨outside, inside, number⟩
    rw [if_neg outside, if_pos inside, number]

theorem interrupt_effect (line : Line) (frame : InterruptFrame)
    (wellFormed : k.console.WellFormed drv.geometry) :
    ∃ k', (Action.interrupt line frame).exec drv env k = some k' ∧
      k.Extends drv.geometry
        (routed k.irqHandlers[line.dispatched.val] line.dispatched frame) k' := by
  obtain ⟨final, ran, extended⟩ :=
    irqDispatch_effect drv env line.dispatched frame wellFormed
  refine ⟨final, ?_, extended⟩
  rw [Action.exec, interruptHandler_line, ran]
  rfl

/-! ## Histories -/

/-- The table holds the last registration of every line. -/
structure Kernel.Follows (g : Geometry) (k : Kernel H δ)
    (history : List (Action H)) : Prop where
  handlers : ∀ line : Line, k.irqHandlers[line.val] = lastRegistered history line
  console : k.console.WellFormed g

theorem register_follows {history : List (Action H)} (line : Line)
    (handler : Option H) (follows : k.Follows drv.geometry history) :
    ∃ k', (Action.register line handler).exec drv env k = some k' ∧
      k'.Follows drv.geometry (history ++ [.register line handler]) := by
  have index : line.irq.toNat = line.val := line.irq_toNat
  have inside : line.irq.toNat < 16 := by omega
  refine ⟨{ k with irqHandlers := k.irqHandlers.set line.val handler line.isLt },
    ?_, ?_, follows.console⟩
  · rw [Action.exec, registerIrqHandler, dif_pos inside]
    simp only [index]
  · intro other
    rw [lastRegistered_concat]
    by_cases same : line = other
    · simp [Action.registers, same]
    · have apart : line.val ≠ other.val := fun equal => same (Fin.ext equal)
      simp [Action.registers, same, apart, follows.handlers other]

theorem interrupt_follows {history : List (Action H)} (line : Line)
    (frame : InterruptFrame) (follows : k.Follows drv.geometry history) :
    ∃ k', (Action.interrupt line frame).exec drv env k = some k' ∧
      k'.Follows drv.geometry (history ++ [.interrupt line frame]) := by
  obtain ⟨final, ran, extended⟩ :=
    interrupt_effect drv env line frame follows.console
  refine ⟨final, ran, ?_, extended.console⟩
  intro other
  rw [lastRegistered_concat, extended.handlers]
  exact follows.handlers other

/-- Every history runs to its end and leaves its last registrations in the
table. -/
theorem run_follows {console : Console δ}
    (wellFormed : console.WellFormed drv.geometry) (history : List (Action H)) :
    ∃ k, runAll (Action.exec drv env) history (Kernel.boot console) = some k ∧
      k.Follows drv.geometry history := by
  induction history using List.reverseRecOn with
  | nil =>
      refine ⟨_, rfl, ?_, wellFormed⟩
      intro line
      simp [Kernel.boot, lastRegistered]
  | append_singleton history action inductionHypothesis =>
      rcases inductionHypothesis with ⟨middle, ran, follows⟩
      have last : ∃ k', action.exec drv env middle = some k' ∧
          k'.Follows drv.geometry (history ++ [action]) := by
        cases action with
        | register line handler =>
            exact register_follows drv env line handler follows
        | interrupt line frame =>
            exact interrupt_follows drv env line frame follows
      rcases last with ⟨final, stepped, kept⟩
      exact ⟨final, by rw [runAll_concat, ran, Option.bind_some, stepped], kept⟩

/-- Two interrupts are acknowledged alike only on one line. -/
theorem routed_injective {handler handler' : Option H} {line line' : Line}
    {frame frame' : InterruptFrame}
    (same : routed handler line frame = routed handler' line' frame') :
    line = line' := by
  have acknowledged := (List.append_inj' same rfl).2
  have numbers : line.irq = line'.irq := by simpa using acknowledged
  have values := congrArg BitVec.toNat numbers
  rw [line.irq_toNat, line'.irq_toNat] at values
  exact Fin.ext values

/-- An interrupt is routed as its line wants only if the number dispatched is
that line. -/
theorem RoutedAfter.dispatched_eq {console : Console δ}
    (wellFormed : console.WellFormed drv.geometry) {history : List (Action H)}
    {line : Line} {frame : InterruptFrame}
    (right : RoutedAfter drv env console history line frame) :
    line.dispatched = line := by
  rcases right with ⟨k, k', ran, stepped, events⟩
  rcases run_follows drv env wellFormed history with ⟨m, ran', follows⟩
  obtain rfl : k = m := Option.some.inj (ran.symm.trans ran')
  obtain ⟨m', stepped', extended⟩ :=
    interrupt_effect drv env line frame follows.console
  obtain rfl : k' = m' := Option.some.inj (stepped.symm.trans stepped')
  rw [extended.events, List.append_cancel_left_eq] at events
  exact routed_injective events

/-- Interrupt routing.  After every history, an interrupt is routed to its own
line exactly on the lines of the first controller. -/
theorem routedAfter_iff {console : Console δ}
    (wellFormed : console.WellFormed drv.geometry) (history : List (Action H))
    (line : Line) (frame : InterruptFrame) :
    RoutedAfter drv env console history line frame ↔ line.val < 8 := by
  constructor
  · intro right
    have fixed := congrArg Fin.val (right.dispatched_eq drv env wellFormed)
    simp only [Line.dispatched] at fixed
    omega
  · intro first
    have fixed : line.dispatched = line := Fin.ext (Nat.mod_eq_of_lt first)
    rcases run_follows drv env wellFormed history with ⟨k, ran, follows⟩
    obtain ⟨k', stepped, extended⟩ :=
      interrupt_effect drv env line frame follows.console
    refine ⟨k, k', ran, stepped, ?_⟩
    rw [extended.events, follows.handlers, fixed]

end Interrupts

/-! ## A screen of one cell -/

def smallDriver : TtyDriver Unit :=
  plainDriver ⟨1, 1, by decide, by decide, by decide⟩

def quietEnvironment : Environment where
  getPid := 0
  mmPageFaultVa := 0
  frameAddress := 0
  itos _ := []
  utoh _ := []

def blankFrame : InterruptFrame := ⟨0, 0, 0, 0, 0, 0, 0, 0, 0, 0, 0, 0, 0, 0⟩

theorem routedAfter_iff_keyboard :
    RoutedAfter smallDriver quietEnvironment (initTty smallDriver none ())
        [.register 1 (some "keyboard")] 1 blankFrame ↔ (1 : Line).val < 8 :=
  routedAfter_iff smallDriver quietEnvironment
    (initTty_wellFormed smallDriver (plainDriver_givesMemory _) none ())
    [.register 1 (some "keyboard")] 1 blankFrame

/-- The first line of the second controller does not get its own handler. -/
theorem cmos_interrupt_misrouted :
    ¬ RoutedAfter smallDriver quietEnvironment (initTty smallDriver none ())
        [.register 0 (some "clock"), .register 8 (some "cmos")] 8 blankFrame := by
  intro right
  have fixed := right.dispatched_eq smallDriver quietEnvironment
    (initTty_wellFormed smallDriver (plainDriver_givesMemory _) none ())
  exact absurd fixed (by decide)

end Os88.Interrupt
