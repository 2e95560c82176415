/-
Module: Os88.Interrupt.Preemption
Purpose: Kernel code that selects a tty, prints and takes the tty locks, with
  hardware interrupts between its calls: which tty each call works on.
Trusted boundary: a registered handler does not touch the ttys.
Main exports: KernelCall, Occurrence, SameTtySeen, Undisturbed,
  sameTtySeen_iff
-/
import Os88.Interrupt.Routing

namespace Os88.Interrupt

open Execution
open StringLib
open TextConsole

variable {H δ : Type}

/-! ## Interrupted code -/

/-- A call of the code that may be interrupted. -/
inductive KernelCall where
  | setCurrent (t : Option TtyId)
  | print (str : List (BitVec 8))
  | enter
  | leave

/-- A call, or a hardware interrupt in front of the next one. -/
inductive Occurrence where
  | call (made : KernelCall)
  | interrupt (line : Line) (frame : InterruptFrame)

/-- The occurrences without the interrupts. -/
def uninterrupted (occurrences : List Occurrence) : List Occurrence :=
  occurrences.filter fun
    | .call _ => true
    | .interrupt _ _ => false

section Runs

variable (drv : TtyDriver δ) (env : Environment)

def KernelCall.exec : KernelCall → Console δ → Option (Console δ)
  | .setCurrent t, c => some (ttySetCurrent t c)
  | .print str, c => (kprint drv str c).map Prod.snd
  | .enter, c => kttyEnter c
  | .leave, c => some (kttyLeave c)

def Occurrence.exec : Occurrence → Kernel H δ → Option (Kernel H δ)
  | .call made, k =>
      (made.exec drv k.console).map fun c => { k with console := c }
  | .interrupt line frame, k => (Action.interrupt line frame).exec drv env k

/-- Every call that the code reaches without the interrupts is reached with
them, and `tty_current_process` is the same there. -/
def SameTtySeen (occurrences : List Occurrence) (k : Kernel H δ) : Prop :=
  ∀ before made, before ++ [.call made] <+: occurrences →
    ∀ alone, runAll (Occurrence.exec drv env) (uninterrupted before) k = some alone →
      ∃ interrupted, runAll (Occurrence.exec drv env) before k = some interrupted ∧
        ttyCurrentProcess interrupted.console = ttyCurrentProcess alone.console

end Runs

/-! ## What the code selected -/

/-- An interrupt on the line is reported on the default tty: nobody handles
the number that is dispatched, and it is not 0. -/
def Kernel.Reports (k : Kernel H δ) (line : Line) : Prop :=
  k.irqHandlers.get line.dispatched = none ∧ line.dispatched.val ≠ 0

instance (k : Kernel H δ) (line : Line) : Decidable (k.Reports line) :=
  inferInstanceAs (Decidable (_ ∧ _))

/-- The tty that the code selected last, and whether an interrupt has been
reported since. -/
structure Selection where
  selected : Option TtyId
  disturbed : Bool

def Selection.read (k : Kernel H δ) (sel : Selection) : Occurrence → Selection
  | .call (.setCurrent t) => ⟨t, false⟩
  | .call _ => sel
  | .interrupt line _ =>
      if k.Reports line then ⟨sel.selected, true⟩ else sel

def selectionAfter (k : Kernel H δ) (occurrences : List Occurrence) : Selection :=
  occurrences.foldl (Selection.read k) ⟨k.console.currentTty, false⟩

/-- The tty of a thread that has selected none. -/
def Kernel.fallback (k : Kernel H δ) : TtyId :=
  k.console.threadTty.getD defaultTty

/-- Either no interrupt was reported, or the selected tty is the one that is
used with none selected. -/
def Selection.Harmless (k : Kernel H δ) (sel : Selection) : Prop :=
  sel.disturbed = true → sel.selected.getD k.fallback = k.fallback

instance (k : Kernel H δ) (sel : Selection) : Decidable (sel.Harmless k) :=
  inferInstanceAs (Decidable (_ → _))

/-- Every call that the code reaches without the interrupts finds its selection
so. -/
def Undisturbed (drv : TtyDriver δ) (env : Environment)
    (occurrences : List Occurrence) (k : Kernel H δ) : Prop :=
  ∀ before made, before ++ [.call made] <+: occurrences →
    ∀ alone, runAll (Occurrence.exec drv env) (uninterrupted before) k = some alone →
      (selectionAfter k before).Harmless k

theorem selectionAfter_concat (k : Kernel H δ) (before : List Occurrence)
    (occurrence : Occurrence) :
    selectionAfter k (before ++ [occurrence]) =
      (selectionAfter k before).read k occurrence := by
  simp [selectionAfter]

theorem uninterrupted_call (before : List Occurrence) (made : KernelCall) :
    uninterrupted (before ++ [.call made]) = uninterrupted before ++ [.call made] := by
  simp [uninterrupted]

theorem uninterrupted_interrupt (before : List Occurrence) (line : Line)
    (frame : InterruptFrame) :
    uninterrupted (before ++ [.interrupt line frame]) = uninterrupted before := by
  simp [uninterrupted]

theorem ttyCurrentProcess_eq (c : Console δ) :
    ttyCurrentProcess c = c.currentTty.getD (c.threadTty.getD defaultTty) := by
  unfold ttyCurrentProcess
  cases c.currentTty with
  | some t => rfl
  | none => cases c.threadTty <;> rfl

/-! ## What printing leaves alone -/

/-- The locks and the thread's tty are as before; the selected tty is
`current`. -/
structure Console.Keeps (before : Console δ) (current : Option TtyId)
    (after : Console δ) : Prop where
  locks : ∀ t, (after.ttys t).lock = (before.ttys t).lock
  threadTty : after.threadTty = before.threadTty
  currentTty : after.currentTty = current

namespace Console.Keeps

variable {c c' c'' : Console δ} {current current' : Option TtyId}

theorem same (c : Console δ) : Console.Keeps c c.currentTty c :=
  ⟨fun _ => rfl, rfl, rfl⟩

theorem trans (first : Console.Keeps c current c')
    (second : Console.Keeps c' current' c'') : Console.Keeps c current' c'' where
  locks t := (second.locks t).trans (first.locks t)
  threadTty := second.threadTty.trans first.threadTty
  currentTty := second.currentTty

theorem setCurrent (t : Option TtyId) (c : Console δ) :
    Console.Keeps c t (ttySetCurrent t c) :=
  ⟨fun _ => rfl, rfl, rfl⟩

end Console.Keeps

section Printing

variable (drv : TtyDriver δ) {c : Console δ}

/-- `kprint` changes cells and cursors only. -/
theorem kprint_keeps (str : List (BitVec 8))
    (wellFormed : c.WellFormed drv.geometry) :
    ∃ c', (kprint drv str c).map Prod.snd = some c' ∧
      c'.WellFormed drv.geometry ∧ Console.Keeps c c.currentTty c' := by
  obtain ⟨c', printed, changed⟩ :=
    ttyPrint_effect drv str (wellFormed (ttyCurrentProcess c))
  refine ⟨c', by rw [kprint, printed]; rfl, ?_, ?_, changed.threadTty,
    changed.currentTty⟩
  · exact changed.wellFormed wellFormed ((wellFormed _).print str)
  · intro t
    by_cases printedOn : t = ttyCurrentProcess c
    · rw [printedOn, changed.self, Tty.print_lock]
    · rw [changed.other printedOn]

theorem kprintEach_keeps (strings : List (List (BitVec 8)))
    (wellFormed : c.WellFormed drv.geometry) :
    ∃ c', kprintEach drv strings c = some c' ∧ c'.WellFormed drv.geometry ∧
      Console.Keeps c c.currentTty c' := by
  apply runAll_total
    (fun c' => c'.WellFormed drv.geometry ∧ Console.Keeps c c.currentTty c')
    ⟨wellFormed, Console.Keeps.same c⟩
  rintro str - middle ⟨kept, keeps⟩
  rcases kprint_keeps drv str kept with ⟨final, printed, kept', keeps'⟩
  rw [keeps.currentTty] at keeps'
  exact ⟨final, printed, kept', keeps.trans keeps'⟩

end Printing

/-! ## What an interrupt leaves alone -/

/-- The handlers and everything but the cells and cursors of the ttys are as
before; the selected tty is `current`. -/
structure Kernel.Resumes (g : Geometry) (k : Kernel H δ)
    (current : Option TtyId) (k' : Kernel H δ) : Prop where
  handlers : k'.irqHandlers = k.irqHandlers
  wellFormed : k'.console.WellFormed g
  keeps : Console.Keeps k.console current k'.console

section Interrupts

variable (drv : TtyDriver δ) (env : Environment) {k : Kernel H δ}

/-- The report leaves no tty selected. -/
theorem reportNoHandler_resumes (line : Line)
    (wellFormed : k.console.WellFormed drv.geometry) :
    ∃ k', reportNoHandler drv env line.irq k = some k' ∧
      k.Resumes drv.geometry
        (if line.val ≠ 0 then none else k.console.currentTty) k' := by
  unfold reportNoHandler
  have reported : 1 ≤ line.irq ↔ line.val ≠ 0 := by
    rw [BitVec.le_def, line.irq_toNat]
    exact Nat.one_le_iff_ne_zero
  by_cases silent : line.val = 0
  · rw [if_neg (by rw [reported]; exact not_not.mpr silent), if_neg (not_not.mpr silent)]
    exact ⟨k, rfl, rfl, wellFormed, Console.Keeps.same _⟩
  · rw [if_pos (reported.mpr silent), if_pos silent]
    have selected : (ttySetCurrent (some defaultTty) k.console).WellFormed
        drv.geometry := wellFormed
    obtain ⟨c, printed, kept, keeps⟩ := kprintEach_keeps drv
      ([bytes "[KDEBUG] No handler for IRQ #"] ++
        kprintInt env (line.irq.setWidth 32) ++ [bytes "\n"]) selected
    simp only [printed, Option.bind_eq_bind, Option.bind_some]
    refine ⟨_, rfl, rfl, kept, ?_⟩
    exact ((Console.Keeps.setCurrent (some defaultTty) k.console).trans keeps).trans
      (Console.Keeps.setCurrent none c)

theorem interrupt_resumes (line : Line) (frame : InterruptFrame)
    (wellFormed : k.console.WellFormed drv.geometry) :
    ∃ k', (Action.interrupt line frame).exec drv env k = some k' ∧
      k.Resumes drv.geometry
        (if k.Reports line then none else k.console.currentTty) k' := by
  have entry : k.irqHandlers[line.dispatched.irq.toNat]? =
      some (k.irqHandlers.get line.dispatched) := by
    rw [line.dispatched.irq_toNat, Vector.getElem?_eq_getElem line.dispatched.isLt]
    rfl
  have served : ∃ k', serveIrq drv env line.dispatched.irq frame k
        (k.irqHandlers.get line.dispatched) = some k' ∧
      k.Resumes drv.geometry
        (if k.Reports line then none else k.console.currentTty) k' := by
    cases handler : k.irqHandlers.get line.dispatched with
    | some handler =>
        have unreported : ¬ k.Reports line := by simp [Kernel.Reports, handler]
        rw [if_neg unreported]
        exact ⟨_, rfl, rfl, wellFormed, Console.Keeps.same _⟩
    | none =>
        obtain ⟨k', ran, resumes⟩ :=
          reportNoHandler_resumes drv env line.dispatched wellFormed
        refine ⟨k', ran, ?_⟩
        simpa [Kernel.Reports, handler] using resumes
  rcases served with ⟨middle, ran, resumes⟩
  refine ⟨middle.record (.eoi line.dispatched.irq), ?_, resumes.handlers,
    resumes.wellFormed, resumes.keeps⟩
  rw [Action.exec, interruptHandler_line]
  simp only [irqDispatch, entry, ran, Option.bind_eq_bind, Option.bind_some]
  rfl

end Interrupts

/-! ## The two runs side by side -/

/-- The kernel with and without the interrupts so far: the same locks, and the
selection either intact or lost. -/
structure Kernel.Agree (g : Geometry) (k : Kernel H δ) (sel : Selection)
    (interrupted alone : Kernel H δ) : Prop where
  handlers : interrupted.irqHandlers = k.irqHandlers
  wellFormed : interrupted.console.WellFormed g
  aloneWellFormed : alone.console.WellFormed g
  locks : ∀ t, (interrupted.console.ttys t).lock = (alone.console.ttys t).lock
  threadTty : interrupted.console.threadTty = k.console.threadTty
  aloneThreadTty : alone.console.threadTty = k.console.threadTty
  currentTty : interrupted.console.currentTty =
    if sel.disturbed = true then none else sel.selected
  aloneCurrentTty : alone.console.currentTty = sel.selected

section Agreement

variable {drv : TtyDriver δ} {env : Environment} {sel : Selection}
  {k interrupted alone : Kernel H δ}

theorem agree_start (wellFormed : k.console.WellFormed drv.geometry) :
    k.Agree drv.geometry ⟨k.console.currentTty, false⟩ k k :=
  ⟨rfl, wellFormed, wellFormed, fun _ => rfl, rfl, rfl, rfl, rfl⟩

/-- The two runs work on one tty exactly when the loss of the selection does no
harm. -/
theorem Kernel.Agree.same_iff
    (agree : k.Agree drv.geometry sel interrupted alone) :
    ttyCurrentProcess interrupted.console = ttyCurrentProcess alone.console ↔
      sel.Harmless k := by
  rw [ttyCurrentProcess_eq, ttyCurrentProcess_eq, agree.currentTty,
    agree.aloneCurrentTty, agree.threadTty, agree.aloneThreadTty,
    Selection.Harmless, Kernel.fallback]
  cases sel.disturbed with
  | true => simp [eq_comm]
  | false => simp

theorem Kernel.Agree.interrupt
    (agree : k.Agree drv.geometry sel interrupted alone) (line : Line)
    (frame : InterruptFrame) :
    ∃ k', (Occurrence.interrupt line frame).exec drv env interrupted = some k' ∧
      k.Agree drv.geometry (sel.read k (.interrupt line frame)) k' alone := by
  obtain ⟨k', ran, resumes⟩ :=
    interrupt_resumes drv env line frame agree.wellFormed
  have reports : interrupted.Reports line ↔ k.Reports line := by
    simp only [Kernel.Reports, agree.handlers]
  refine ⟨k', ran, resumes.handlers.trans agree.handlers, resumes.wellFormed,
    agree.aloneWellFormed, fun t => (resumes.keeps.locks t).trans (agree.locks t),
    resumes.keeps.threadTty.trans agree.threadTty, agree.aloneThreadTty, ?_, ?_⟩
  · rw [resumes.keeps.currentTty, agree.currentTty]
    simp only [reports, Selection.read]
    by_cases reported : k.Reports line
    · simp [reported]
    · simp [reported]
  · rw [agree.aloneCurrentTty]
    simp only [Selection.read]
    split <;> rfl

theorem setLock_wellFormed {g : Geometry} {c : Console δ} (wellFormed : c.WellFormed g)
    (t : TtyId) (taken : Bool) :
    (c.modify t fun tty => { tty with lock := taken }).WellFormed g := by
  have changed := Console.Becomes.modify t c fun tty => { tty with lock := taken }
  have kept := wellFormed t
  exact changed.wellFormed wellFormed ⟨kept.x_lt, kept.y_lt, kept.mem_length⟩

/-- Setting the lock of one and the same tty in both runs. -/
theorem Kernel.Agree.setLock
    (agree : k.Agree drv.geometry sel interrupted alone) (t : TtyId)
    (taken : Bool) :
    k.Agree drv.geometry sel
      { interrupted with
        console := interrupted.console.modify t fun tty => { tty with lock := taken } }
      { alone with
        console := alone.console.modify t fun tty => { tty with lock := taken } } := by
  refine ⟨agree.handlers, ?_, ?_, ?_, agree.threadTty, agree.aloneThreadTty,
    agree.currentTty, agree.aloneCurrentTty⟩
  · exact setLock_wellFormed agree.wellFormed t taken
  · exact setLock_wellFormed agree.aloneWellFormed t taken
  · intro u
    by_cases same : u = t
    · simp [same]
    · simp [Function.update_of_ne same, agree.locks u]

/-- A call that finds the same tty in both runs keeps them in agreement. -/
theorem Kernel.Agree.call (agree : k.Agree drv.geometry sel interrupted alone)
    (harmless : sel.Harmless k) (made : KernelCall) {alone' : Kernel H δ}
    (ran : (Occurrence.call made).exec drv env alone = some alone') :
    ∃ k', (Occurrence.call made).exec drv env interrupted = some k' ∧
      k.Agree drv.geometry (sel.read k (.call made)) k' alone' := by
  have same := agree.same_iff.mpr harmless
  cases made with
  | setCurrent t =>
      obtain rfl := Option.some.inj ran
      exact ⟨_, rfl, agree.handlers, agree.wellFormed, agree.aloneWellFormed,
        agree.locks, agree.threadTty, agree.aloneThreadTty, rfl, rfl⟩
  | print str =>
      obtain ⟨c, printed, kept, keeps⟩ := kprint_keeps drv str agree.wellFormed
      obtain ⟨c', printed', kept', keeps'⟩ :=
        kprint_keeps drv str agree.aloneWellFormed
      simp only [Occurrence.exec, KernelCall.exec, printed'] at ran
      obtain rfl := Option.some.inj ran
      refine ⟨{ interrupted with console := c }, ?_, agree.handlers, kept, kept', ?_,
        keeps.threadTty.trans agree.threadTty,
        keeps'.threadTty.trans agree.aloneThreadTty,
        keeps.currentTty.trans agree.currentTty,
        keeps'.currentTty.trans agree.aloneCurrentTty⟩
      · simp only [Occurrence.exec, KernelCall.exec, printed, Option.map_some]
      · intro t
        rw [keeps.locks, keeps'.locks, agree.locks]
  | enter =>
      have lock := agree.locks (ttyCurrentProcess alone.console)
      simp only [Occurrence.exec, KernelCall.exec, kttyEnter, ttyEnter, same, lock]
        at ran ⊢
      by_cases taken : (alone.console.ttys (ttyCurrentProcess alone.console)).lock = true
      · rw [if_pos taken] at ran
        cases ran
      · rw [if_neg taken] at ran ⊢
        obtain rfl := Option.some.inj ran
        exact ⟨_, rfl, agree.setLock _ true⟩
  | leave =>
      simp only [Occurrence.exec, KernelCall.exec, kttyLeave, ttyLeave, same]
        at ran ⊢
      obtain rfl := Option.some.inj ran
      exact ⟨_, rfl, agree.setLock _ false⟩

/-- As long as no call before finds its selection lost, the interrupted run
gets as far as the other one, and agrees with it. -/
theorem run_agree (wellFormed : k.console.WellFormed drv.geometry)
    (before : List Occurrence)
    (harmless : ∀ earlier made, earlier ++ [.call made] <+: before →
      (selectionAfter k earlier).Harmless k)
    (ran : runAll (Occurrence.exec drv env) (uninterrupted before) k = some alone) :
    ∃ interrupted, runAll (Occurrence.exec drv env) before k = some interrupted ∧
      k.Agree drv.geometry (selectionAfter k before) interrupted alone := by
  induction before using List.reverseRecOn generalizing alone with
  | nil =>
      obtain rfl : k = alone := Option.some.inj ran
      exact ⟨k, rfl, agree_start wellFormed⟩
  | append_singleton before occurrence inductionHypothesis =>
      have harmlessBefore : ∀ earlier made, earlier ++ [.call made] <+: before →
          (selectionAfter k earlier).Harmless k :=
        fun earlier made isPrefix =>
          harmless earlier made (isPrefix.trans (List.prefix_append before _))
      rw [selectionAfter_concat]
      cases occurrence with
      | interrupt line frame =>
          rw [uninterrupted_interrupt] at ran
          rcases inductionHypothesis harmlessBefore ran with ⟨middle, reached, agree⟩
          rcases agree.interrupt line frame with ⟨k', stepped, agree'⟩
          exact ⟨k', by rw [runAll_concat, reached, Option.bind_some, stepped], agree'⟩
      | call made =>
          rw [uninterrupted_call, runAll_concat] at ran
          rcases Option.bind_eq_some_iff.mp ran with ⟨aloneBefore, ranBefore, stepped⟩
          obtain ⟨middle, reached, agree⟩ :=
            inductionHypothesis harmlessBefore ranBefore
          obtain ⟨k', stepped', agree'⟩ :=
            agree.call (harmless before made List.prefix_rfl) made stepped
          exact ⟨k', by rw [runAll_concat, reached, Option.bind_some, stepped'], agree'⟩

/-- The code reaches every call of a prefix of what it reaches. -/
theorem reaches_earlier {earlier before : List Occurrence}
    (isPrefix : earlier <+: before)
    (ran : runAll (Occurrence.exec drv env) (uninterrupted before) k = some alone) :
    ∃ alone', runAll (Occurrence.exec drv env) (uninterrupted earlier) k =
      some alone' := by
  rcases isPrefix with ⟨rest, rfl⟩
  rw [uninterrupted, List.filter_append, runAll_append] at ran
  rcases Option.bind_eq_some_iff.mp ran with ⟨alone', ranEarlier, -⟩
  exact ⟨alone', ranEarlier⟩

/-- If all calls see the same tty, no call finds its selection lost. -/
theorem undisturbed_of_sameTtySeen (wellFormed : k.console.WellFormed drv.geometry)
    {occurrences : List Occurrence} (seen : SameTtySeen drv env occurrences k) :
    Undisturbed drv env occurrences k := by
  intro before
  induction length : before.length using Nat.strong_induction_on generalizing before with
  | _ size inductionHypothesis =>
      intro made isPrefix alone ran
      have harmless : ∀ earlier made', earlier ++ [.call made'] <+: before →
          (selectionAfter k earlier).Harmless k := by
        intro earlier made' isEarlier
        have shorter : earlier.length < size := by
          have bound := isEarlier.length_le
          rw [List.length_append, List.length_singleton] at bound
          omega
        obtain ⟨alone', ran'⟩ :=
          reaches_earlier ((List.prefix_append _ _).trans isEarlier) ran
        have whole := isEarlier.trans ((List.prefix_append _ _).trans isPrefix)
        exact inductionHypothesis _ shorter earlier rfl made' whole alone' ran'
      rcases run_agree wellFormed before harmless ran with ⟨interrupted, ran', agree⟩
      rcases seen before made isPrefix alone ran with ⟨reached, ran'', same⟩
      obtain rfl : interrupted = reached := Option.some.inj (ran'.symm.trans ran'')
      exact agree.same_iff.mp same

/-- Two runs of one program, with and without interrupts, work on the same ttys
exactly when no call comes after a reported interrupt with a selection of its
own still in force. -/
theorem sameTtySeen_iff (wellFormed : k.console.WellFormed drv.geometry)
    (occurrences : List Occurrence) :
    SameTtySeen drv env occurrences k ↔ Undisturbed drv env occurrences k := by
  constructor
  · exact undisturbed_of_sameTtySeen wellFormed
  · intro undisturbed before made isPrefix alone ran
    have harmless : ∀ earlier made', earlier ++ [.call made'] <+: before →
        (selectionAfter k earlier).Harmless k := by
      intro earlier made' isEarlier
      obtain ⟨alone', ran'⟩ :=
        reaches_earlier ((List.prefix_append _ _).trans isEarlier) ran
      have whole := isEarlier.trans ((List.prefix_append _ _).trans isPrefix)
      exact undisturbed earlier made' whole alone' ran'
    rcases run_agree wellFormed before harmless ran with ⟨interrupted, ran', agree⟩
    exact ⟨interrupted, ran', agree.same_iff.mpr (undisturbed before made isPrefix alone ran)⟩

end Agreement

/-! ## A report between a selection and a print -/

def smallKernel : Kernel String Unit :=
  Kernel.boot (initTty smallDriver none ())

theorem smallKernel_wellFormed :
    smallKernel.console.WellFormed smallDriver.geometry :=
  initTty_wellFormed smallDriver (plainDriver_givesMemory _) none ()

/-- The code selects a tty and prints, with a line firing in between. -/
def selectThenPrint (tty : TtyId) (line : Line) : List Occurrence :=
  [.call (.setCurrent (some tty)), .interrupt line blankFrame, .call (.print [])]

theorem sameTtySeen_iff_selectThenPrint :
    SameTtySeen smallDriver quietEnvironment (selectThenPrint 1 5) smallKernel ↔
      Undisturbed smallDriver quietEnvironment (selectThenPrint 1 5) smallKernel :=
  sameTtySeen_iff smallKernel_wellFormed (selectThenPrint 1 5)

theorem selectThenPrint_seen_otherwise :
    ¬ SameTtySeen smallDriver quietEnvironment (selectThenPrint 1 5) smallKernel := by
  intro seen
  have undisturbed := undisturbed_of_sameTtySeen smallKernel_wellFormed seen
  have harmless := undisturbed
    [.call (.setCurrent (some 1)), .interrupt 5 blankFrame] (.print [])
    List.prefix_rfl _ rfl
  exact absurd harmless (by decide)

end Os88.Interrupt
