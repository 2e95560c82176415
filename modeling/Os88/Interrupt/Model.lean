/-
Module: Os88.Interrupt.Model
Purpose: The interrupt entry of include/interrupt.c: the handler table,
  registration, the decoding of vectors and the dispatch of hardware lines.
Trusted boundary: handlers, `send_eoi`, `syscall_dispatch`, `get_pid`,
  `mm_page_fault_va` and the number formatting lie outside the repository.  A
  call that leaves it is recorded as an event; what the callee does with its own
  state is not modelled.
Main exports: InterruptFrame, Kernel, Event, registerIrqHandler, irqDispatch,
  interruptHandler
-/
import Os88.StringLib.Functions
import Os88.TextConsole.Model

namespace Os88.Interrupt

open Execution
open StringLib
open TextConsole

def INTERRUPT_VECTOR_IRQ0 : BitVec 8 := 0x20
def INTERRUPT_VECTOR_IRQ7 : BitVec 8 := INTERRUPT_VECTOR_IRQ0 + 7
def INTERRUPT_VECTOR_IRQ8 : BitVec 8 := 0x28
def INTERRUPT_VECTOR_IRQ15 : BitVec 8 := INTERRUPT_VECTOR_IRQ8 + 7
def INTERRUPT_EXCEPTION_COUNT : BitVec 8 := 32
def INTERRUPT_VECTOR_SYSCALL : BitVec 8 := 0x80

def cpuExceptionStrings : List String :=
  ["#DE Divide-by-zero Error", "#DB Debug", "--- Non-maskable Interrupt",
    "#BP Breakpoint", "#OF Overflow", "#BR Bound Range Exceeded",
    "#UD Invalid Opcode", "#NM Device Not Available", "#DF Double Fault",
    "--- Coprocessor Segment Overrun", "#TS Invalid TSS",
    "#NP Segment Not Present", "#SS Stack-Segment Fault",
    "#GP General Protection Fault", "#PF Page Fault", "--- [Reserved]",
    "#MF x87 Floating-Point Exception", "#AC Alignment Check",
    "#MC Machine Check", "#XM/#XF SIMD Floating-Point Exception",
    "#VE Virtualization Exception", "--- [Reserved]", "--- [Reserved]",
    "--- [Reserved]", "--- [Reserved]", "--- [Reserved]", "--- [Reserved]",
    "--- [Reserved]", "--- [Reserved]", "--- [Reserved]",
    "#SX Security Exception", "--- [Reserved]"]

/-- The fields of `interrupt_frame_t` that `interrupt_handler` reads. -/
structure InterruptFrame where
  isrEsp : BitVec 32
  edi : BitVec 32
  esi : BitVec 32
  ebp : BitVec 32
  ebx : BitVec 32
  edx : BitVec 32
  ecx : BitVec 32
  eax : BitVec 32
  errorcode : BitVec 32
  eip : BitVec 32
  cs : BitVec 32
  eflags : BitVec 32
  esp : BitVec 32
  ss : BitVec 32
deriving DecidableEq, Repr

/-- What the exception report asks of code outside the repository:
`get_pid()`, `mm_page_fault_va()`, the address `&frame`, and the digits that
`itos` and `utoh` write. -/
structure Environment where
  getPid : BitVec 32
  mmPageFaultVa : BitVec 32
  frameAddress : BitVec 32
  itos : BitVec 32 → List (BitVec 8)
  utoh : BitVec 32 → List (BitVec 8)

/-- A call that leaves the repository. -/
inductive Event (H : Type) where
  | ran (handler : H) (irq : BitVec 8) (frame : InterruptFrame)
  | eoi (irq : BitVec 8)
  | syscall (eax : BitVec 32) (frame : InterruptFrame)
deriving DecidableEq, Repr

/-- The table `irq_handlers` over handlers of type `H`, where null pointers are
`none`, the consoles, and the calls made so far. -/
structure Kernel (H δ : Type) where
  irqHandlers : Vector (Option H) 16
  console : Console δ
  events : List (Event H)

/-- An interrupt returns to the interrupted code, or the machine halts in the
endless loop of the exception report. -/
inductive Outcome (σ : Type) where
  | returned (s : σ)
  | halted (s : σ)

variable {H δ : Type}

def Kernel.record (k : Kernel H δ) (event : Event H) : Kernel H δ :=
  { k with events := k.events ++ [event] }

/-- A line of 16 or more lies outside the table. -/
def registerIrqHandler (irq : BitVec 8) (handler : Option H) (k : Kernel H δ) :
    Option (Kernel H δ) :=
  if inside : irq.toNat < 16 then
    some { k with irqHandlers := k.irqHandlers.set irq.toNat handler inside }
  else none

/-- The strings that `kprint_int` and `kprint_hex` print. -/
def kprintInt (env : Environment) (x : BitVec 32) : List (List (BitVec 8)) :=
  [env.itos x]

def kprintHex (env : Environment) (x : BitVec 32) : List (List (BitVec 8)) :=
  [bytes "0x", env.utoh x]

/-- One call of `kprint` after the other. -/
def kprintEach (drv : TtyDriver δ) (strings : List (List (BitVec 8)))
    (c : Console δ) : Option (Console δ) :=
  runAll (fun str c => (kprint drv str c).map Prod.snd) strings c

/-- Everything the exception branch of `interrupt_handler` prints, in order. -/
def exceptionReport (env : Environment) (vec : BitVec 8)
    (frame : InterruptFrame) : List (List (BitVec 8)) :=
  [bytes "[pid="] ++ kprintInt env env.getPid ++
    [bytes "] Exception #"] ++ kprintInt env (vec.setWidth 32) ++ [bytes ": "] ++
    [bytes (cpuExceptionStrings.getD vec.toNat "")] ++ [bytes "\n"] ++
    (if vec = 14 then
      [bytes "-> page fault linear address="] ++
        kprintHex env env.mmPageFaultVa ++ [bytes ", flags="] ++
        kprintHex env frame.errorcode ++ [bytes "\n"]
    else []) ++
    [bytes "-> errorcode="] ++ kprintHex env frame.errorcode ++
    [bytes ", frame="] ++ kprintHex env env.frameAddress ++
    [bytes "\n-> cs:eip="] ++ kprintHex env frame.cs ++ [bytes ":"] ++
    kprintHex env frame.eip ++ [bytes ", eflags="] ++
    kprintHex env frame.eflags ++
    (if frame.cs &&& 3 ≠ 0 then
      [bytes "\n-> ss:esp="] ++ kprintHex env frame.ss ++ [bytes ":"] ++
        kprintHex env frame.esp
    else []) ++
    [bytes "\n-> eax="] ++ kprintHex env frame.eax ++
    [bytes ", ebx="] ++ kprintHex env frame.ebx ++
    [bytes ", ecx="] ++ kprintHex env frame.ecx ++
    [bytes ", edx="] ++ kprintHex env frame.edx ++
    [bytes "\n-> ebp="] ++ kprintHex env frame.ebp ++
    [bytes ", esi="] ++ kprintHex env frame.esi ++
    [bytes ", edi="] ++ kprintHex env frame.edi ++
    [bytes ", isr_esp="] ++ kprintHex env frame.isrEsp ++ [bytes "\n"]

section Dispatch

variable (drv : TtyDriver δ) (env : Environment)

/-- The branch of `irq_dispatch` for a line without a handler. -/
def reportNoHandler (irq : BitVec 8) (k : Kernel H δ) :
    Option (Kernel H δ) := do
  if 1 ≤ irq then
    let c := ttySetCurrent (some defaultTty) k.console
    let c ← kprintEach drv
      ([bytes "[KDEBUG] No handler for IRQ #"] ++
        kprintInt env (irq.setWidth 32) ++ [bytes "\n"]) c
    return { k with console := ttySetCurrent none c }
  else return k

/-- The two branches of `irq_dispatch` for the table entry of its line. -/
def serveIrq (irq : BitVec 8) (frame : InterruptFrame) (k : Kernel H δ) :
    Option H → Option (Kernel H δ)
  | some handler => some (k.record (.ran handler irq frame))
  | none => reportNoHandler drv env irq k

def irqDispatch (irq : BitVec 8) (frame : InterruptFrame) (k : Kernel H δ) :
    Option (Kernel H δ) := do
  let entry ← k.irqHandlers[irq.toNat]?
  let k ← serveIrq drv env irq frame k entry
  return k.record (.eoi irq)

/-- The exception branch up to its endless loop. -/
def exceptionScreen (vec : BitVec 8) (frame : InterruptFrame)
    (c : Console δ) : Option (Console δ) := do
  let c := ttySwitch drv defaultTty c
  let c := ttySetCurrent (some defaultTty) c
  let c ← kfillColor drv (ttyMkcolor TTY_COLOR_LIGHTGREY TTY_COLOR_RED) c
  let c := ksetColor (ttyMkcolor TTY_COLOR_LIGHTGREY TTY_COLOR_RED) c
  kprintEach drv (exceptionReport env vec frame) c

def interruptHandler (vec : BitVec 8) (frame : InterruptFrame)
    (k : Kernel H δ) : Option (Outcome (Kernel H δ)) :=
  if vec = INTERRUPT_VECTOR_SYSCALL then
    some (.returned (k.record (.syscall frame.eax frame)))
  else if vec < INTERRUPT_EXCEPTION_COUNT then
    (exceptionScreen drv env vec frame k.console).map fun c =>
      .halted { k with console := c }
  else if INTERRUPT_VECTOR_IRQ0 ≤ vec ∧ vec ≤ INTERRUPT_VECTOR_IRQ7 then
    (irqDispatch drv env (vec - INTERRUPT_VECTOR_IRQ0) frame k).map .returned
  else if INTERRUPT_VECTOR_IRQ8 ≤ vec ∧ vec ≤ INTERRUPT_VECTOR_IRQ15 then
    (irqDispatch drv env (vec - INTERRUPT_VECTOR_IRQ8) frame k).map .returned
  else some (.returned k)

end Dispatch

end Os88.Interrupt
