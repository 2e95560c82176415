/-
Module: Os88.Library.SignedInt
Purpose: Arithmetic of signed machine integers in which an overflow is a fault.
Trusted boundary: none
Main exports: Fits, checked, add, mul, add_of_fits, mul_of_fits, mul_of_overflow,
  of_add, of_mul
-/
import Mathlib.Algebra.Ring.Int.Defs

namespace SignedInt

/-- The number is one of the `w`-bit integers. -/
def Fits (w : Nat) (n : Int) : Prop :=
  -2 ^ (w - 1) ≤ n ∧ n < 2 ^ (w - 1)

instance (w : Nat) (n : Int) : Decidable (Fits w n) :=
  inferInstanceAs (Decidable (_ ∧ _))

/-- The result of an operation, if it fits. -/
def checked (w : Nat) (n : Int) : Option Int :=
  if Fits w n then some n else none

def add (w : Nat) (a b : Int) : Option Int := checked w (a + b)

def mul (w : Nat) (a b : Int) : Option Int := checked w (a * b)

section Results

variable {w : Nat} {a b : Int}

theorem add_of_fits (fits : Fits w (a + b)) : add w a b = some (a + b) := if_pos fits

theorem mul_of_fits (fits : Fits w (a * b)) : mul w a b = some (a * b) := if_pos fits

theorem mul_of_overflow (overflow : ¬ Fits w (a * b)) : mul w a b = none := if_neg overflow

theorem of_add {n : Int} (added : add w a b = some n) : n = a + b :=
  (Option.some.inj ((Option.ite_none_right_eq_some.mp added).2)).symm

theorem of_mul {n : Int} (multiplied : mul w a b = some n) : n = a * b :=
  (Option.some.inj ((Option.ite_none_right_eq_some.mp multiplied).2)).symm

end Results

end SignedInt
