/-
Module: Os88.MiniOs.SquareRoot
Purpose: `sqrt` of kernel_main.c in the arithmetic of the machine: which numbers have
  their root computed, and what is returned for the others.
Trusted boundary: an overflow of `int` is a fault.
Main exports: rootTest, sqrtInt, ComputesRoot, rootTest_of_fits, rootTest_of_overflow,
  rootTest_missed, sqrt_of_sqrtInt, sqrtInt_of_between, sqrtInt_zero,
  sqrtInt_square, halfChord_middle, not_isSquare_between, computesRoot_iff
-/
import Mathlib.Algebra.Group.Even
import Os88.Library.Execution
import Os88.Library.SignedInt
import Os88.MiniOs.Circles

namespace Os88.MiniOs

open Execution
open SignedInt

/-! ## The code -/

/-- The condition of the `if`.  The second product is computed only if the first one is
not too large. -/
def rootTest (square : Int) (i : Nat) : Option Bool := do
  let lower ← SignedInt.mul 32 i i
  if lower ≤ square then
    let next ← SignedInt.add 32 i 1
    let upper ← SignedInt.mul 32 next next
    return decide (square ≤ upper)
  else return false

/-- `sqrt` with its overflows: `none` for a fault, `some none` where the loop ends
without a `return`. -/
def sqrtInt (square : Int) : Option (Option Int) :=
  (search (rootTest square) 0 square.toNat).map fun found =>
    found.map fun (i : Nat) => (i : Int)

/-- Without an overflow a value is returned, and it is the root rounded down. -/
def ComputesRoot (square : Int) : Prop :=
  ∃ root, sqrtInt square = some (some root) ∧ 0 ≤ root ∧ root * root ≤ square ∧
    square < (root + 1) * (root + 1)

/-! ## One test -/

section Test

variable {square : Int} {i : Nat}

theorem fits_iff_of_nonneg {n : Int} (nonneg : 0 ≤ n) : Fits 32 n ↔ n ≤ 2147483647 := by
  have bound : (2 : Int) ^ (32 - 1) = 2147483648 := by norm_num
  rw [Fits, bound]
  omega

theorem succ_square_nonneg (i : Nat) : (0 : Int) ≤ (i + 1) * (i + 1) :=
  mul_self_nonneg _

theorem rootTest_of_fits (fits : ((i : Int) + 1) * (i + 1) ≤ 2147483647) :
    rootTest square i =
      some (decide ((i : Int) * i ≤ square ∧ square ≤ (i + 1) * (i + 1))) := by
  have upper : Fits 32 (((i : Int) + 1) * (i + 1)) :=
    (fits_iff_of_nonneg (succ_square_nonneg i)).mpr fits
  have larger := le_self_mul (i + 1)
  have next : Fits 32 ((i : Int) + 1) := by
    refine (fits_iff_of_nonneg (by omega)).mpr ?_
    push_cast at larger
    omega
  have lower : Fits 32 ((i : Int) * i) := by
    refine (fits_iff_of_nonneg (mul_self_nonneg _)).mpr ?_
    nlinarith
  rw [rootTest, mul_of_fits lower]
  simp only [Option.bind_eq_bind, Option.bind_some]
  by_cases below : (i : Int) * i ≤ square
  · rw [if_pos below, add_of_fits next, Option.bind_some, mul_of_fits upper,
      Option.bind_some]
    simp only [below, true_and]
    rfl
  · rw [if_neg below]
    simp only [below, false_and]
    rfl

/-- Near the top of the range the next square does not fit. -/
theorem rootTest_of_overflow (small : square ≤ 2147483647) (below : (i : Int) * i ≤ square)
    (overflow : 2147483647 < ((i : Int) + 1) * (i + 1)) : rootTest square i = none := by
  have lower : Fits 32 ((i : Int) * i) :=
    (fits_iff_of_nonneg (mul_self_nonneg _)).mpr (Int.le_trans below small)
  have next : Fits 32 ((i : Int) + 1) := by
    have larger := le_self_mul i
    refine (fits_iff_of_nonneg (by omega)).mpr ?_
    nlinarith
  have upper : ¬ Fits 32 (((i : Int) + 1) * (i + 1)) := by
    rw [fits_iff_of_nonneg (succ_square_nonneg i)]
    omega
  rw [rootTest, mul_of_fits lower]
  simp only [Option.bind_eq_bind, Option.bind_some]
  rw [if_pos below, add_of_fits next, Option.bind_some, mul_of_overflow upper,
    Option.bind_none]

/-- In front of the root the next square is too small. -/
theorem rootTest_missed {r : Nat} (below : (r : Int) * r < square)
    (small : square ≤ 2147483647) (before : i < r) : rootTest square i = some false := by
  have closer : ((i : Int) + 1) * (i + 1) ≤ r * r := by
    exact_mod_cast Nat.mul_self_le_mul_self before
  rw [rootTest_of_fits (by omega)]
  simp only [Option.some.injEq, decide_eq_false_iff_not]
  rintro ⟨-, reached⟩
  omega

theorem rootTest_agrees {hit : Bool} (tested : rootTest square i = some hit) :
    (decide ((i : Int) * i ≤ square) && decide (square ≤ (i + 1) * (i + 1))) = hit := by
  rw [rootTest] at tested
  rcases Option.bind_eq_some_iff.mp tested with ⟨lower, first, tested⟩
  obtain rfl := of_mul first
  by_cases below : (i : Int) * i ≤ square
  · rw [if_pos below] at tested
    rcases Option.bind_eq_some_iff.mp tested with ⟨next, second, tested⟩
    rcases Option.bind_eq_some_iff.mp tested with ⟨upper, third, tested⟩
    obtain rfl := of_add second
    obtain rfl := of_mul third
    rw [decide_eq_true below, Bool.true_and]
    exact Option.some.inj tested
  · rw [if_neg below] at tested
    rw [decide_eq_false below, Bool.false_and]
    exact Option.some.inj tested

end Test

/-! ## The whole loop -/

section Root

variable {square : Int} {r : Nat}

/-- `sqrt` with its overflows returns what `sqrt` does, if it comes to an end. -/
theorem sqrt_of_sqrtInt {result : Option Int} (ran : sqrtInt square = some result) :
    sqrt square = result := by
  rcases Option.map_eq_some_iff.mp ran with ⟨found, searched, rfl⟩
  have same := search_find (fun i hit tested => rootTest_agrees tested) searched
  rw [sqrt, List.range_eq_range', same]

/-- The loop returns there, unless the next square does not fit in an `int`. -/
theorem sqrtInt_of_between (below : (r : Int) * r < square)
    (above : square ≤ (r + 1) * (r + 1)) (small : square ≤ 2147483647) :
    sqrtInt square =
      if ((r : Int) + 1) * (r + 1) ≤ 2147483647 then some (some (r : Int)) else none := by
  have inside : r < square.toNat := by
    have larger := le_self_mul r
    omega
  have missed : ∀ i, 0 ≤ i → i < 0 + r → rootTest square i = some false :=
    fun i _ before => rootTest_missed below small (by omega)
  by_cases fits : ((r : Int) + 1) * (r + 1) ≤ 2147483647
  · have hit : rootTest square (0 + r) = some true := by
      rw [Nat.zero_add, rootTest_of_fits fits, decide_eq_true ⟨Int.le_of_lt below, above⟩]
    rw [if_pos fits, sqrtInt, search_at inside missed (by rw [hit]; decide), hit, Nat.zero_add]
    rfl
  · have fault : rootTest square (0 + r) = none := by
      rw [Nat.zero_add]
      exact rootTest_of_overflow small (Int.le_of_lt below) (Int.not_le.mp fits)
    rw [if_neg fits, sqrtInt, search_at inside missed (by rw [fault]; decide), fault]
    rfl

/-- For 0 nothing is returned. -/
theorem sqrtInt_zero : sqrtInt 0 = some none := rfl

/-- For any other square the value is one less than its root. -/
theorem sqrtInt_square (fits : ((r : Int) + 1) * (r + 1) ≤ 2147483647) :
    sqrtInt ((r + 1) * (r + 1)) = some (some (r : Int)) := by
  have below : (r : Int) * r < (r + 1) * (r + 1) := by
    exact_mod_cast Nat.mul_self_lt_mul_self (Nat.lt_succ_self r)
  rw [sqrtInt_of_between below (Int.le_refl _) fits, if_pos fits]

/-- So a circle is one pixel short above and below its centre. -/
theorem halfChord_middle (fits : ((r : Int) + 1) * (r + 1) ≤ 2147483647) :
    halfChord (r + 1) 0 = r := by
  have root := sqrt_of_sqrtInt (sqrtInt_square fits)
  rw [halfChord, Int.mul_zero, Int.sub_zero, rootOr, root, Option.getD_some]

theorem not_isSquare_between (below : (r : Int) * r < square)
    (above : square < (r + 1) * (r + 1)) : ¬ IsSquare square := by
  rintro ⟨m, rfl⟩
  have lower : r < m.natAbs := by
    rw [← Int.natAbs_mul_self' m] at below
    exact Nat.mul_self_lt_mul_self_iff.mp (by exact_mod_cast below)
  have upper : m.natAbs < r + 1 := by
    rw [← Int.natAbs_mul_self' m] at above
    exact Nat.mul_self_lt_mul_self_iff.mp (by exact_mod_cast above)
  omega

/-- The root is computed exactly for the numbers below the square of 46340 that are no
squares themselves. -/
theorem computesRoot_iff (nonneg : 0 ≤ square) (small : square ≤ 2147483647) :
    ComputesRoot square ↔ ¬ IsSquare square ∧ square < 46340 * 46340 := by
  rcases Int.lt_or_eq_of_le nonneg with positive | zero
  · rcases between_square positive with ⟨r, below, above⟩
    have ran := sqrtInt_of_between below above small
    constructor
    · rintro ⟨root, returned, -, lower, upper⟩
      by_cases fits : ((r : Int) + 1) * (r + 1) ≤ 2147483647
      · rw [ran, if_pos fits] at returned
        obtain rfl := Option.some.inj (Option.some.inj returned)
        have bound : (r : Int) + 1 ≤ 46340 := by nlinarith
        exact ⟨not_isSquare_between below upper, by nlinarith⟩
      · rw [ran, if_neg fits] at returned
        cases returned
    · rintro ⟨notSquare, inside⟩
      have bound : (r : Int) + 1 ≤ 46340 := by nlinarith
      have fits : ((r : Int) + 1) * (r + 1) ≤ 2147483647 := by nlinarith
      rw [if_pos fits] at ran
      refine ⟨r, ran, Int.natCast_nonneg r, Int.le_of_lt below, ?_⟩
      exact lt_of_le_of_ne above fun same => notSquare ⟨r + 1, same⟩
  · subst zero
    refine iff_of_false ?_ fun conditions => conditions.1 ⟨0, rfl⟩
    rintro ⟨root, returned, -⟩
    cases returned

/-- The largest number whose root is computed. -/
theorem computesRoot_iff_largest : ComputesRoot 2147395599 :=
  (computesRoot_iff (by decide) (by decide)).mpr
    ⟨@not_isSquare_between _ 46339 (by norm_num) (by norm_num), by decide⟩

/-- The root of 4 is too small, 0 has none, and for the largest `int` the loop
overflows. -/
theorem not_computesRoot_four :
    sqrtInt 4 = some (some 1) ∧ sqrtInt 0 = some none ∧ sqrtInt 2147483647 = none ∧
      ¬ (∀ square : Int, 0 ≤ square → square ≤ 2147483647 → ComputesRoot square) := by
  have four : sqrtInt 4 = some (some 1) := @sqrtInt_square 1 (by decide)
  have largest : sqrtInt 2147483647 = none := by
    rw [@sqrtInt_of_between _ 46340 (by norm_num) (by norm_num) (by decide), if_neg]
    norm_num
  refine ⟨four, sqrtInt_zero, largest, fun all => ?_⟩
  rcases all 4 (by decide) (by decide) with ⟨root, returned, -, -, upper⟩
  obtain rfl := Option.some.inj (Option.some.inj (four.symm.trans returned))
  revert upper
  decide

end Root

end Os88.MiniOs
