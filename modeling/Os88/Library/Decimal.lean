/-
Module: Os88.Library.Decimal
Purpose: Numbers as strings of decimal digits.
Trusted boundary: none
Main exports: decimal, IsDigit, isDigit_of_mem, length_decimal_pos, length_decimal_le,
  valueFrom, value, value_decimal
-/
import Mathlib.Algebra.Group.Nat.Defs
import Mathlib.Data.List.Basic

namespace Decimal

/-- The digits of a number as characters, the highest first. -/
def decimal (n : Nat) : List (BitVec 8) :=
  (Nat.toDigits 10 n).map fun digit => BitVec.ofNat 8 digit.toNat

def IsDigit (ch : BitVec 8) : Prop :=
  0x30 ≤ ch.toNat ∧ ch.toNat ≤ 0x39

instance (ch : BitVec 8) : Decidable (IsDigit ch) :=
  inferInstanceAs (Decidable (_ ∧ _))

theorem toNat_of_isDigit {digit : Char} (isDigit : digit.isDigit = true) :
    (BitVec.ofNat 8 digit.toNat).toNat = digit.toNat ∧
      0x30 ≤ digit.toNat ∧ digit.toNat ≤ 0x39 := by
  simp only [Char.isDigit, Bool.and_eq_true, decide_eq_true_eq, ge_iff_le,
    UInt32.le_iff_toNat_le] at isDigit
  have low : 0x30 ≤ digit.toNat := isDigit.1
  have high : digit.toNat ≤ 0x39 := isDigit.2
  refine ⟨?_, low, high⟩
  rw [BitVec.toNat_ofNat]
  omega

theorem isDigit_of_mem {n : Nat} {ch : BitVec 8} (member : ch ∈ decimal n) : IsDigit ch := by
  rcases List.mem_map.mp member with ⟨digit, inDigits, rfl⟩
  rcases toNat_of_isDigit (Nat.isDigit_of_mem_toDigits (by decide) (by decide) inDigits) with
    ⟨same, low, high⟩
  exact ⟨by omega, by omega⟩

theorem length_decimal_pos (n : Nat) : 0 < (decimal n).length := by
  rw [decimal, List.length_map]
  exact Nat.length_toDigits_pos

theorem length_decimal_le {n k : Nat} (some_digits : 0 < k) (small : n < 10 ^ k) :
    (decimal n).length ≤ k := by
  rw [decimal, List.length_map]
  exact (Nat.length_toDigits_le_iff (by decide) some_digits).mpr small

/-- Reading digits behind a number that is already read. -/
def valueFrom (k : Nat) (digits : List (BitVec 8)) : Nat :=
  digits.foldl (fun k ch => 10 * k + (ch.toNat - 0x30)) k

def value (digits : List (BitVec 8)) : Nat := valueFrom 0 digits

/-- The digits of a number read as that number. -/
theorem value_decimal (n : Nat) : value (decimal n) = n := by
  have read : ∀ (digits : List Char) (k : Nat), (∀ digit ∈ digits, digit.isDigit = true) →
      valueFrom k (digits.map fun digit => BitVec.ofNat 8 digit.toNat) =
        Nat.ofDigitChars 10 digits k := by
    intro digits
    induction digits with
    | nil => simp [valueFrom]
    | cons digit digits inductionHypothesis =>
        intro k allDigits
        have first := toNat_of_isDigit (allDigits digit (List.mem_cons_self ..))
        have later := inductionHypothesis (10 * k + (digit.toNat - 0x30)) fun other member =>
          allDigits other (List.mem_cons_of_mem _ member)
        rw [Nat.ofDigitChars_cons, List.map_cons, valueFrom, List.foldl_cons, first.1]
        exact later
  have allDigits : ∀ digit ∈ Nat.toDigits 10 n, digit.isDigit = true :=
    fun digit member => Nat.isDigit_of_mem_toDigits (by decide) (by decide) member
  rw [value, decimal, read _ 0 allDigits, Nat.ofDigitChars_ten_toDigits]

end Decimal
