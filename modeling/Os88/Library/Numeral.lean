/-
Module: Os88.Library.Numeral
Purpose: Reading a number from the front of a line, as `operator>>` does it for an
  `int`, against what the line spells.
Trusted boundary: the white space is that of the classic locale, and the base is ten.
Main exports: IsSpace, Blank, Signed, Spells, numeral, numeral_eq_some_iff,
  Spells.unique, spells_decimal, extract, extract_of_blank, spells_of_extract
-/
import Mathlib.Data.List.TakeWhile
import Os88.Library.Decimal

namespace Numeral

open Decimal

def IsSpace (ch : BitVec 8) : Prop :=
  ch = 0x20#8 ∨ 9 ≤ ch.toNat ∧ ch.toNat ≤ 13

instance (ch : BitVec 8) : Decidable (IsSpace ch) :=
  inferInstanceAs (Decidable (_ ∨ _))

/-- There is nothing but white space. -/
def Blank (text : List (BitVec 8)) : Prop :=
  ∀ ch ∈ text, IsSpace ch

instance (text : List (BitVec 8)) : Decidable (Blank text) :=
  inferInstanceAs (Decidable (∀ ch ∈ text, IsSpace ch))

/-! ## What a line spells -/

/-- A sign, if any, in front of a number. -/
inductive Signed : List (BitVec 8) → Nat → Int → Prop where
  | plain (k : Nat) : Signed [] k k
  | plus (k : Nat) : Signed [0x2B#8] k k
  | minus (k : Nat) : Signed [0x2D#8] k (-k)

/-- Behind white space the text starts with the number.  What follows its last digit
does not matter. -/
inductive Spells : List (BitVec 8) → Int → Prop where
  | number (blanks sign digits rest : List (BitVec 8)) (n : Int) (spaces : Blank blanks)
      (signed : Signed sign (value digits) n) (nonempty : digits ≠ [])
      (allDigits : ∀ ch ∈ digits, IsDigit ch) (ends : ∀ ch ∈ rest.head?, ¬ IsDigit ch) :
      Spells (blanks ++ (sign ++ (digits ++ rest))) n

/-! ## Reading it -/

/-- The digits at the front of a text, with the sign in front of them. -/
def readDigits (negative : Bool) (text : List (BitVec 8)) : Option Int :=
  let digits := text.takeWhile (IsDigit ·)
  if digits = [] then none
  else some (if negative then -(value digits : Int) else value digits)

def readSigned : List (BitVec 8) → Option Int
  | [] => none
  | ch :: rest =>
      if ch = 0x2D#8 then readDigits true rest
      else if ch = 0x2B#8 then readDigits false rest
      else readDigits false (ch :: rest)

def numeral (text : List (BitVec 8)) : Option Int :=
  readSigned (text.dropWhile (IsSpace ·))

section Reading

variable {text digits rest : List (BitVec 8)} {n : Int}

theorem not_isSpace_of_isDigit {ch : BitVec 8} (isDigit : IsDigit ch) : ¬ IsSpace ch := by
  rintro (rfl | ⟨-, high⟩)
  · exact absurd isDigit.1 (by decide)
  · have low := isDigit.1
    omega

theorem readDigits_append (negative : Bool) (nonempty : digits ≠ [])
    (allDigits : ∀ ch ∈ digits, IsDigit ch) (ends : ∀ ch ∈ rest.head?, ¬ IsDigit ch) :
    readDigits negative (digits ++ rest) =
      some (if negative then -(value digits : Int) else value digits) := by
  have behind : rest.takeWhile (IsDigit ·) = [] := by
    cases rest with
    | nil => rfl
    | cons ch rest => exact List.takeWhile_cons_of_neg (by simpa using ends ch rfl)
  have taken : (digits ++ rest).takeWhile (IsDigit ·) = digits := by
    rw [List.takeWhile_append_of_pos fun ch member => decide_eq_true (allDigits ch member),
      behind, List.append_nil]
  simp only [readDigits, taken, if_neg nonempty]

theorem readDigits_eq_some {negative : Bool} (read : readDigits negative text = some n) :
    ∃ digits rest, text = digits ++ rest ∧ digits ≠ [] ∧ (∀ ch ∈ digits, IsDigit ch) ∧
      (∀ ch ∈ rest.head?, ¬ IsDigit ch) ∧
      n = if negative then -(value digits : Int) else value digits := by
  refine ⟨text.takeWhile (IsDigit ·), text.dropWhile (IsDigit ·),
    List.takeWhile_append_dropWhile.symm, ?_, ?_, ?_, ?_⟩
  · intro empty
    rw [readDigits, if_pos empty] at read
    cases read
  · intro ch member
    simpa using List.mem_takeWhile_imp member
  · intro ch first
    have stopped := List.head?_dropWhile_not (IsDigit ·) text
    rw [Option.mem_def.mp first] at stopped
    exact of_decide_eq_false stopped
  · rw [readDigits] at read
    split at read
    · cases read
    · exact (Option.some.inj read).symm

/-- In front of the digits there is no sign and no white space. -/
theorem readSigned_digits (nonempty : digits ≠ []) (allDigits : ∀ ch ∈ digits, IsDigit ch)
    (rest : List (BitVec 8)) :
    readSigned (digits ++ rest) = readDigits false (digits ++ rest) := by
  obtain ⟨ch, others, rfl⟩ := List.exists_cons_of_ne_nil nonempty
  have isDigit := allDigits ch (List.mem_cons_self ..)
  have notMinus : ch ≠ 0x2D#8 := fun same => absurd (same ▸ isDigit) (by decide)
  have notPlus : ch ≠ 0x2B#8 := fun same => absurd (same ▸ isDigit) (by decide)
  rw [List.cons_append, readSigned, if_neg notMinus, if_neg notPlus]

theorem numeral_of_spells (spells : Spells text n) : numeral text = some n := by
  rcases spells with ⟨blanks, sign, digits, rest, n, spaces, signed, nonempty, allDigits, ends⟩
  have skipped : (blanks ++ (sign ++ (digits ++ rest))).dropWhile (IsSpace ·) =
      sign ++ (digits ++ rest) := by
    rw [List.dropWhile_append_of_pos fun ch member => decide_eq_true (spaces ch member)]
    cases signed with
    | plain k =>
        obtain ⟨ch, others, rfl⟩ := List.exists_cons_of_ne_nil nonempty
        have isDigit := allDigits ch (List.mem_cons_self ..)
        exact List.dropWhile_cons_of_neg (by simpa using not_isSpace_of_isDigit isDigit)
    | plus => rfl
    | minus => rfl
  rw [numeral, skipped]
  cases signed with
  | plain =>
      rw [List.nil_append, readSigned_digits nonempty allDigits]
      exact readDigits_append false nonempty allDigits ends
  | plus => exact readDigits_append false nonempty allDigits ends
  | minus => exact readDigits_append true nonempty allDigits ends

theorem spells_of_numeral (read : numeral text = some n) : Spells text n := by
  have spaces : Blank (text.takeWhile (IsSpace ·)) := fun ch member => by
    simpa using List.mem_takeWhile_imp member
  have whole : text.takeWhile (IsSpace ·) ++ text.dropWhile (IsSpace ·) = text :=
    List.takeWhile_append_dropWhile
  rw [numeral] at read
  rw [← whole]
  cases behind : text.dropWhile (IsSpace ·) with
  | nil =>
      rw [behind] at read
      cases read
  | cons ch rest =>
      rw [behind, readSigned] at read
      split at read
      · next isMinus =>
          rcases readDigits_eq_some read with
            ⟨digits, rest, rfl, nonempty, allDigits, ends, rfl⟩
          rw [isMinus]
          exact .number _ [0x2D#8] digits rest _ spaces (.minus _) nonempty allDigits ends
      · split at read
        · next isPlus =>
            rcases readDigits_eq_some read with
              ⟨digits, rest, rfl, nonempty, allDigits, ends, rfl⟩
            rw [isPlus]
            exact .number _ [0x2B#8] digits rest _ spaces (.plus _) nonempty allDigits ends
        · rcases readDigits_eq_some read with
            ⟨digits, rest, joined, nonempty, allDigits, ends, rfl⟩
          rw [joined]
          exact .number _ [] digits rest _ spaces (.plain _) nonempty allDigits ends

theorem numeral_eq_some_iff : numeral text = some n ↔ Spells text n :=
  ⟨spells_of_numeral, numeral_of_spells⟩

theorem Spells.unique {other : Int} (one : Spells text n) (two : Spells text other) :
    n = other :=
  Option.some.inj ((numeral_of_spells one).symm.trans (numeral_of_spells two))

theorem numeral_of_blank (blank : Blank text) : numeral text = none := by
  have skipped : text.dropWhile (IsSpace ·) = [] :=
    List.dropWhile_eq_nil_iff.mpr fun ch member => decide_eq_true (blank ch member)
  rw [numeral, skipped]
  rfl

theorem Spells.not_blank (spells : Spells text n) : ¬ Blank text := by
  intro blank
  cases (numeral_of_blank blank).symm.trans (numeral_of_spells spells)

/-- A number as it is printed, with something else behind it. -/
theorem spells_decimal (n : Nat) (ends : ∀ ch ∈ rest.head?, ¬ IsDigit ch) :
    Spells (decimal n ++ rest) n := by
  have nonempty : decimal n ≠ [] := List.length_pos_iff.mp (length_decimal_pos n)
  have spells := Spells.number [] [] (decimal n) rest _ nofun (.plain _) nonempty
    (fun ch member => isDigit_of_mem member) ends
  rwa [value_decimal] at spells

end Reading

/-! ## `operator>>` -/

def INT_MAX : Int := 2147483647

def clamp (n : Int) : Int := max (-2147483648) (min n INT_MAX)

/-- `ss >> n` for an `int` that holds `old`: at the end of the text nothing is stored,
what is no number gives 0, and a number that does not fit gives the nearest that does. -/
def extract (old : Int) (text : List (BitVec 8)) : Int :=
  if text.dropWhile (IsSpace ·) = [] then old
  else
    match numeral text with
    | some n => clamp n
    | none => 0

section Extracting

variable {text : List (BitVec 8)} {n old : Int}

theorem extract_of_blank (blank : Blank text) (old : Int) : extract old text = old :=
  if_pos (List.dropWhile_eq_nil_iff.mpr fun ch member => decide_eq_true (blank ch member))

theorem extract_of_not_blank (notBlank : ¬ Blank text) (old : Int) :
    extract old text = (numeral text).elim 0 clamp := by
  have behind : text.dropWhile (IsSpace ·) ≠ [] := by
    intro empty
    exact notBlank fun ch member =>
      of_decide_eq_true (List.dropWhile_eq_nil_iff.mp empty ch member)
  rw [extract, if_neg behind]
  cases numeral text <;> rfl

/-- A positive number was stored: the text spells it, unless it did not fit. -/
theorem spells_of_extract (positive : 0 < extract old text) (notBlank : ¬ Blank text)
    (fits : ∀ n, Spells text n → n ≤ INT_MAX) : Spells text (extract old text) := by
  rw [extract_of_not_blank notBlank] at positive ⊢
  cases read : numeral text with
  | none =>
      rw [read] at positive
      exact absurd positive (Int.lt_irrefl 0)
  | some n =>
      have spells := spells_of_numeral read
      have small := fits n spells
      rw [read, Option.elim_some] at positive
      have same : clamp n = n := by
        rw [clamp] at positive ⊢
        omega
      rw [Option.elim_some, same]
      exact spells

end Extracting

end Numeral
