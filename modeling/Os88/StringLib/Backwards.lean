/-
Module: Os88.StringLib.Backwards
Purpose: The two functions of lib/string.c whose loops step backwards: `strcount`,
  with its pointer, and `str_begins_with`, with the index that ends its loop.
Trusted boundary: none
Main exports: strcount, strBeginsWith, CountsPositions, DecidesPrefix,
  strcount_eq, countsPositions_iff, strBeginsWith_of_text, decidesPrefix_iff
-/
import Os88.StringLib.Cutting

namespace Os88.StringLib

/-! ## Counting -/

/-- The loop of `strcount` with its counter `i`.  The pointer stands on `ch`;
`front` is what lies in front of it in its object, the nearest byte first, and
reading past that is a fault. -/
def strcountLoop (c ch : BitVec 8) (i : Nat) : Buffer → Option Nat
  | [] => if ch = 0#8 then some i else none
  | before :: front =>
      if ch = 0#8 then some i
      -- `*str--` has moved the pointer when the body reads it again
      else strcountLoop c before (if before = c then i + 1 else i) front

/-- The number alone is the result: no pass of the loop writes. -/
def strcount (front str : Buffer) (c : BitVec 8) : Option Nat := do
  let ch ← str.head?
  strcountLoop c ch 0 front

/-- Wherever its object begins and whatever lies behind it, `strcount` counts
the positions of the string that hold `c`, one less than `strsplit` returns. -/
def CountsPositions (s : List (BitVec 8)) (c : BitVec 8) : Prop :=
  ∀ front rest : Buffer,
    strcount front (s ++ 0#8 :: rest) c = some (s.count c) ∧
      (strsplit (s ++ 0#8 :: rest) c).map Prod.fst = some (s.count c + 1)

variable {c : BitVec 8} {s : List (BitVec 8)}

/-- What is counted are the bytes in front of the pointer, down to the previous
terminator. -/
theorem strcountLoop_eq (present : c ≠ 0#8) (ch : BitVec 8) (i : Nat) (front : Buffer) :
    strcountLoop c ch i front =
      if ch = 0#8 then some i else (text front).map fun t => i + t.count c := by
  induction front generalizing ch i with
  | nil => rfl
  | cons before front inductionHypothesis =>
      by_cases ended : ch = 0#8
      · rw [strcountLoop, if_pos ended, if_pos ended]
      · rw [strcountLoop, if_neg ended, if_neg ended, inductionHypothesis]
        by_cases last : before = 0#8
        · subst last
          rw [if_pos rfl, if_neg (Ne.symm present), text, CString.text_nul]
          rfl
        · have longer : text (before :: front) = (text front).map (before :: ·) :=
            CString.text_cons last front
          rw [if_neg last, longer, Option.map_map]
          congr 1
          funext t
          by_cases found : before = c
          · subst found
            simp only [if_true, Function.comp_apply, List.count_cons_self]
            omega
          · simp only [found, if_false, Function.comp_apply, List.count_cons_of_ne, ne_eq,
              not_false_eq_true]

/-- `strcount` never reads the string behind its first byte: on a string that is
not empty it counts in the string that ends in front of it. -/
theorem strcount_eq (present : c ≠ 0#8) (front : Buffer) (ch : BitVec 8) (rest : Buffer) :
    strcount front (ch :: rest) c =
      if ch = 0#8 then some 0 else (text front).map (List.count c) := by
  rw [strcount, List.head?_cons, Option.bind_eq_bind, Option.bind_some,
    strcountLoop_eq present]
  congr 2
  funext t
  exact Nat.zero_add _

/-- Counting agrees with splitting on the empty string and on no other. -/
theorem countsPositions_iff (nulFree : 0#8 ∉ s) (present : c ≠ 0#8) :
    CountsPositions s c ↔ s = [] := by
  constructor
  · intro counts
    cases s with
    | nil => rfl
    | cons ch s =>
        have inside : ch ≠ 0#8 := fun ended => nulFree (by simp [ended])
        have counted := (counts [] []).1
        rw [List.cons_append, strcount_eq present, if_neg inside] at counted
        cases counted
  · rintro rfl front rest
    exact ⟨by rw [List.nil_append, strcount_eq present, if_pos rfl]; rfl,
      by rw [strsplit_of_nulFree c nulFree]; rfl⟩

/-- The string `a`. -/
theorem countsPositions_iff_letter :
    0#8 ∉ [0x61#8] ∧ 0x62#8 ≠ 0#8 ∧ ¬ CountsPositions [0x61#8] 0x62#8 := by
  have nulFree : 0#8 ∉ [0x61#8] := by decide
  have present : 0x62#8 ≠ 0#8 := by decide
  refine ⟨nulFree, present, fun counts => ?_⟩
  have empty := (countsPositions_iff nulFree present).mp counts
  cases empty

/-- The string `a` behind the strings `bb`: the letters counted are those. -/
theorem not_countsPositions_letter :
    strcount [0x62#8, 0x62#8, 0#8] [0x61#8, 0#8] 0x62#8 = some 2 ∧
      strcount [] [0x61#8, 0#8] 0x62#8 = none ∧
      ¬ (∀ s : List (BitVec 8), 0#8 ∉ s → ∀ c, c ≠ 0#8 → CountsPositions s c) := by
  refine ⟨by decide, by decide, fun all => ?_⟩
  have counted := (all [0x61#8] (by decide) 0x62#8 (by decide) [] []).1
  cases counted

/-! ## Beginning with a string -/

/-- The loop of `str_begins_with`.  `j` is a `size_t` and wraps below zero. -/
def strBeginsWithLoop (str with' : Buffer) (j i : Nat) : Option Nat := do
  if (← with'[j]?) = 0#8 then return 1
  else
    match found : str[i]? with
    | none => none
    | some ch =>
        if ch ≠ (← with'[i]?) then return 0
        else strBeginsWithLoop str with' (if j = 0 then 2 ^ 32 - 1 else j - 1) (i + 1)
termination_by str.length - i
decreasing_by
  have inside := (List.getElem?_eq_some_iff.mp found).1
  omega

def strBeginsWith (str with' : Buffer) : Option Nat := do
  let j ← strlen with'
  strBeginsWithLoop str with' j 0

/-- Whatever lies behind the two terminators, `str_begins_with` returns 1 if `p`
is a prefix of `s`, and 0 if it is not. -/
def DecidesPrefix (s p : List (BitVec 8)) : Prop :=
  ∀ rest1 rest2 : Buffer,
    strBeginsWith (s ++ 0#8 :: rest1) (p ++ 0#8 :: rest2) = some (if p <+: s then 1 else 0)

/-- The first byte tested is the terminator of the second string: the loop makes
no pass. -/
theorem strBeginsWith_of_text {str with' : Buffer} {p : List (BitVec 8)}
    (held : text with' = some p) : strBeginsWith str with' = some 1 := by
  rcases CString.text_eq_some_iff.mp held with ⟨-, rest, rfl⟩
  have terminator : (p ++ 0#8 :: rest)[p.length]? = some 0#8 := by simp
  rw [strBeginsWith, strlen_of_text held, Option.bind_eq_bind, Option.bind_some,
    strBeginsWithLoop, terminator]
  rfl

/-- The relation is decided exactly where it holds. -/
theorem decidesPrefix_iff {s p : List (BitVec 8)} (nulFree : 0#8 ∉ p) :
    DecidesPrefix s p ↔ p <+: s := by
  have ran : ∀ rest1 rest2 : Buffer,
      strBeginsWith (s ++ 0#8 :: rest1) (p ++ 0#8 :: rest2) = some 1 :=
    fun rest1 rest2 => strBeginsWith_of_text (CString.text_append_nul nulFree rest2)
  constructor
  · intro decides
    by_contra other
    have decided := decides [] []
    rw [ran, if_neg other] at decided
    cases decided
  · intro begins rest1 rest2
    rw [ran, if_pos begins]

/-- The string `b` against the prefix `a`. -/
theorem decidesPrefix_iff_letters :
    0#8 ∉ [0x61#8] ∧ ¬ DecidesPrefix [0x62#8] [0x61#8] := by
  have nulFree : 0#8 ∉ [0x61#8] := by decide
  refine ⟨nulFree, fun decides => ?_⟩
  exact absurd ((decidesPrefix_iff nulFree).mp decides) (by decide)

theorem not_decidesPrefix_letters :
    strBeginsWith [0x62#8, 0#8] [0x61#8, 0#8] = some 1 ∧ ¬ [0x61#8] <+: [0x62#8] ∧
      ¬ (∀ s p : List (BitVec 8), 0#8 ∉ s → 0#8 ∉ p → DecidesPrefix s p) := by
  have ran : strBeginsWith [0x62#8, 0#8] [0x61#8, 0#8] = some 1 :=
    strBeginsWith_of_text (p := [0x61#8]) (by decide)
  refine ⟨ran, by decide, fun all => ?_⟩
  have decided := all [0x62#8] [0x61#8] (by decide) (by decide) [] []
  rw [List.singleton_append, List.singleton_append, ran] at decided
  cases decided

end Os88.StringLib
