/-
Module: Os88.StringLib.Comparison
Purpose: `strcmp` for every width of `size_t`: where it stops, what it returns
  there, and the order its results put on strings; and `strncmp`.
Trusted boundary: `strncmp` follows its documented behaviour.
Main exports: strcmpSized, strcmpSized_thirtyTwo, stopIndex, difference,
  difference_swap, difference_neg_iff, strcmpSized_of_text, strcmpSized_take,
  strcmpSized_correct, strncmp, strncmp_literal
-/
import Os88.StringLib.Functions

namespace Os88.StringLib

/-- `strcmp` with a `size_t` of `w` bits: the difference of the two bytes is an
`int`, and `res` keeps it modulo `2 ^ w`. -/
def strcmpSized (w : Nat) : Buffer → Buffer → Option (BitVec w)
  | ch1 :: rest1, ch2 :: rest2 =>
      let res := BitVec.ofInt w ((ch1.toNat : Int) - ch2.toNat)
      if res ≠ 0#w ∨ ch2 = 0#8 then some res else strcmpSized w rest1 rest2
  | _, _ => none

/-! ## The first difference of two strings -/

/-- The byte of a string at an index, where the terminator counts as 0. -/
def valueAt (s : List (BitVec 8)) (k : Nat) : Int := (s.getD k 0#8).toNat

/-- The index of the first difference of two strings, or that of the first
terminator. -/
def stopIndex : List (BitVec 8) → List (BitVec 8) → Nat
  | ch1 :: s1, ch2 :: s2 => if ch1 = ch2 then stopIndex s1 s2 + 1 else 0
  | _, _ => 0

/-- The difference of the values at that index. -/
def difference (s1 s2 : List (BitVec 8)) : Int :=
  valueAt s1 (stopIndex s1 s2) - valueAt s2 (stopIndex s1 s2)

/-- `k` is the first index at which the strings differ, or where both end. -/
structure StopsAt (s1 s2 : List (BitVec 8)) (k : Nat) : Prop where
  within1 : k ≤ s1.length
  within2 : k ≤ s2.length
  agree : s1.take k = s2.take k
  stop : s1[k]? ≠ s2[k]? ∨ (s1.length = k ∧ s2.length = k)

section Differences

variable {s1 s2 : List (BitVec 8)} {ch1 ch2 : BitVec 8}

@[simp] theorem valueAt_cons_succ (ch : BitVec 8) (s : List (BitVec 8)) (k : Nat) :
    valueAt (ch :: s) (k + 1) = valueAt s k := rfl

@[simp] theorem valueAt_cons_zero (ch : BitVec 8) (s : List (BitVec 8)) :
    valueAt (ch :: s) 0 = ch.toNat := rfl

@[simp] theorem valueAt_nil (k : Nat) : valueAt [] k = 0 := rfl

theorem stopIndex_cons_same (ch : BitVec 8) (s1 s2 : List (BitVec 8)) :
    stopIndex (ch :: s1) (ch :: s2) = stopIndex s1 s2 + 1 := if_pos rfl

theorem stopIndex_cons_other (differ : ch1 ≠ ch2) (s1 s2 : List (BitVec 8)) :
    stopIndex (ch1 :: s1) (ch2 :: s2) = 0 := if_neg differ

theorem stopsAt_stopIndex (s1 s2 : List (BitVec 8)) :
    StopsAt s1 s2 (stopIndex s1 s2) := by
  induction s1 generalizing s2 with
  | nil =>
      cases s2 with
      | nil => exact ⟨Nat.le_refl _, Nat.le_refl _, rfl, Or.inr ⟨rfl, rfl⟩⟩
      | cons ch2 s2 => exact ⟨Nat.zero_le _, Nat.zero_le _, rfl, Or.inl (by simp [stopIndex])⟩
  | cons ch1 s1 inductionHypothesis =>
      cases s2 with
      | nil => exact ⟨Nat.zero_le _, Nat.zero_le _, rfl, Or.inl (by simp [stopIndex])⟩
      | cons ch2 s2 =>
          by_cases same : ch1 = ch2
          · subst same
            rcases inductionHypothesis s2 with ⟨within1, within2, agree, stop⟩
            rw [stopIndex_cons_same]
            exact ⟨Nat.succ_le_succ within1, Nat.succ_le_succ within2, by simp [agree],
              by simpa using stop⟩
          · rw [stopIndex_cons_other same]
            exact ⟨Nat.zero_le _, Nat.zero_le _, rfl, Or.inl (by simp [same])⟩

@[simp] theorem difference_nil_nil : difference [] [] = 0 := rfl

@[simp] theorem difference_nil_cons (ch2 : BitVec 8) (s2 : List (BitVec 8)) :
    difference [] (ch2 :: s2) = -ch2.toNat := by
  simp [difference, stopIndex]

@[simp] theorem difference_cons_nil (ch1 : BitVec 8) (s1 : List (BitVec 8)) :
    difference (ch1 :: s1) [] = ch1.toNat := by
  simp [difference, stopIndex]

@[simp] theorem difference_cons_same (ch : BitVec 8) (s1 s2 : List (BitVec 8)) :
    difference (ch :: s1) (ch :: s2) = difference s1 s2 := by
  simp [difference, stopIndex_cons_same]

theorem difference_cons_other (differ : ch1 ≠ ch2) (s1 s2 : List (BitVec 8)) :
    difference (ch1 :: s1) (ch2 :: s2) = (ch1.toNat : Int) - ch2.toNat := by
  simp [difference, stopIndex_cons_other differ]

theorem difference_swap (s1 s2 : List (BitVec 8)) :
    difference s2 s1 = -difference s1 s2 := by
  induction s1 generalizing s2 with
  | nil => cases s2 <;> simp
  | cons ch1 s1 inductionHypothesis =>
      cases s2 with
      | nil => simp
      | cons ch2 s2 =>
          by_cases same : ch1 = ch2
          · subst same
            simp [inductionHypothesis s2]
          · rw [difference_cons_other same, difference_cons_other (Ne.symm same)]
            omega

/-- A difference of two bytes. -/
theorem difference_bounds (s1 s2 : List (BitVec 8)) :
    -256 < difference s1 s2 ∧ difference s1 s2 < 256 := by
  have bound1 := (s1.getD (stopIndex s1 s2) 0#8).isLt
  have bound2 := (s2.getD (stopIndex s1 s2) 0#8).isLt
  simp only [difference, valueAt]
  omega

theorem toNat_pos_of_ne_zero {ch : BitVec 8} (present : ch ≠ 0#8) : 0 < ch.toNat :=
  Nat.pos_of_ne_zero fun zero => present (BitVec.eq_of_toNat_eq zero)

/-- The sign of the difference is the lexicographic order of the bytes. -/
theorem difference_neg_iff (nulFree2 : 0#8 ∉ s2) : difference s1 s2 < 0 ↔ s1 < s2 := by
  induction s1 generalizing s2 with
  | nil =>
      cases s2 with
      | nil => simp
      | cons ch2 s2 =>
          have positive := toNat_pos_of_ne_zero (List.ne_of_not_mem_cons nulFree2).symm
          rw [difference_nil_cons]
          exact iff_of_true (by omega) (List.nil_lt_cons ch2 s2)
  | cons ch1 s1 inductionHypothesis =>
      cases s2 with
      | nil => simp
      | cons ch2 s2 =>
          have absent := List.not_mem_of_not_mem_cons nulFree2
          by_cases same : ch1 = ch2
          · subst same
            rw [difference_cons_same, inductionHypothesis absent, List.cons_lt_cons_iff]
            simp
          · rw [difference_cons_other same, List.cons_lt_cons_iff, BitVec.lt_def]
            simp only [same, false_and, or_false]
            omega

theorem difference_nonpos_iff (nulFree1 : 0#8 ∉ s1) : difference s1 s2 ≤ 0 ↔ s1 ≤ s2 := by
  rw [← List.not_lt, ← difference_neg_iff nulFree1, difference_swap s1 s2]
  omega

theorem difference_eq_zero_iff (nulFree1 : 0#8 ∉ s1) (nulFree2 : 0#8 ∉ s2) :
    difference s1 s2 = 0 ↔ s1 = s2 := by
  have forth : difference s1 s2 ≤ 0 ↔ s1 ≤ s2 := difference_nonpos_iff nulFree1
  have back : difference s2 s1 ≤ 0 ↔ s2 ≤ s1 := difference_nonpos_iff nulFree2
  rw [difference_swap s1 s2] at back
  constructor
  · intro zero
    exact List.le_antisymm (forth.mp (by omega)) (back.mp (by omega))
  · rintro rfl
    have atMost := forth.mpr (List.le_refl s1)
    have atLeast := back.mpr (List.le_refl s1)
    omega

end Differences

/-! ## What `strcmp` returns -/

section Results

variable {w : Nat} {str1 str2 str3 : Buffer} {s1 s2 s3 : List (BitVec 8)}

/-- A `size_t` of 9 bits or more keeps the difference of two bytes. -/
theorem toInt_ofInt_difference (wide : 9 ≤ w) (s1 s2 : List (BitVec 8)) :
    (BitVec.ofInt w (difference s1 s2)).toInt = difference s1 s2 := by
  have bounds := difference_bounds s1 s2
  have room : 2 ^ 9 ≤ 2 ^ w := Nat.pow_le_pow_right (by decide) wide
  rw [BitVec.toInt_ofInt]
  apply Int.bmod_eq_of_le <;> omega

theorem ofInt_byte_sub_eq_zero_iff (wide : 9 ≤ w) (ch1 ch2 : BitVec 8) :
    BitVec.ofInt w ((ch1.toNat : Int) - ch2.toNat) = 0#w ↔ ch1 = ch2 := by
  have room : 2 ^ 9 ≤ 2 ^ w := Nat.pow_le_pow_right (by decide) wide
  have bound1 := ch1.isLt
  have bound2 := ch2.isLt
  constructor
  · intro zero
    have value := congrArg BitVec.toInt zero
    rw [BitVec.toInt_ofInt, BitVec.toInt_zero, Int.bmod_eq_of_le (by omega) (by omega)] at value
    apply BitVec.eq_of_toNat_eq
    omega
  · rintro rfl
    simp

theorem strcmpSized_thirtyTwo (str1 str2 : Buffer) :
    strcmpSized 32 str1 str2 = strcmp str1 str2 := by
  induction str1 generalizing str2 with
  | nil => rfl
  | cons ch1 rest1 inductionHypothesis =>
      cases str2 with
      | nil => rfl
      | cons ch2 rest2 =>
          have same : BitVec.ofInt 32 ((ch1.toNat : Int) - ch2.toNat) =
              ch1.setWidth 32 - ch2.setWidth 32 := by
            rw [Int.sub_eq_add_neg, BitVec.ofInt_add, BitVec.ofInt_neg, ← BitVec.sub_eq_add_neg,
              BitVec.ofInt_natCast, BitVec.ofInt_natCast, BitVec.ofNat_toNat, BitVec.ofNat_toNat]
          simp only [strcmpSized, strcmp, same, inductionHypothesis]

theorem strcmpSized_differ (wide : 9 ≤ w) {ch1 ch2 : BitVec 8} (differ : ch1 ≠ ch2)
    (rest1 rest2 : Buffer) :
    strcmpSized w (ch1 :: rest1) (ch2 :: rest2) =
      some (BitVec.ofInt w ((ch1.toNat : Int) - ch2.toNat)) := by
  have nonzero := mt (ofInt_byte_sub_eq_zero_iff wide ch1 ch2).mp differ
  exact if_pos (Or.inl nonzero)

theorem strcmpSized_ended (w : Nat) (rest1 rest2 : Buffer) :
    strcmpSized w (0#8 :: rest1) (0#8 :: rest2) = some 0#w := by
  simp [strcmpSized]

theorem strcmpSized_same {ch : BitVec 8} (present : ch ≠ 0#8) (rest1 rest2 : Buffer) :
    strcmpSized w (ch :: rest1) (ch :: rest2) = strcmpSized w rest1 rest2 := by
  simp [strcmpSized, present]

/-- The bytes up to the first difference, and no others, decide the result. -/
theorem strcmpSized_take (wide : 9 ≤ w) (held1 : text str1 = some s1)
    (held2 : text str2 = some s2) :
    strcmpSized w (str1.take (stopIndex s1 s2 + 1)) (str2.take (stopIndex s1 s2 + 1)) =
      some (BitVec.ofInt w (difference s1 s2)) := by
  induction str1 generalizing str2 s1 s2 with
  | nil => cases held1
  | cons ch1 rest1 inductionHypothesis =>
      cases str2 with
      | nil => cases held2
      | cons ch2 rest2 =>
          rw [List.take_succ_cons, List.take_succ_cons]
          rcases text_cons_cases held1 with ⟨rfl, rfl⟩ | ⟨present1, tail1, heldTail1, rfl⟩
          · rcases text_cons_cases held2 with ⟨rfl, rfl⟩ | ⟨present2, tail2, -, rfl⟩
            · rw [strcmpSized_ended]
              simp
            · rw [strcmpSized_differ wide (Ne.symm present2)]
              simp
          · rcases text_cons_cases held2 with ⟨rfl, rfl⟩ | ⟨present2, tail2, heldTail2, rfl⟩
            · rw [strcmpSized_differ wide present1]
              simp
            · by_cases same : ch1 = ch2
              · subst same
                rw [strcmpSized_same present1, stopIndex_cons_same, difference_cons_same]
                exact inductionHypothesis heldTail1 heldTail2
              · rw [strcmpSized_differ wide same, difference_cons_other same]

/-- Bytes behind those that a call reads do not change its result. -/
theorem strcmpSized_append {res : BitVec w} (compared : strcmpSized w str1 str2 = some res)
    (more1 more2 : Buffer) :
    strcmpSized w (str1 ++ more1) (str2 ++ more2) = some res := by
  induction str1 generalizing str2 with
  | nil => cases compared
  | cons ch1 rest1 inductionHypothesis =>
      cases str2 with
      | nil => cases compared
      | cons ch2 rest2 =>
          simp only [List.cons_append, strcmpSized] at compared ⊢
          split_ifs with stopped
          · rwa [if_pos stopped] at compared
          · rw [if_neg stopped] at compared
            exact inductionHypothesis compared

theorem strcmpSized_of_text (wide : 9 ≤ w) (held1 : text str1 = some s1)
    (held2 : text str2 = some s2) :
    strcmpSized w str1 str2 = some (BitVec.ofInt w (difference s1 s2)) := by
  have whole := strcmpSized_append (strcmpSized_take wide held1 held2)
    (str1.drop (stopIndex s1 s2 + 1)) (str2.drop (stopIndex s1 s2 + 1))
  rwa [List.take_append_drop, List.take_append_drop] at whole

/-- The result of a comparison, read as a signed number, is the order of the two
strings. -/
theorem strcmpSized_value (wide : 9 ≤ w) (held1 : text str1 = some s1)
    (held2 : text str2 = some s2) :
    ∃ res, strcmpSized w str1 str2 = some res ∧ res = BitVec.ofInt w (difference s1 s2) ∧
      (res = 0#w ↔ s1 = s2) ∧ (res.toInt < 0 ↔ s1 < s2) ∧ (res.toInt ≤ 0 ↔ s1 ≤ s2) := by
  have nulFree1 := (CString.text_eq_some_iff.mp held1).1
  have nulFree2 := (CString.text_eq_some_iff.mp held2).1
  refine ⟨_, strcmpSized_of_text wide held1 held2, rfl, ?_, ?_, ?_⟩
  · rw [← difference_eq_zero_iff nulFree1 nulFree2, ← BitVec.toInt_inj,
      toInt_ofInt_difference wide, BitVec.toInt_zero]
  · rw [toInt_ofInt_difference wide, difference_neg_iff nulFree2]
  · rw [toInt_ofInt_difference wide, difference_nonpos_iff nulFree1]

/-- `strcmp` reads up to the first difference or the end, and returns the
difference there. -/
theorem strcmpSized_stops (wide : 9 ≤ w) (held1 : text str1 = some s1)
    (held2 : text str2 = some s2) :
    ∃ res k, StopsAt s1 s2 k ∧
      strcmpSized w str1 str2 = some res ∧
      strcmpSized w (str1.take (k + 1)) (str2.take (k + 1)) = some res ∧
      res = BitVec.ofInt w (valueAt s1 k - valueAt s2 k) ∧
      (res = 0#w ↔ s1 = s2) ∧ (res.toInt < 0 ↔ s1 < s2) := by
  rcases strcmpSized_value wide held1 held2 with ⟨res, compared, value, zero, less, -⟩
  have front := strcmpSized_take wide held1 held2
  rw [← value] at front
  exact ⟨res, stopIndex s1 s2, stopsAt_stopIndex s1 s2, compared, front, value, zero, less⟩

/-- Comparing both ways gives opposite results. -/
theorem strcmpSized_antisymm (wide : 9 ≤ w) (held1 : text str1 = some s1)
    (held2 : text str2 = some s2) :
    ∃ forth back, strcmpSized w str1 str2 = some forth ∧
      strcmpSized w str2 str1 = some back ∧ forth + back = 0#w ∧
      (forth.toInt ≤ 0 → back.toInt ≤ 0 → s1 = s2) := by
  rcases strcmpSized_value wide held1 held2 with ⟨forth, compared, value, -, -, atMost⟩
  rcases strcmpSized_value wide held2 held1 with ⟨back, compared', value', -, -, atMost'⟩
  refine ⟨forth, back, compared, compared', ?_, ?_⟩
  · rw [value, value', difference_swap s1 s2, ← BitVec.ofInt_add, Int.add_right_neg]
    rfl
  · intro nonpos nonpos'
    exact List.le_antisymm (atMost.mp nonpos) (atMost'.mp nonpos')

/-- The results of three comparisons are transitive. -/
theorem strcmpSized_trans (wide : 9 ≤ w) (held1 : text str1 = some s1)
    (held2 : text str2 = some s2) (held3 : text str3 = some s3) :
    ∃ first second whole, strcmpSized w str1 str2 = some first ∧
      strcmpSized w str2 str3 = some second ∧ strcmpSized w str1 str3 = some whole ∧
      (first.toInt < 0 → second.toInt < 0 → whole.toInt < 0) ∧
      (first.toInt ≤ 0 → second.toInt ≤ 0 → whole.toInt ≤ 0) := by
  rcases strcmpSized_value wide held1 held2 with ⟨first, compared1, -, -, less1, atMost1⟩
  rcases strcmpSized_value wide held2 held3 with ⟨second, compared2, -, -, less2, atMost2⟩
  rcases strcmpSized_value wide held1 held3 with ⟨whole, compared3, -, -, less3, atMost3⟩
  refine ⟨first, second, whole, compared1, compared2, compared3, ?_, ?_⟩
  · intro negative1 negative2
    exact less3.mpr (List.lt_trans (less1.mp negative1) (less2.mp negative2))
  · intro nonpos1 nonpos2
    exact atMost3.mpr (List.le_trans (atMost1.mp nonpos1) (atMost2.mp nonpos2))

end Results

/-- `strcmp` stops at the first difference and returns it, and its results make
the lexicographic order of the strings. -/
theorem strcmpSized_correct {w : Nat} (wide : 9 ≤ w) :
    (∀ {str1 str2 : Buffer} {s1 s2 : List (BitVec 8)},
      text str1 = some s1 → text str2 = some s2 →
        ∃ res k, StopsAt s1 s2 k ∧
          strcmpSized w str1 str2 = some res ∧
          strcmpSized w (str1.take (k + 1)) (str2.take (k + 1)) = some res ∧
          res = BitVec.ofInt w (valueAt s1 k - valueAt s2 k) ∧
          (res = 0#w ↔ s1 = s2) ∧ (res.toInt < 0 ↔ s1 < s2)) ∧
    (∀ {str1 str2 : Buffer} {s1 s2 : List (BitVec 8)},
      text str1 = some s1 → text str2 = some s2 →
        ∃ forth back, strcmpSized w str1 str2 = some forth ∧
          strcmpSized w str2 str1 = some back ∧ forth + back = 0#w ∧
          (forth.toInt ≤ 0 → back.toInt ≤ 0 → s1 = s2)) ∧
    (∀ {str1 str2 str3 : Buffer} {s1 s2 s3 : List (BitVec 8)},
      text str1 = some s1 → text str2 = some s2 → text str3 = some s3 →
        ∃ first second whole, strcmpSized w str1 str2 = some first ∧
          strcmpSized w str2 str3 = some second ∧ strcmpSized w str1 str3 = some whole ∧
          (first.toInt < 0 → second.toInt < 0 → whole.toInt < 0) ∧
          (first.toInt ≤ 0 → second.toInt ≤ 0 → whole.toInt ≤ 0)) :=
  ⟨strcmpSized_stops wide, strcmpSized_antisymm wide, strcmpSized_trans wide⟩

/-- With a `size_t` of 32 bits, as the kernel is built. -/
theorem strcmpSized_correct_thirtyTwo :
    9 ≤ 32 ∧ ∃ res k, StopsAt [0x6C#8, 0x73#8] [0x6C#8] k ∧
      strcmpSized 32 [0x6C#8, 0x73#8, 0#8] [0x6C#8, 0#8] = some res ∧
      strcmpSized 32 ([0x6C#8, 0x73#8, 0#8].take (k + 1)) ([0x6C#8, 0#8].take (k + 1)) =
        some res ∧
      res = BitVec.ofInt 32 (valueAt [0x6C#8, 0x73#8] k - valueAt [0x6C#8] k) ∧
      (res = 0#32 ↔ [0x6C#8, 0x73#8] = [0x6C#8]) ∧
      (res.toInt < 0 ↔ [0x6C#8, 0x73#8] < [0x6C#8]) :=
  ⟨by decide, (strcmpSized_correct (by decide)).1 rfl rfl⟩

/-! ## `strncmp` -/

/-- At most `n` bytes of two strings are compared, up to the first difference or
terminator; the result is an `int` with the sign of the difference. -/
def strncmp : Buffer → Buffer → Nat → Option Int
  | _, _, 0 => some 0
  | ch1 :: rest1, ch2 :: rest2, n + 1 =>
      if ch1 ≠ ch2 then some ((ch1.toNat : Int) - ch2.toNat)
      else if ch1 = 0#8 then some 0
      else strncmp rest1 rest2 n
  | _, _, _ + 1 => none

/-- Against a word of `n` characters or more, `strncmp` of `n` tests for its first
`n` characters. -/
theorem strncmp_literal {str : Buffer} {s word : List (BitVec 8)} {n : Nat}
    (held : text str = some s) (wordFree : 0#8 ∉ word) (long : n ≤ word.length) :
    ∃ res, strncmp str (literal word) n = some res ∧ (res = 0 ↔ word.take n <+: s) := by
  induction n generalizing str s word with
  | zero =>
      refine ⟨0, ?_, by simp⟩
      cases str <;> rfl
  | succ n inductionHypothesis =>
      cases word with
      | nil => simp at long
      | cons ch2 word =>
          have present : ch2 ≠ 0#8 := fun zero => wordFree (by simp [zero])
          cases str with
          | nil => cases held
          | cons ch1 rest =>
              rw [literal, List.cons_append, List.take_succ_cons]
              by_cases same : ch1 = ch2
              · subst same
                rcases text_cons_cases held with ⟨ended, -⟩ | ⟨-, tail, heldTail, rfl⟩
                · exact absurd ended present
                · rcases inductionHypothesis heldTail (List.not_mem_of_not_mem_cons wordFree)
                    (Nat.le_of_succ_le_succ long) with ⟨res, compared, zero⟩
                  refine ⟨res, ?_, by simp [zero]⟩
                  rw [strncmp, if_neg (by simp), if_neg present]
                  exact compared
              · refine ⟨_, by rw [strncmp, if_pos same], ?_⟩
                have differ : ch1.toNat ≠ ch2.toNat :=
                  fun equal => same (BitVec.eq_of_toNat_eq equal)
                refine iff_of_false (by omega) ?_
                rintro ⟨more, rfl⟩
                rcases text_cons_cases held with ⟨-, impossible⟩ | ⟨-, tail, -, heads⟩
                · cases impossible
                · exact same (List.cons.inj heads).1.symm

end Os88.StringLib
