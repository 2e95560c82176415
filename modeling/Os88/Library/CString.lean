/-
Module: Os88.Library.CString
Purpose: The terminated string that a buffer holds, and the strings that lie one
  behind the other in it.
Trusted boundary: none
Main exports: text, text_append, text_append_nul, text_eq_some_iff,
  text_eq_none_iff, overwrite_nul, text_set_nul, strings, strings_nul, strings_cons,
  strings_of_split
-/
import Os88.Library.Pieces

namespace CString

variable {α : Type} [DecidableEq α] {nul : α}

/-- The string at the start of a buffer, if its terminator lies inside the
buffer. -/
def text (nul : α) : List α → Option (List α)
  | [] => none
  | ch :: rest => if ch = nul then some [] else (text nul rest).map (ch :: ·)

variable {buffer s : List α}

@[simp] theorem text_nul (rest : List α) : text nul (nul :: rest) = some [] :=
  if_pos rfl

theorem text_cons {ch : α} (present : ch ≠ nul) (rest : List α) :
    text nul (ch :: rest) = (text nul rest).map (ch :: ·) :=
  if_neg present

/-- Elements other than the terminator in front of a buffer go in front of its
string. -/
theorem text_append (nulFree : nul ∉ s) (rest : List α) :
    text nul (s ++ rest) = (text nul rest).map (s ++ ·) := by
  induction s with
  | nil => simp
  | cons ch s inductionHypothesis =>
      have present : ch ≠ nul := fun ended => nulFree (by simp [ended])
      have absent : nul ∉ s := fun member => nulFree (List.mem_cons_of_mem ch member)
      rw [List.cons_append, text_cons present, inductionHypothesis absent]
      cases text nul rest <;> rfl

theorem text_append_nul (nulFree : nul ∉ s) (rest : List α) :
    text nul (s ++ nul :: rest) = some s := by
  rw [text_append nulFree, text_nul, Option.map_some, List.append_nil]

theorem text_eq_some_iff :
    text nul buffer = some s ↔ nul ∉ s ∧ ∃ rest, buffer = s ++ nul :: rest := by
  constructor
  · intro held
    induction buffer generalizing s with
    | nil => cases held
    | cons ch buffer inductionHypothesis =>
        by_cases ended : ch = nul
        · subst ended
          rw [text_nul] at held
          obtain rfl := Option.some.inj held
          exact ⟨by simp, buffer, rfl⟩
        · rw [text_cons ended] at held
          rcases Option.map_eq_some_iff.mp held with ⟨tail, heldTail, rfl⟩
          rcases inductionHypothesis heldTail with ⟨nulFree, rest, rfl⟩
          exact ⟨by simp [nulFree, Ne.symm ended], rest, rfl⟩
  · rintro ⟨nulFree, rest, rfl⟩
    exact text_append_nul nulFree rest

theorem length_lt_of_text (held : text nul buffer = some s) :
    s.length < buffer.length := by
  rcases text_eq_some_iff.mp held with ⟨-, rest, rfl⟩
  simp

theorem text_eq_none_iff : text nul buffer = none ↔ nul ∉ buffer := by
  induction buffer with
  | nil => simp [text]
  | cons ch buffer inductionHypothesis =>
      by_cases ended : ch = nul
      · simp [ended]
      · rw [text_cons ended, Option.map_eq_none_iff, inductionHypothesis]
        simp [Ne.symm ended]

theorem exists_text_of_mem (member : nul ∈ buffer) :
    ∃ s, text nul buffer = some s := by
  cases held : text nul buffer with
  | none => exact absurd member (text_eq_none_iff.mp held)
  | some s => exact ⟨s, rfl⟩

omit [DecidableEq α] in
/-- A character written over the terminator, with a new terminator behind it,
extends the string by that character. -/
theorem overwrite_nul (s : List α) (ch last after : α) (rest : List α) :
    ((s ++ last :: after :: rest).set s.length ch).set (s.length + 1) nul =
      (s ++ [ch]) ++ nul :: rest := by
  have first : (s ++ last :: after :: rest).set s.length ch =
      (s ++ [ch]) ++ after :: rest := by
    rw [List.set_append_right _ _ (Nat.le_refl _), Nat.sub_self, List.set_cons_zero,
      List.append_assoc]
    rfl
  have position : s.length + 1 = (s ++ [ch]).length := by simp
  rw [first, position, List.set_append_right _ _ (Nat.le_refl _), Nat.sub_self,
    List.set_cons_zero]

/-- A terminator written over a character of the string cuts it there. -/
theorem text_set_nul (held : text nul buffer = some s) {i : Nat} (inside : i < s.length) :
    text nul (buffer.set i nul) = some (s.take i) := by
  rcases text_eq_some_iff.mp held with ⟨nulFree, rest, rfl⟩
  have cut : (s ++ nul :: rest).set i nul =
      s.take i ++ nul :: (s.drop (i + 1) ++ nul :: rest) := by
    rw [List.set_append_left _ _ inside, List.set_eq_take_append_cons_drop, if_pos inside,
      List.append_assoc, List.cons_append]
  rw [cut]
  exact text_append_nul (fun member => nulFree (List.mem_of_mem_take member)) _

/-- Read `n` strings, each behind the terminator of the one before. -/
def strings (nul : α) : Nat → List α → Option (List (List α))
  | 0, _ => some []
  | n + 1, buffer =>
      (text nul buffer).bind fun first =>
        (strings nul n (buffer.drop (first.length + 1))).map (first :: ·)

theorem strings_nul (n : Nat) (rest : List α) :
    strings nul (n + 1) (nul :: rest) = (strings nul n rest).map ([] :: ·) := by
  rw [strings, text_nul]
  rfl

/-- An element in front of a buffer goes in front of its first string. -/
theorem strings_cons {ch : α} (present : ch ≠ nul) (n : Nat) (rest : List α) :
    strings nul (n + 1) (ch :: rest) =
      (strings nul (n + 1) rest).map (List.modifyHead (ch :: ·)) := by
  rw [strings, strings, text_cons present]
  cases text nul rest with
  | none => rfl
  | some first =>
      rw [Option.map_some, Option.bind_some, Option.bind_some, List.length_cons,
        List.drop_succ_cons, Option.map_map]
      rfl

/-- With its delimiters turned into terminators, a string is the sequence of its
pieces. -/
theorem strings_of_split {delim : α} (nulFree : nul ∉ s) (rest : List α) :
    strings nul (s.splitOn delim).length
        (s.map (fun ch => if ch = delim then nul else ch) ++ nul :: rest) =
      some (s.splitOn delim) := by
  induction s with
  | nil => simp [List.splitOn_nil, strings]
  | cons ch s inductionHypothesis =>
      have present : ch ≠ nul := fun ended => nulFree (by simp [ended])
      have tail := inductionHypothesis fun member => nulFree (List.mem_cons_of_mem ch member)
      rw [List.splitOn_cons_eq_if_modifyHead, List.map_cons, List.cons_append]
      by_cases found : ch = delim
      · simp only [found, beq_self_eq_true, if_true, List.length_cons]
        rw [strings_nul, tail]
        rfl
      · simp only [found, beq_iff_eq, if_false, List.length_modifyHead]
        rcases List.exists_cons_of_ne_nil (List.splitOn_ne_nil delim s) with
          ⟨piece, pieces, split⟩
        rw [split] at tail ⊢
        rw [List.length_cons, strings_cons present, ← List.length_cons, tail]
        rfl

end CString
