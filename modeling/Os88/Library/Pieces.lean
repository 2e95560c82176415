/-
Module: Os88.Library.Pieces
Purpose: The pieces of a list between its separators: how many there are, what
  they hold and how they join.
Trusted boundary: none
Main exports: length_splitOnP, mem_piece, length_splitOn,
  not_mem_of_mem_splitOn, two_pieces_length_le, endedPieces, length_endedPieces,
  endedPieces_of_separatorFree, endedPieces_first, endedPieces_getElem?, mem_endedPiece,
  join_endedPieces
-/
import Mathlib.Data.List.Basic

namespace Pieces

variable {α : Type} {p : α → Bool} {s piece : List α}

theorem length_splitOnP (p : α → Bool) (s : List α) :
    (s.splitOnP p).length = s.countP p + 1 := by
  induction s with
  | nil => simp
  | cons ch s inductionHypothesis =>
      rw [List.splitOnP_cons_eq_if_modifyHead, List.countP_cons]
      cases found : p ch with
      | true => simp [inductionHypothesis]
      | false => simp [inductionHypothesis]

/-- A piece holds elements of the list, and no separator. -/
theorem mem_piece (member : piece ∈ s.splitOnP p) :
    ∀ ch ∈ piece, ch ∈ s ∧ p ch = false := by
  induction s generalizing piece with
  | nil => simp_all
  | cons ch s inductionHypothesis =>
      rw [List.splitOnP_cons_eq_if_modifyHead] at member
      rcases List.exists_cons_of_ne_nil (List.splitOnP_ne_nil p s) with ⟨first, others, split⟩
      rw [split] at member inductionHypothesis
      have later : ∀ {piece}, piece ∈ first :: others →
          ∀ other ∈ piece, other ∈ ch :: s ∧ p other = false := by
        intro piece inTail other inside
        have known := inductionHypothesis inTail other inside
        exact ⟨List.mem_cons_of_mem ch known.1, known.2⟩
      cases found : p ch with
      | true =>
          rw [if_pos found] at member
          rcases List.mem_cons.mp member with rfl | inTail
          · simp
          · exact later inTail
      | false =>
          rw [if_neg (by simp [found]), List.modifyHead_cons] at member
          rcases List.mem_cons.mp member with rfl | inOthers
          · intro other inside
            rcases List.mem_cons.mp inside with rfl | inside
            · exact ⟨List.mem_cons_self .., found⟩
            · exact later (List.mem_cons_self ..) other inside
          · exact later (List.mem_cons_of_mem _ inOthers)

section OneSeparator

variable [BEq α] {delim : α}

theorem length_splitOn (delim : α) (s : List α) :
    (s.splitOn delim).length = s.count delim + 1 := by
  rw [List.splitOn_eq_splitOnP, length_splitOnP]
  rfl

theorem not_mem_of_mem_splitOn [LawfulBEq α] (member : piece ∈ s.splitOn delim) :
    delim ∉ piece := by
  intro inside
  rw [List.splitOn_eq_splitOnP] at member
  simpa using (mem_piece member delim inside).2

/-- The first two pieces and the separator between them lie inside the list. -/
theorem two_pieces_length_le [LawfulBEq α] {first second : List α} {others : List (List α)}
    (split : s.splitOn delim = first :: second :: others) :
    first.length + 1 + second.length ≤ s.length := by
  have joined : [delim].intercalate (s.splitOn delim) = s := List.intercalate_splitOn delim
  have length := congrArg List.length joined
  rw [split, List.intercalate_cons_cons] at length
  have second_le : second.length ≤ ([delim].intercalate (second :: others)).length := by
    cases others with
    | nil => simp
    | cons third others => simp [List.intercalate_cons_cons]
  simp only [List.length_append, List.length_singleton] at length
  omega

end OneSeparator

/-! ## The pieces that a separator ends -/

/-- The pieces of a list without the text behind the last separator. -/
def endedPieces (p : α → Bool) (s : List α) : List (List α) := (s.splitOnP p).dropLast

theorem length_endedPieces (p : α → Bool) (s : List α) :
    (endedPieces p s).length = s.countP p := by
  rw [endedPieces, List.length_dropLast, length_splitOnP, Nat.add_sub_cancel]

theorem endedPieces_of_separatorFree (free : ∀ ch ∈ s, p ch = false) :
    endedPieces p s = [] := by
  rw [endedPieces, List.splitOnP_eq_singleton free]
  rfl

theorem endedPieces_first (free : ∀ ch ∈ piece, p ch = false) {separator : α}
    (separates : p separator = true) (s : List α) :
    endedPieces p (piece ++ separator :: s) = piece :: endedPieces p s := by
  rw [endedPieces, List.splitOnP_append_cons_of_forall_mem free separator separates,
    List.dropLast_cons_of_ne_nil (List.splitOnP_ne_nil p s)]
  rfl

theorem endedPieces_getElem? {k : Nat} (below : k < s.countP p) :
    (endedPieces p s)[k]? = (s.splitOnP p)[k]? := by
  have inside : k < (s.splitOnP p).length - 1 := by
    rw [length_splitOnP]
    omega
  rw [endedPieces, List.getElem?_dropLast, if_pos inside]

theorem mem_endedPiece (member : piece ∈ endedPieces p s) :
    ∀ ch ∈ piece, ch ∈ s ∧ p ch = false :=
  mem_piece ((List.dropLast_subset _) member)

/-- A list that ends in a separator is its ended pieces, each with the separator
behind it. -/
theorem join_endedPieces {separator : α} (separates : p separator = true) (front : List α) :
    (List.zipWith (fun piece ch => piece ++ [ch]) (endedPieces p (front ++ [separator]))
      ((front ++ [separator]).filter p)).flatten = front ++ [separator] := by
  have split : (front ++ [separator]).splitOnP p = front.splitOnP p ++ [[]] := by
    rw [List.splitOnP_append_cons front [] separates, List.splitOnP_nil]
  have ended : endedPieces p (front ++ [separator]) = front.splitOnP p := by
    rw [endedPieces, split, List.dropLast_concat]
  have lengths : (front.splitOnP p).length =
      (((front ++ [separator]).filter p).map fun ch => [ch]).length := by
    rw [length_splitOnP, List.length_map, ← List.countP_eq_length_filter, List.countP_append,
      List.countP_singleton, if_pos separates]
  have joined : (List.zipWith (· ++ ·) ((front ++ [separator]).splitOnP p)
      ((((front ++ [separator]).filter p).map fun ch => [ch]) ++ [[]])).flatten =
        front ++ [separator] := List.splitOnP_spec (front ++ [separator])
  rw [split, List.zipWith_append lengths, List.flatten_append, List.zipWith_map_right] at joined
  rw [ended]
  simpa using joined

end Pieces
