/-
Module: Os88.Library.Occurrences
Purpose: The occurrences of a list in another, and the pieces into which the
  leftmost occurrences that do not overlap cut it.
Trusted boundary: none
Main exports: OccursAt, find, find_eq_some_iff, find_eq_none_iff, FirstCut, Cut,
  Cut.intercalate_eq, Cut.unique, Cut.append_left, Cut.at_front, find_behind,
  find_behind_eq_none, exists_cut
-/
import Mathlib.Data.List.Basic

namespace Occurrences

variable {α : Type} {sub s : List α} {i : Nat}

/-- The list `sub` lies in `s` from position `i` on. -/
def OccursAt (sub s : List α) (i : Nat) : Prop :=
  sub <+: s.drop i

instance [DecidableEq α] (sub s : List α) (i : Nat) : Decidable (OccursAt sub s i) :=
  inferInstanceAs (Decidable (sub <+: s.drop i))

/-- Behind the end of the list nothing occurs. -/
theorem OccursAt.inside (nonempty : sub ≠ []) (occurs : OccursAt sub s i) :
    i + sub.length ≤ s.length := by
  have fits := occurs.length_le
  have some_left := List.length_pos_iff.mpr nonempty
  rw [List.length_drop] at fits
  omega

/-- An occurrence behind a first part is one in the rest. -/
theorem occursAt_append_left (front s : List α) (i : Nat) :
    OccursAt sub (front ++ s) (front.length + i) ↔ OccursAt sub s i := by
  rw [OccursAt, OccursAt, ← List.drop_drop, List.drop_left]

theorem occursAt_piece (piece sub rest : List α) :
    OccursAt sub (piece ++ sub ++ rest) piece.length := by
  rw [OccursAt, List.append_assoc, List.drop_left]
  exact List.prefix_append sub rest

/-! ## Searching -/

/-- The first position from `pos` on at which `sub` occurs. -/
def find [DecidableEq α] (s sub : List α) (pos : Nat) : Option Nat :=
  (List.range' pos (s.length + 1 - pos)).find? fun i => decide (OccursAt sub s i)

theorem find_eq_some_iff [DecidableEq α] (nonempty : sub ≠ []) {pos : Nat} :
    find s sub pos = some i ↔
      pos ≤ i ∧ OccursAt sub s i ∧ ∀ j, pos ≤ j → j < i → ¬ OccursAt sub s j := by
  simp only [find, List.find?_range'_eq_some, decide_eq_true_eq, List.mem_range'_1,
    Bool.not_eq_true', decide_eq_false_iff_not]
  constructor
  · rintro ⟨occurs, ⟨behind, -⟩, first⟩
    exact ⟨behind, occurs, first⟩
  · rintro ⟨behind, occurs, first⟩
    have inside := occurs.inside nonempty
    exact ⟨occurs, ⟨behind, by omega⟩, first⟩

theorem find_eq_none_iff [DecidableEq α] (nonempty : sub ≠ []) {pos : Nat} :
    find s sub pos = none ↔ ∀ j, pos ≤ j → ¬ OccursAt sub s j := by
  simp only [find, List.find?_range'_eq_none, Bool.not_eq_true', decide_eq_false_iff_not]
  constructor
  · intro absent j behind occurs
    have inside := occurs.inside nonempty
    exact absent j behind (by omega) occurs
  · intro absent j behind _
    exact absent j behind

/-! ## Pieces -/

/-- The list starts with `piece`, the first occurrence of `sub` follows, and
`rest` is what is left behind it. -/
structure FirstCut (sub s piece rest : List α) : Prop where
  joined : s = piece ++ sub ++ rest
  first : ∀ j < piece.length, ¬ OccursAt sub s j

/-- `pieces` is what lies between the occurrences, each of them the first one
that begins behind the end of the one before. -/
inductive Cut (sub : List α) : List α → List (List α) → Prop where
  | last {s : List α} (absent : ∀ j, ¬ OccursAt sub s j) : Cut sub s [s]
  | next {s piece rest : List α} {pieces : List (List α)}
      (first : FirstCut sub s piece rest) (later : Cut sub rest pieces) :
      Cut sub s (piece :: pieces)

/-- The first occurrence is where `piece` ends. -/
theorem FirstCut.unique {piece rest piece' rest' : List α}
    (cut : FirstCut sub s piece rest) (cut' : FirstCut sub s piece' rest') :
    piece = piece' ∧ rest = rest' := by
  have occurs : OccursAt sub s piece.length := by
    rw [cut.joined]
    exact occursAt_piece piece sub rest
  have occurs' : OccursAt sub s piece'.length := by
    rw [cut'.joined]
    exact occursAt_piece piece' sub rest'
  have length : piece.length = piece'.length := by
    rcases Nat.lt_trichotomy piece.length piece'.length with shorter | same | longer
    · exact absurd occurs (cut'.first _ shorter)
    · exact same
    · exact absurd occurs' (cut.first _ longer)
  have joined := cut.joined.symm.trans cut'.joined
  rw [List.append_assoc, List.append_assoc] at joined
  have parts := List.append_inj joined length
  exact ⟨parts.1, List.append_cancel_left parts.2⟩

/-- A first occurrence excludes that there is none. -/
theorem FirstCut.occurs {piece rest : List α} (cut : FirstCut sub s piece rest) :
    ∃ j, OccursAt sub s j :=
  ⟨piece.length, by rw [cut.joined]; exact occursAt_piece piece sub rest⟩

variable {pieces : List (List α)}

theorem Cut.ne_nil (cut : Cut sub s pieces) : pieces ≠ [] := by
  cases cut <;> simp

/-- Joined by `sub`, the pieces are the list. -/
theorem Cut.intercalate_eq (cut : Cut sub s pieces) : sub.intercalate pieces = s := by
  induction cut with
  | last absent => exact List.intercalate_singleton
  | next first later inductionHypothesis =>
      rw [List.intercalate_cons_of_ne_nil later.ne_nil, inductionHypothesis, first.joined]

/-- There is one way to cut the list. -/
theorem Cut.unique (cut : Cut sub s pieces) {pieces' : List (List α)}
    (cut' : Cut sub s pieces') : pieces = pieces' := by
  induction cut generalizing pieces' with
  | last absent =>
      cases cut' with
      | last absent' => rfl
      | next first later =>
          rcases first.occurs with ⟨j, occurs⟩
          exact absurd occurs (absent j)
  | next first later inductionHypothesis =>
      cases cut' with
      | last absent =>
          rcases first.occurs with ⟨j, occurs⟩
          exact absurd occurs (absent j)
      | next first' later' =>
          obtain ⟨rfl, rfl⟩ := first.unique first'
          rw [inductionHypothesis later']

/-- A part in which nothing begins belongs to the first piece. -/
theorem Cut.append_left {front piece : List α}
    (skip : ∀ j < front.length, ¬ OccursAt sub (front ++ s) j)
    (cut : Cut sub s (piece :: pieces)) :
    Cut sub (front ++ s) ((front ++ piece) :: pieces) := by
  cases cut with
  | last absent =>
      refine .last fun j occurs => ?_
      rcases Nat.lt_or_ge j front.length with before | behind
      · exact skip j before occurs
      · obtain ⟨k, rfl⟩ := Nat.exists_eq_add_of_le behind
        exact absent k ((occursAt_append_left front _ k).mp occurs)
  | next first later =>
      refine .next ⟨?_, fun j inside occurs => ?_⟩ later
      · rw [first.joined]
        simp only [List.append_assoc]
      · rw [List.length_append] at inside
        rcases Nat.lt_or_ge j front.length with before | behind
        · exact skip j before occurs
        · obtain ⟨k, rfl⟩ := Nat.exists_eq_add_of_le behind
          exact first.first k (by omega) ((occursAt_append_left front _ k).mp occurs)

/-- An occurrence at the front has nothing before it. -/
theorem Cut.at_front (cut : Cut sub s pieces) : Cut sub (sub ++ s) ([] :: pieces) := by
  refine .next ⟨rfl, fun j inside => ?_⟩ cut
  exact absurd inside (Nat.not_lt_zero j)

/-- Behind a finished part the search comes to the end of the next piece. -/
theorem FirstCut.find_behind [DecidableEq α] (nonempty : sub ≠ []) {piece rest : List α}
    (cut : FirstCut sub s piece rest) (front : List α) :
    find (front ++ s) sub front.length = some (front.length + piece.length) := by
  refine (find_eq_some_iff nonempty).mpr ⟨Nat.le_add_right _ _, ?_, ?_⟩
  · rw [occursAt_append_left, cut.joined]
    exact occursAt_piece piece sub rest
  · intro j behind before
    obtain ⟨k, rfl⟩ := Nat.exists_eq_add_of_le behind
    rw [occursAt_append_left]
    exact cut.first k (by omega)

/-- Behind a finished part the search finds nothing in a last piece. -/
theorem find_behind_eq_none [DecidableEq α] (nonempty : sub ≠ [])
    (absent : ∀ j, ¬ OccursAt sub s j) (front : List α) :
    find (front ++ s) sub front.length = none := by
  refine (find_eq_none_iff nonempty).mpr fun j behind => ?_
  obtain ⟨k, rfl⟩ := Nat.exists_eq_add_of_le behind
  rw [occursAt_append_left]
  exact absent k

/-- Cutting where the search finds the list. -/
theorem firstCut_of_find [DecidableEq α] (nonempty : sub ≠ []) (found : find s sub 0 = some i) :
    FirstCut sub s (s.take i) (s.drop (i + sub.length)) := by
  rcases (find_eq_some_iff nonempty).mp found with ⟨-, occurs, first⟩
  have inside := occurs.inside nonempty
  refine ⟨?_, ?_⟩
  · rcases occurs with ⟨rest, joined⟩
    have behind : s.drop (i + sub.length) = rest := by
      rw [← List.drop_drop, ← joined, List.drop_left]
    rw [behind, List.append_assoc, joined, List.take_append_drop]
  · intro j before
    rw [List.length_take] at before
    exact first j (Nat.zero_le j) (by omega)

/-- Every list can be cut. -/
theorem exists_cut [DecidableEq α] (nonempty : sub ≠ []) (s : List α) :
    ∃ pieces, Cut sub s pieces := by
  cases found : find s sub 0 with
  | none =>
      exact ⟨[s], .last fun j => (find_eq_none_iff nonempty).mp found j (Nat.zero_le j)⟩
  | some i =>
      have first := firstCut_of_find nonempty found
      rcases exists_cut nonempty (s.drop (i + sub.length)) with ⟨pieces, later⟩
      exact ⟨_, .next first later⟩
termination_by s.length
decreasing_by
  have inside := ((find_eq_some_iff nonempty).mp found).2.1.inside nonempty
  have some_left := List.length_pos_iff.mpr nonempty
  rw [List.length_drop]
  omega

end Occurrences
