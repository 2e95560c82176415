/-
Module: Os88.Library.Patch
Purpose: Overwriting a range of a list, cell by cell.  A loop that stores into
  consecutive cells of an array builds such a patch one `set` at a time.
Trusted boundary: none
Main exports: patch, getElem?_patch, patch_empty, set_patch
-/
import Mathlib.Data.List.Basic

namespace Patch

variable {α : Type}

/-- `cells` with every position `k` of `[lo, hi)` holding `f k`. -/
def patch (lo hi : Nat) (f : Nat → α) (cells : List α) : List α :=
  cells.mapIdx fun k old => if lo ≤ k ∧ k < hi then f k else old

@[simp] theorem length_patch (lo hi : Nat) (f : Nat → α) (cells : List α) :
    (patch lo hi f cells).length = cells.length := by
  simp [patch]

theorem getElem?_patch (lo hi : Nat) (f : Nat → α) (cells : List α) (k : Nat) :
    (patch lo hi f cells)[k]? =
      if lo ≤ k ∧ k < hi then cells[k]?.map fun _ => f k else cells[k]? := by
  rw [patch, List.getElem?_mapIdx]
  split <;> simp

theorem getElem?_patch_inside {lo hi k : Nat} (f : Nat → α) {cells : List α}
    (lower : lo ≤ k) (upper : k < hi) (bound : k < cells.length) :
    (patch lo hi f cells)[k]? = some (f k) := by
  rw [getElem?_patch, if_pos ⟨lower, upper⟩, List.getElem?_eq_getElem bound,
    Option.map_some]

theorem getElem?_patch_outside {lo hi k : Nat} (f : Nat → α) (cells : List α)
    (outside : ¬ (lo ≤ k ∧ k < hi)) :
    (patch lo hi f cells)[k]? = cells[k]? := by
  rw [getElem?_patch, if_neg outside]

@[simp] theorem patch_empty (lo : Nat) (f : Nat → α) (cells : List α) :
    patch lo lo f cells = cells := by
  apply List.ext_getElem?
  intro k
  exact getElem?_patch_outside f cells (by omega)

/-- Storing the next value of a patch lengthens it by one cell. -/
theorem set_patch {lo hi : Nat} (f : Nat → α) (cells : List α)
    (lower : lo ≤ hi) :
    (patch lo hi f cells).set hi (f hi) = patch lo (hi + 1) f cells := by
  apply List.ext_getElem?
  intro k
  rw [List.getElem?_set, length_patch]
  by_cases here : hi = k
  · subst here
    by_cases bound : hi < cells.length
    · rw [if_pos rfl, if_pos bound,
        getElem?_patch_inside f lower (Nat.lt_succ_self hi) bound]
    · rw [if_pos rfl, if_neg bound]
      symm
      exact List.getElem?_eq_none (by rw [length_patch]; omega)
  · rw [if_neg here]
    by_cases inside : lo ≤ k ∧ k < hi
    · rw [getElem?_patch, getElem?_patch, if_pos inside, if_pos (by omega)]
    · rw [getElem?_patch_outside f cells inside,
        getElem?_patch_outside f cells (by omega)]

end Patch
