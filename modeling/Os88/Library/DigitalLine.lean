/-
Module: Os88.Library.DigitalLine
Purpose: Lines of pixels: one pixel for each step along one axis, the other
  coordinate by a division that truncates.
Trusted boundary: none
Main exports: offset, offset_length, offset_error, offset_rising, offset_falling,
  points, IsLine, points_isLine
-/
import Mathlib.Data.List.Basic

namespace DigitalLine

/-- How far a line that rises by `rise` on `length` steps has risen after `t`. -/
def offset (rise length t : Int) : Int :=
  (rise * t).tdiv length

section Offset

variable {rise length t : Int}

theorem offset_zero (rise length : Int) : offset rise length 0 = 0 := by
  rw [offset, Int.mul_zero, Int.zero_tdiv]

theorem offset_length (rise : Int) (steps : 0 < length) :
    offset rise length length = rise :=
  Int.mul_tdiv_cancel rise (by omega)

theorem offset_flat (length t : Int) : offset 0 length t = 0 := by
  rw [offset, Int.zero_mul, Int.zero_tdiv]

theorem offset_neg (rise length t : Int) :
    offset (-rise) length t = -offset rise length t := by
  rw [offset, offset, Int.neg_mul, Int.neg_tdiv]

/-- The pixel is less than one away from the line. -/
theorem offset_error (rise t : Int) (steps : 0 < length) :
    (length * offset rise length t - rise * t).natAbs < length.natAbs := by
  have split := Int.mul_tdiv_add_tmod (rise * t) length
  have remainder : ((rise * t).tmod length).natAbs < length.natAbs := by
    rw [Int.natAbs_tmod]
    exact Nat.mod_lt _ (by omega)
  rw [offset]
  omega

/-- Where the line rises, the next pixel is on the same row or one further. -/
theorem offset_rising (steps : 0 < length) (rising : 0 ≤ rise) (flat : rise ≤ length)
    (from_start : 0 ≤ t) :
    offset rise length t ≤ offset rise length (t + 1) ∧
      offset rise length (t + 1) ≤ offset rise length t + 1 := by
  have travelled : 0 ≤ rise * t := Int.mul_nonneg rising from_start
  have next : rise * (t + 1) = rise * t + rise := by
    rw [Int.mul_add, Int.mul_one]
  rw [offset, offset, next, Int.tdiv_eq_ediv_of_nonneg travelled,
    Int.tdiv_eq_ediv_of_nonneg (by omega)]
  constructor
  · apply Int.ediv_le_ediv steps
    omega
  · calc (rise * t + rise) / length
        ≤ (rise * t + length * 1) / length := by
          apply Int.ediv_le_ediv steps
          omega
      _ = rise * t / length + 1 := Int.add_mul_ediv_left _ _ (by omega)

/-- The same for a line that falls. -/
theorem offset_falling (steps : 0 < length) (falling : rise ≤ 0) (flat : -rise ≤ length)
    (from_start : 0 ≤ t) :
    offset rise length (t + 1) ≤ offset rise length t ∧
      offset rise length t ≤ offset rise length (t + 1) + 1 := by
  have mirrored := offset_rising steps (by omega : 0 ≤ -rise) flat from_start
  rw [offset_neg, offset_neg] at mirrored
  omega

end Offset

/-- The pixels from column `low` and row `start` on. -/
def points (low start rise : Int) (length : Nat) : List (Int × Int) :=
  (List.range (length + 1)).map fun (t : Nat) => (low + t, start + offset rise length t)

/-- A line of pixels from `first` to `last` along the first axis. -/
structure IsLine (first last : Int × Int) (pixels : List (Int × Int)) : Prop where
  count : pixels.length = (last.1 - first.1).toNat + 1
  starts : pixels.head? = some first
  ends : pixels.getLast? = some last
  /-- One pixel for each step. -/
  column : ∀ (t : Nat) p, pixels[t]? = some p → p.1 = first.1 + t
  /-- Neighbours differ by at most one row. -/
  unit : ∀ (t : Nat) p q, pixels[t]? = some p → pixels[t + 1]? = some q →
    (q.2 - p.2).natAbs ≤ 1
  rises : first.2 ≤ last.2 → ∀ (t : Nat) p q, pixels[t]? = some p →
    pixels[t + 1]? = some q → p.2 ≤ q.2
  falls : last.2 ≤ first.2 → ∀ (t : Nat) p q, pixels[t]? = some p →
    pixels[t + 1]? = some q → q.2 ≤ p.2
  /-- The distance from the line, times the length of the line. -/
  near : ∀ p ∈ pixels, ((last.1 - first.1) * (p.2 - first.2) -
    (last.2 - first.2) * (p.1 - first.1)).natAbs < (last.1 - first.1).natAbs

section Points

variable {low start rise : Int} {length : Nat}

theorem mem_points {p : Int × Int} :
    p ∈ points low start rise length ↔
      ∃ t : Nat, t ≤ length ∧ p = (low + t, start + offset rise length t) := by
  simp only [points, List.mem_map, List.mem_range, Nat.lt_succ_iff, eq_comm (a := p)]

theorem getElem?_points {t : Nat} {p : Int × Int}
    (read : (points low start rise length)[t]? = some p) :
    t ≤ length ∧ p = (low + t, start + offset rise length t) := by
  rw [points, List.getElem?_map, Option.map_eq_some_iff] at read
  rcases read with ⟨t', inRange, rfl⟩
  rcases List.getElem?_eq_some_iff.mp inRange with ⟨bound, rfl⟩
  rw [List.length_range] at bound
  rw [List.getElem_range]
  exact ⟨by omega, rfl⟩

/-- A line that is no steeper than its axis. -/
theorem points_isLine (steps : 0 < length) (flat : rise.natAbs ≤ length) :
    IsLine (low, start) (low + length, start + rise) (points low start rise length) := by
  have positive : (0 : Int) < length := by omega
  have neighbours : ∀ (t : Nat) p q, (points low start rise length)[t]? = some p →
      (points low start rise length)[t + 1]? = some q →
      p.2 = start + offset rise length t ∧ q.2 = start + offset rise length (t + 1) := by
    intro t p q here next
    obtain ⟨-, rfl⟩ := getElem?_points here
    obtain ⟨-, rfl⟩ := getElem?_points next
    exact ⟨rfl, rfl⟩
  refine
    { count := ?_, starts := ?_, ends := ?_, column := ?_, unit := ?_, rises := ?_
      falls := ?_, near := ?_ }
  · rw [points, List.length_map, List.length_range]
    dsimp only
    omega
  · simp [points, List.head?_range, offset_zero]
  · simp [points, List.range_succ, offset_length rise positive]
  · intro t p read
    obtain ⟨-, rfl⟩ := getElem?_points read
    rfl
  · intro t p q here next
    rcases neighbours t p q here next with ⟨row, row'⟩
    rcases Int.le_total 0 rise with rising | falling
    · have step := offset_rising positive rising (by omega) (Int.natCast_nonneg t)
      omega
    · have step := offset_falling positive falling (by omega) (Int.natCast_nonneg t)
      omega
  · intro rising t p q here next
    rcases neighbours t p q here next with ⟨row, row'⟩
    have upward : 0 ≤ rise := by
      dsimp only at rising
      omega
    have step := offset_rising positive upward (by omega) (Int.natCast_nonneg t)
    omega
  · intro falling t p q here next
    rcases neighbours t p q here next with ⟨row, row'⟩
    have downward : rise ≤ 0 := by
      dsimp only at falling
      omega
    have step := offset_falling positive downward (by omega) (Int.natCast_nonneg t)
    omega
  · intro p member
    rcases mem_points.mp member with ⟨t, -, rfl⟩
    have error := offset_error rise t positive
    have cancel : ∀ a b : Int, a + b - a = b := fun a b => by omega
    dsimp only
    rw [cancel, cancel, cancel, cancel]
    exact error

end Points

end DigitalLine
