/-
Module: Os88.MiniOs.Circles
Purpose: `sqrt` and `drawcircle` of kernel_main.c, and why no circle is right.
Trusted boundary: a call of `sqrt` that reaches the end of its body without a
  `return` gives an unknown value, of its own for each call.  Overflow of `int`
  is not modelled.
Main exports: sqrt, drawcircle, drawcirclePixels, CircleShape, DrawsCircle,
  between_square, sqrt_spec, circleShape_iff, drawcircle_never_well_defined
-/
import Os88.MiniOs.Lines
import Mathlib.Data.Nat.Sqrt
import Mathlib.Tactic.Linarith

namespace Os88.MiniOs

/-! ## The code -/

/-- `sqrt`: `none` where the loop ends without a `return`. -/
def sqrt (square : Int) : Option Int :=
  ((List.range square.toNat).find? fun (i : Nat) =>
    decide ((i : Int) * i ≤ square) && decide (square ≤ (i + 1) * (i + 1))).map
      fun (i : Nat) => (i : Int)

/-- The value a caller of `sqrt` sees. -/
def rootOr (leftover square : Int) : Int :=
  (sqrt square).getD leftover

/-- What the two calls of `sqrt` in a pass leave when they do not return. -/
abbrev PassLeftover := Int × Int

/-- The pixels above and below the centre in column `px`. -/
def columnPair (px yc temps : Int) (leftover : PassLeftover) : List Pixel :=
  [(px, yc - rootOr leftover.1 temps), (px, yc + rootOr leftover.2 temps)]

/-- The pixels left and right of the centre in row `py`. -/
def rowPair (py xc temps : Int) (leftover : PassLeftover) : List Pixel :=
  [(xc - rootOr leftover.1 temps, py), (xc + rootOr leftover.2 temps, py)]

section Loops

variable (leftover : Nat → PassLeftover) (xc yc radius : Int)

def rightHalf : List Pixel :=
  (List.range (radius + 1).toNat).flatMap fun (i : Nat) =>
    let px := xc + radius - i
    columnPair px yc (radius * radius - (px - xc) * (px - xc)) (leftover i)

def leftHalf : List Pixel :=
  (List.range (radius + 1).toNat).flatMap fun (i : Nat) =>
    let px := xc - i
    columnPair px yc (radius * radius - (xc - px) * (xc - px)) (leftover i)

def downHalf : List Pixel :=
  (List.range (radius + 1).toNat).flatMap fun (i : Nat) =>
    let py := yc - radius + i
    rowPair py xc (radius * radius - (py - yc) * (py - yc)) (leftover i)

def upHalf : List Pixel :=
  (List.range (radius + 1).toNat).flatMap fun (i : Nat) =>
    let py := yc + i
    rowPair py xc (radius * radius - (yc - py) * (yc - py)) (leftover i)

end Loops

/-- The pixels `drawcircle` sets, in the order of the calls.  `leftover n i`
is what the calls of `sqrt` in pass `i` of loop `n` leave. -/
def drawcirclePixels (leftover : Nat → Nat → PassLeftover) (xc yc radius : Int) :
    List Pixel :=
  rightHalf (leftover 0) xc yc radius ++ leftHalf (leftover 1) xc yc radius ++
    downHalf (leftover 2) xc yc radius ++ upHalf (leftover 3) xc yc radius

def drawcircle (leftover : Nat → Nat → PassLeftover) (xc yc radius b g r : Int)
    (s : Screen) : Screen :=
  (drawcirclePixels leftover xc yc radius).foldl (fun s p => setpixel p.1 p.2 b g r s) s

/-! ## The square root -/

theorem le_self_mul (i : Nat) : (i : Int) ≤ i * i := by
  exact_mod_cast Nat.le_mul_self i

/-- Each positive number lies behind a square and not behind the next one. -/
theorem between_square {square : Int} (positive : 0 < square) :
    ∃ r : Nat, (r : Int) * r < square ∧ square ≤ (r + 1) * (r + 1) := by
  have lower := Nat.sqrt_le (square.toNat - 1)
  have upper := Nat.lt_succ_sqrt (square.toNat - 1)
  have whole : ((square.toNat - 1 : Nat) : Int) = square - 1 := by omega
  refine ⟨Nat.sqrt (square.toNat - 1), ?_, ?_⟩
  · zify at lower
    omega
  · zify at upper
    omega

/-- A positive number has its root, rounded down, or one less if it is a square. -/
theorem sqrt_spec {square : Int} (positive : 0 < square) :
    ∃ root, sqrt square = some root ∧ 0 ≤ root ∧ root * root ≤ square ∧
      square ≤ (root + 1) * (root + 1) := by
  have found : ∃ i ∈ List.range square.toNat, (decide (((i : Nat) : Int) * i ≤ square) &&
      decide (square ≤ (i + 1) * (i + 1))) = true := by
    rcases between_square positive with ⟨r, below, above⟩
    have larger := le_self_mul r
    refine ⟨r, List.mem_range.mpr (by omega), ?_⟩
    simp only [Bool.and_eq_true, decide_eq_true_eq]
    exact ⟨Int.le_of_lt below, above⟩
  have some_i := List.find?_isSome.mpr found
  rcases Option.isSome_iff_exists.mp some_i with ⟨i, first⟩
  have tested := List.find?_some first
  rw [Bool.and_eq_true, decide_eq_true_eq, decide_eq_true_eq] at tested
  exact ⟨i, by rw [sqrt, first]; rfl, Int.natCast_nonneg i, tested.1, tested.2⟩

/-- For 0 the loop of `sqrt` has no pass and nothing is returned. -/
theorem rootOr_zero (leftover : Int) : rootOr leftover 0 = leftover := rfl

theorem rootOr_positive {square : Int} (positive : 0 < square) (leftover : Int) :
    rootOr leftover square = rootOr 0 square := by
  rcases sqrt_spec positive with ⟨root, returned, -⟩
  rw [rootOr, rootOr, returned]
  rfl

/-! ## The pixels of a loop -/

section Loop

variable {xc yc radius : Int} {place : Nat → Int} {leftover : Nat → PassLeftover}

/-- A loop along the columns, where pass `i` draws in column `xc + place i`. -/
def columnLoop (xc yc radius : Int) (place : Nat → Int) (leftover : Nat → PassLeftover) :
    List Pixel :=
  (List.range (radius + 1).toNat).flatMap fun i =>
    columnPair (xc + place i) yc (radius * radius - place i * place i) (leftover i)

theorem rightHalf_eq :
    rightHalf leftover xc yc radius =
      columnLoop xc yc radius (fun i => radius - i) leftover := by
  unfold rightHalf columnLoop
  congr 1
  funext i
  dsimp only
  rw [show xc + radius - (i : Int) - xc = radius - i by omega,
    show xc + radius - (i : Int) = xc + (radius - i) by omega]

theorem leftHalf_eq :
    leftHalf leftover xc yc radius =
      columnLoop xc yc radius (fun i => -(i : Int)) leftover := by
  unfold leftHalf columnLoop
  congr 1
  funext i
  dsimp only
  rw [show xc - (xc - (i : Int)) = i by omega, Int.neg_mul_neg, ← Int.sub_eq_add_neg]

theorem rowPair_eq (py xc temps : Int) (leftover : PassLeftover) :
    rowPair py xc temps leftover = (columnPair py xc temps leftover).map Prod.swap :=
  rfl

/-- The loops along the rows are loops along columns with the axes exchanged. -/
theorem downHalf_eq :
    downHalf leftover xc yc radius =
      (columnLoop yc xc radius (fun i => -radius + i) leftover).map Prod.swap := by
  unfold downHalf columnLoop
  rw [List.map_flatMap]
  congr 1
  funext i
  dsimp only
  rw [rowPair_eq, show yc - radius + (i : Int) - yc = -radius + i by omega,
    show yc - radius + (i : Int) = yc + (-radius + i) by omega]

theorem upHalf_eq :
    upHalf leftover xc yc radius =
      (columnLoop yc xc radius (fun i => (i : Int)) leftover).map Prod.swap := by
  unfold upHalf columnLoop
  rw [List.map_flatMap]
  congr 1
  funext i
  dsimp only
  rw [rowPair_eq, show yc - (yc + (i : Int)) = -i by omega, Int.neg_mul_neg]

theorem mem_columnLoop {p : Pixel} :
    p ∈ columnLoop xc yc radius place leftover ↔
      ∃ i : Nat, (i : Int) ≤ radius ∧ p.1 = xc + place i ∧
        (p.2 = yc - rootOr (leftover i).1 (radius * radius - place i * place i) ∨
          p.2 = yc + rootOr (leftover i).2 (radius * radius - place i * place i)) := by
  simp only [columnLoop, columnPair, List.mem_flatMap, List.mem_range, List.mem_cons,
    List.not_mem_nil, or_false, Prod.ext_iff]
  constructor
  · rintro ⟨i, bound, pixel⟩
    refine ⟨i, by omega, ?_⟩
    rcases pixel with ⟨column, row⟩ | ⟨column, row⟩
    · exact ⟨column, Or.inl row⟩
    · exact ⟨column, Or.inr row⟩
  · rintro ⟨i, bound, column, row⟩
    refine ⟨i, by omega, ?_⟩
    rcases row with row | row
    · exact Or.inl ⟨column, row⟩
    · exact Or.inr ⟨column, row⟩

end Loop

/-! ## The shape of a circle -/

/-- What a circle is to look like. -/
structure CircleShape (xc yc radius : Int) (pixels : Set Pixel) : Prop where
  mirrorColumns : ∀ dx dy, (xc + dx, yc + dy) ∈ pixels → (xc - dx, yc + dy) ∈ pixels
  mirrorRows : ∀ dx dy, (xc + dx, yc + dy) ∈ pixels → (xc + dx, yc - dy) ∈ pixels
  exchange : ∀ dx dy, (xc + dx, yc + dy) ∈ pixels → (xc + dy, yc + dx) ∈ pixels
  right : (xc + radius, yc) ∈ pixels
  left : (xc - radius, yc) ∈ pixels
  up : (xc, yc + radius) ∈ pixels
  down : (xc, yc - radius) ∈ pixels
  near : ∀ dx dy, (xc + dx, yc + dy) ∈ pixels →
    0 ≤ radius * radius - (dx * dx + dy * dy) ∧
      radius * radius - (dx * dx + dy * dy) ≤ 2 * radius

/-- The pixels are the same whatever the calls of `sqrt` without a `return`
leave, and they are a circle. -/
def DrawsCircle (xc yc radius : Int) : Prop :=
  ∃ pixels : Set Pixel,
    (∀ leftover p, p ∈ drawcirclePixels leftover xc yc radius ↔ p ∈ pixels) ∧
    CircleShape xc yc radius pixels

/-- The calls of `sqrt(0)`: the first pass of the first and the third loop, the
last pass of the others. -/
structure LeavesZero (leftover : Nat → Nat → PassLeftover) (radius : Int) : Prop where
  rightEnd : leftover 0 0 = (0, 0)
  leftEnd : leftover 1 radius.toNat = (0, 0)
  downEnd : leftover 2 0 = (0, 0)
  upEnd : leftover 3 radius.toNat = (0, 0)

/-- The distance from the diameter to the arc. -/
def halfChord (radius d : Int) : Int :=
  rootOr 0 (radius * radius - d * d)

/-- The pixel is on the arc above or below the place `along` of the diameter. -/
def ChordEnd (radius along across : Int) : Prop :=
  (-radius ≤ along ∧ along ≤ radius) ∧
    (across = -halfChord radius along ∨ across = halfChord radius along)

section Shape

variable {xc yc radius d : Int} {leftover : Nat → Nat → PassLeftover}

theorem chord_square (lower : -radius ≤ d) (upper : d ≤ radius) :
    0 ≤ radius * radius - d * d := by
  have product := Int.mul_nonneg (by omega : 0 ≤ radius - d) (by omega : 0 ≤ radius + d)
  linarith

theorem chord_square_zero (zero : radius * radius - d * d = 0) : d = radius ∨ d = -radius := by
  have product : (radius - d) * (radius + d) = 0 := by linarith
  rcases Int.mul_eq_zero.mp product with same | opposite
  · left
    omega
  · right
    omega

theorem halfChord_neg (radius d : Int) : halfChord radius (-d) = halfChord radius d := by
  rw [halfChord, halfChord, Int.neg_mul_neg]

theorem halfChord_end (radius : Int) : halfChord radius radius = 0 := by
  rw [halfChord, Int.sub_self, rootOr_zero]

/-- The pixels of the arc lie between the circle and one less than a pixel inside. -/
theorem halfChord_near (lower : -radius ≤ d) (upper : d ≤ radius) :
    0 ≤ radius * radius - (d * d + halfChord radius d * halfChord radius d) ∧
      radius * radius - (d * d + halfChord radius d * halfChord radius d) ≤ 2 * radius := by
  have square := chord_square lower upper
  rcases Int.lt_or_eq_of_le square with positive | zero
  · rcases sqrt_spec positive with ⟨root, returned, nonneg, below, above⟩
    have chord : halfChord radius d = root := by
      rw [halfChord, rootOr, returned]
      rfl
    rw [chord]
    have squares : 0 ≤ d * d := mul_self_nonneg d
    have inside : root ≤ radius := by
      by_contra outside
      have larger : radius * radius < root * root :=
        Int.mul_self_lt_mul_self (by omega) (by omega)
      linarith
    refine ⟨by linarith, ?_⟩
    rcases Int.lt_or_eq_of_le inside with less | same
    · linarith
    · subst same
      linarith
  · have chord : halfChord radius d = 0 := by
      rw [halfChord, ← zero, rootOr_zero]
    rw [chord]
    constructor
    · linarith
    · linarith

theorem ChordEnd.mirrorAlong {along across : Int} (pixel : ChordEnd radius along across) :
    ChordEnd radius (-along) across := by
  rcases pixel with ⟨⟨lower, upper⟩, arc⟩
  refine ⟨⟨by omega, by omega⟩, ?_⟩
  rwa [halfChord_neg]

theorem ChordEnd.mirrorAcross {along across : Int} (pixel : ChordEnd radius along across) :
    ChordEnd radius along (-across) := by
  rcases pixel with ⟨range, arc⟩
  refine ⟨range, ?_⟩
  omega

theorem ChordEnd.near {along across : Int} (pixel : ChordEnd radius along across) :
    0 ≤ radius * radius - (along * along + across * across) ∧
      radius * radius - (along * along + across * across) ≤ 2 * radius := by
  rcases pixel with ⟨⟨lower, upper⟩, arc⟩
  have arcNear := halfChord_near lower upper
  rcases arc with rfl | rfl
  · rwa [Int.neg_mul_neg]
  · exact arcNear

/-- A loop whose calls of `sqrt(0)`, all in pass `last`, leave 0 draws on the arc. -/
theorem mem_columnLoop_arc {place : Nat → Int} {leftover : Nat → PassLeftover} {last : Nat}
    (inRange : ∀ i : Nat, (i : Int) ≤ radius → -radius ≤ place i ∧ place i ≤ radius)
    (ends : ∀ i : Nat, (i : Int) ≤ radius → place i = radius ∨ place i = -radius → i = last)
    (zero : leftover last = (0, 0)) {dx dy : Int} :
    (xc + dx, yc + dy) ∈ columnLoop xc yc radius place leftover ↔
      (∃ i : Nat, (i : Int) ≤ radius ∧ dx = place i) ∧ ChordEnd radius dx dy := by
  have roots : ∀ i : Nat, (i : Int) ≤ radius →
      rootOr (leftover i).1 (radius * radius - place i * place i) =
          halfChord radius (place i) ∧
        rootOr (leftover i).2 (radius * radius - place i * place i) =
          halfChord radius (place i) := by
    intro i bound
    rcases inRange i bound with ⟨lower, upper⟩
    rcases Int.lt_or_eq_of_le (chord_square lower upper) with positive | none
    · exact ⟨rootOr_positive positive _, rootOr_positive positive _⟩
    · rw [ends i bound (chord_square_zero none.symm), zero]
      exact ⟨rfl, rfl⟩
  rw [mem_columnLoop]
  constructor
  · rintro ⟨i, bound, column, row⟩
    rw [(roots i bound).1, (roots i bound).2] at row
    dsimp only at column row
    obtain rfl : dx = place i := by omega
    exact ⟨⟨i, bound, rfl⟩, inRange i bound, by omega⟩
  · rintro ⟨⟨i, bound, rfl⟩, -, arc⟩
    refine ⟨i, bound, rfl, ?_⟩
    rw [(roots i bound).1, (roots i bound).2]
    dsimp only
    omega

/-- The first two loops draw the arcs above and below the diameter. -/
theorem mem_columns_iff (size : 0 ≤ radius) (zeros : LeavesZero leftover radius)
    {dx dy : Int} :
    (xc + dx, yc + dy) ∈ rightHalf (leftover 0) xc yc radius ∨
        (xc + dx, yc + dy) ∈ leftHalf (leftover 1) xc yc radius ↔
      ChordEnd radius dx dy := by
  have right := @mem_columnLoop_arc xc yc radius (fun i => radius - i) (leftover 0) 0
    (fun i bound => by omega) (fun i bound atEnd => by omega) zeros.rightEnd dx dy
  have left := @mem_columnLoop_arc xc yc radius (fun i => -(i : Int)) (leftover 1)
    radius.toNat (fun i bound => by omega) (fun i bound atEnd => by omega) zeros.leftEnd
    dx dy
  rw [rightHalf_eq, leftHalf_eq, right, left, ← or_and_right, and_iff_right_iff_imp]
  rintro ⟨⟨lower, upper⟩, -⟩
  by_cases side : 0 ≤ dx
  · exact Or.inl ⟨(radius - dx).toNat, by omega, by omega⟩
  · exact Or.inr ⟨(-dx).toNat, by omega, by omega⟩

/-- The other two draw those left and right of it. -/
theorem mem_rows_iff (size : 0 ≤ radius) (zeros : LeavesZero leftover radius)
    {dx dy : Int} :
    (xc + dx, yc + dy) ∈ downHalf (leftover 2) xc yc radius ∨
        (xc + dx, yc + dy) ∈ upHalf (leftover 3) xc yc radius ↔
      ChordEnd radius dy dx := by
  have down := @mem_columnLoop_arc yc xc radius (fun i => -radius + i) (leftover 2) 0
    (fun i bound => by omega) (fun i bound atEnd => by omega) zeros.downEnd dy dx
  have up := @mem_columnLoop_arc yc xc radius (fun i => (i : Int)) (leftover 3)
    radius.toNat (fun i bound => by omega) (fun i bound atEnd => by omega) zeros.upEnd
    dy dx
  rw [downHalf_eq, upHalf_eq, mem_map_swap, mem_map_swap, Prod.swap_prod_mk, down, up,
    ← or_and_right, and_iff_right_iff_imp]
  rintro ⟨⟨lower, upper⟩, -⟩
  by_cases side : dy ≤ 0
  · exact Or.inl ⟨(dy + radius).toNat, by omega, by omega⟩
  · exact Or.inr ⟨dy.toNat, by omega, by omega⟩

theorem mem_drawcirclePixels_iff (size : 0 ≤ radius) (zeros : LeavesZero leftover radius)
    {dx dy : Int} :
    (xc + dx, yc + dy) ∈ drawcirclePixels leftover xc yc radius ↔
      ChordEnd radius dx dy ∨ ChordEnd radius dy dx := by
  rw [drawcirclePixels, List.mem_append, List.mem_append, List.mem_append, or_assoc,
    mem_columns_iff size zeros, mem_rows_iff size zeros]

/-! ## Circles -/

/-- With 0 for the missing return values a circle is drawn. -/
theorem circleShape_of_zero (size : 0 ≤ radius) (zeros : LeavesZero leftover radius) :
    CircleShape xc yc radius {p | p ∈ drawcirclePixels leftover xc yc radius} := by
  have member : ∀ {dx dy : Int}, ((xc + dx, yc + dy) ∈
      {p | p ∈ drawcirclePixels leftover xc yc radius}) ↔
        ChordEnd radius dx dy ∨ ChordEnd radius dy dx := fun {dx dy} =>
    mem_drawcirclePixels_iff size zeros
  have tip : ChordEnd radius radius 0 := by
    refine ⟨⟨by omega, Int.le_refl _⟩, Or.inr ?_⟩
    rw [halfChord_end]
  have right := member.mpr (Or.inl tip)
  have left := member.mpr (Or.inl tip.mirrorAlong)
  have up := member.mpr (Or.inr tip)
  have down := member.mpr (Or.inr tip.mirrorAlong)
  rw [Int.add_zero] at right left up down
  refine
    { mirrorColumns := ?_, mirrorRows := ?_, exchange := ?_
      right := right, left := left, up := up, down := down, near := ?_ }
  · intro dx dy pixel
    rw [Int.sub_eq_add_neg]
    rcases member.mp pixel with along | across
    · exact member.mpr (Or.inl along.mirrorAlong)
    · exact member.mpr (Or.inr across.mirrorAcross)
  · intro dx dy pixel
    rw [Int.sub_eq_add_neg]
    rcases member.mp pixel with along | across
    · exact member.mpr (Or.inl along.mirrorAcross)
    · exact member.mpr (Or.inr across.mirrorAlong)
  · intro dx dy pixel
    exact member.mpr (member.mp pixel).symm
  · intro dx dy pixel
    rcases member.mp pixel with along | across
    · exact along.near
    · rw [Int.add_comm (dx * dx)]
      exact across.near

/-- Where a loop reaches the end of the diameter it draws at the leftovers. -/
theorem mem_columnLoop_tip {place : Nat → Int} {leftover : Nat → PassLeftover} {i : Nat}
    (bound : (i : Int) ≤ radius) (tip : place i * place i = radius * radius) {dy : Int}
    (left : dy = -(leftover i).1 ∨ dy = (leftover i).2) :
    (xc + place i, yc + dy) ∈ columnLoop xc yc radius place leftover := by
  rw [mem_columnLoop]
  refine ⟨i, bound, rfl, ?_⟩
  rw [tip, Int.sub_self, rootOr_zero, rootOr_zero]
  dsimp only
  omega

/-- The ends of the diameters in the four loops. -/
theorem tips_drawn (size : 0 ≤ radius) (xc yc : Int) :
    (∀ dy, dy = -(leftover 0 0).1 ∨ dy = (leftover 0 0).2 →
      (xc + radius, yc + dy) ∈ drawcirclePixels leftover xc yc radius) ∧
    (∀ dy, dy = -(leftover 1 radius.toNat).1 ∨ dy = (leftover 1 radius.toNat).2 →
      (xc + -radius, yc + dy) ∈ drawcirclePixels leftover xc yc radius) ∧
    (∀ dx, dx = -(leftover 2 0).1 ∨ dx = (leftover 2 0).2 →
      (xc + dx, yc + -radius) ∈ drawcirclePixels leftover xc yc radius) ∧
    ∀ dx, dx = -(leftover 3 radius.toNat).1 ∨ dx = (leftover 3 radius.toNat).2 →
      (xc + dx, yc + radius) ∈ drawcirclePixels leftover xc yc radius := by
  have last : ((radius.toNat : Nat) : Int) = radius := by omega
  simp only [drawcirclePixels, List.mem_append]
  refine ⟨?_, ?_, ?_, ?_⟩
  · intro dy left
    have drawn := @mem_columnLoop_tip xc yc radius (fun i => radius - i) (leftover 0) 0 size
      (by rw [Int.natCast_zero, Int.sub_zero]) dy left
    rw [Int.natCast_zero, Int.sub_zero, ← rightHalf_eq] at drawn
    exact Or.inl (Or.inl (Or.inl drawn))
  · intro dy left
    have drawn := @mem_columnLoop_tip xc yc radius (fun i => -(i : Int)) (leftover 1)
      radius.toNat (by omega) (by rw [last, Int.neg_mul_neg]) dy left
    rw [last, ← leftHalf_eq] at drawn
    exact Or.inl (Or.inl (Or.inr drawn))
  · intro dx left
    have drawn := @mem_columnLoop_tip yc xc radius (fun i => -radius + i) (leftover 2) 0
      size (by rw [Int.natCast_zero, Int.add_zero, Int.neg_mul_neg]) dx left
    rw [Int.natCast_zero, Int.add_zero] at drawn
    refine Or.inl (Or.inr ?_)
    rw [downHalf_eq, mem_map_swap]
    exact drawn
  · intro dx left
    have drawn := @mem_columnLoop_tip yc xc radius (fun i => (i : Int)) (leftover 3)
      radius.toNat (by omega) (by rw [last]) dx left
    rw [last] at drawn
    refine Or.inr ?_
    rw [upHalf_eq, mem_map_swap]
    exact drawn

theorem zero_of_square_nonpos {v : Int} (square : v * v ≤ 0) : v = 0 := by
  by_contra nonzero
  have positive : 0 < v * v := mul_self_pos.mpr nonzero
  omega

/-- The picture is a circle exactly if all calls of `sqrt(0)` leave 0. -/
theorem circleShape_iff (size : 0 ≤ radius) :
    CircleShape xc yc radius {p | p ∈ drawcirclePixels leftover xc yc radius} ↔
      LeavesZero leftover radius := by
  refine ⟨fun shape => ?_, circleShape_of_zero size⟩
  rcases @tips_drawn radius leftover size xc yc with ⟨right, left, down, up⟩
  have zeroAcross : ∀ dx dy, dx * dx = radius * radius →
      (xc + dx, yc + dy) ∈ drawcirclePixels leftover xc yc radius → dy = 0 := by
    intro dx dy tip drawn
    have near := (shape.near dx dy drawn).1
    exact zero_of_square_nonpos (by omega)
  have zeroAlong : ∀ dx dy, dy * dy = radius * radius →
      (xc + dx, yc + dy) ∈ drawcirclePixels leftover xc yc radius → dx = 0 := by
    intro dx dy tip drawn
    have near := (shape.near dx dy drawn).1
    exact zero_of_square_nonpos (by omega)
  have pair : ∀ {first second : Int}, -first = 0 → second = 0 → (first, second) = (0, 0) := by
    intro first second zero zero'
    rw [Prod.mk.injEq]
    omega
  have mirrored : -radius * -radius = radius * radius := Int.neg_mul_neg radius radius
  exact
    { rightEnd := pair (zeroAcross _ _ rfl (right _ (Or.inl rfl)))
        (zeroAcross _ _ rfl (right _ (Or.inr rfl)))
      leftEnd := pair (zeroAcross _ _ mirrored (left _ (Or.inl rfl)))
        (zeroAcross _ _ mirrored (left _ (Or.inr rfl)))
      downEnd := pair (zeroAlong _ _ mirrored (down _ (Or.inl rfl)))
        (zeroAlong _ _ mirrored (down _ (Or.inr rfl)))
      upEnd := pair (zeroAlong _ _ rfl (up _ (Or.inl rfl)))
        (zeroAlong _ _ rfl (up _ (Or.inr rfl))) }

/-- For no centre and no radius the pixels are well defined: they depend on what
the calls `sqrt(0)` leave. -/
theorem drawcircle_never_well_defined (xc yc : Int) (size : 0 ≤ radius) :
    ¬ DrawsCircle xc yc radius := by
  rintro ⟨pixels, wellDefined, shape⟩
  have tip : (xc + radius, yc + 1) ∈ pixels :=
    (wellDefined (fun _ _ => (1, 1)) _).mp ((tips_drawn size xc yc).1 1 (Or.inr rfl))
  have outside := (shape.near radius 1 tip).1
  omega

end Shape

theorem drawcircle_never_well_defined_fifty : ¬ DrawsCircle 640 512 50 :=
  drawcircle_never_well_defined 640 512 (by decide)

/-- Two runs of `drawcircle(0, 0, 1)`: what `sqrt(0)` leaves is drawn. -/
theorem drawcircle_unit_varies :
    (∀ dy : Int, ((1, dy) : Pixel) ∈ drawcirclePixels (fun _ _ => (dy, dy)) 0 0 1) ∧
      ((1, 7) : Pixel) ∉ drawcirclePixels (fun _ _ => (0, 0)) 0 0 1 ∧
      ¬ DrawsCircle 0 0 1 := by
  have seven : ((1, 7) : Pixel) ∈ drawcirclePixels (fun _ _ => (7, 7)) 0 0 1 := by decide
  have zero : ((1, 7) : Pixel) ∉ drawcirclePixels (fun _ _ => (0, 0)) 0 0 1 := by decide
  refine ⟨fun dy => ?_, zero, ?_⟩
  · have drawn := (@tips_drawn 1 (fun _ _ => (dy, dy)) (by decide) 0 0).1 dy (Or.inr rfl)
    simpa using drawn
  · rintro ⟨pixels, wellDefined, -⟩
    exact zero ((wellDefined _ _).mpr ((wellDefined _ _).mp seven))

end Os88.MiniOs
