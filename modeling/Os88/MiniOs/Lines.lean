/-
Module: Os88.MiniOs.Lines
Purpose: `drawline` of kernel_main.c, the lines it draws right and the others.
Trusted boundary: none
Main exports: int32, drawline, drawlinePixels, drawline_video, drawlinePixels_flat,
  drawlinePixels_steep, drawline_forward, drawsSegment_iff
-/
import Os88.MiniOs.Pixels
import Os88.Library.DigitalLine

namespace Os88.MiniOs

open Execution DigitalLine

/-! ## The code -/

/-- The value of a computation in `int`, unless it overflows. -/
def int32 (value : Int) : Option Int :=
  if -2147483648 ≤ value ∧ value ≤ 2147483647 then some value else none

/-- Division of two `int`s, which by zero has no result. -/
def quotient (a b : Int) : Option Int :=
  if b = 0 then none else int32 (a.tdiv b)

/-- The absolute value of a difference. -/
def absolute (d : Int) : Option Int :=
  if d < 0 then int32 (-d) else some d

/-- `start + rise * (position - low) / length` -/
def lineAcross (rise length low start position : Int) : Option Int := do
  let travelled ← int32 (position - low)
  let product ← int32 (rise * travelled)
  let risen ← quotient product length
  int32 (start + risen)

section Code

variable {σ : Type}

/-- One pass of the loop of either slope case; `plot` is called with the
coordinate the loop runs along first. -/
def plotStep (plot : Int → Int → σ → σ) (rise length low start : Int) (i : Nat) (s : σ) :
    Option σ := do
  let across ← lineAcross rise length low start (low + i)
  let _ ← int32 (low + i + 1)
  return plot (low + i) across s

def plotSteps (plot : Int → Int → σ → σ) (rise length low high start : Int) (s : σ) :
    Option σ :=
  countLoop (plotStep plot rise length low start) 0 (high - low + 1).toNat s

/-- `drawline`, where `plot` stands for `setpixel` in the colour of the line. -/
def plotLine (plot : Int → Int → σ → σ) (x1 y1 x2 y2 : Int) (s : σ) : Option σ := do
  let dx ← int32 (x2 - x1)
  let dy ← int32 (y2 - y1)
  let dxabs ← absolute dx
  let dyabs ← absolute dy
  if dyabs ≤ dxabs then
    -- The two columns are exchanged, the two rows and the differences are not.
    if x2 < x1 then plotSteps plot dy dxabs x2 x1 y1 s
    else plotSteps plot dy dxabs x1 x2 y1 s
  else
    if y2 < y1 then plotSteps (fun py px => plot px py) dx dyabs y2 y1 x1 s
    else plotSteps (fun py px => plot px py) dx dyabs y1 y2 x1 s

end Code

def drawline (x1 y1 x2 y2 b g r : Int) (s : Screen) : Option Screen :=
  plotLine (fun px py => setpixel px py b g r) x1 y1 x2 y2 s

/-- The pixels `drawline` sets, in the order of the calls. -/
def drawlinePixels (x1 y1 x2 y2 : Int) : Option (List Pixel) :=
  plotLine (fun px py calls => calls ++ [(px, py)]) x1 y1 x2 y2 []

/-! ## The pixels are what is drawn -/

section Recorded

variable {σ τ : Type} {plot : Int → Int → σ → σ} {other : Int → Int → τ → τ} {f : σ → τ}

theorem plotSteps_map (same : ∀ a b s, other a b (f s) = f (plot a b s))
    (rise length low high start : Int) (s : σ) :
    plotSteps other rise length low high start (f s) =
      (plotSteps plot rise length low high start s).map f := by
  apply countLoop_map f
  intro i s
  rw [plotStep, plotStep]
  cases lineAcross rise length low start (low + i) with
  | none => rfl
  | some across =>
      cases int32 (low + i + 1) with
      | none => rfl
      | some next => exact congrArg some (same _ _ s)

theorem plotLine_map (same : ∀ px py s, other px py (f s) = f (plot px py s))
    (x1 y1 x2 y2 : Int) (s : σ) :
    plotLine other x1 y1 x2 y2 (f s) = (plotLine plot x1 y1 x2 y2 s).map f := by
  have flat := @plotSteps_map _ _ plot other f same
  have steep := @plotSteps_map _ _ (fun py px => plot px py) (fun py px => other px py) f
    fun py px s => same px py s
  simp only [plotLine, flat, steep, Option.map_bind, Function.comp_def, apply_ite
    (Option.map f), Option.bind_eq_bind]

end Recorded

/-- The screen after the pixels of a list are painted. -/
def painted (b g r : Int) (s : Screen) (pixels : List Pixel) : Screen :=
  { s with video := paint b g r pixels s.video }

theorem painted_concat (b g r : Int) (s : Screen) (pixels : List Pixel) (px py : Int) :
    setpixel px py b g r (painted b g r s pixels) =
      painted b g r s (pixels ++ [(px, py)]) := by
  rw [painted, painted, paint_append]
  rfl

/-- `drawline` paints its pixels and nothing else. -/
theorem drawline_video (x1 y1 x2 y2 b g r : Int) (s : Screen) :
    drawline x1 y1 x2 y2 b g r s =
      (drawlinePixels x1 y1 x2 y2).map (painted b g r s) := by
  rw [drawline, drawlinePixels, ← plotLine_map fun px py calls =>
    painted_concat b g r s calls px py]
  rfl

/-! ## The pixels of a line -/

/-- Absolute value below 2^14. -/
def SmallCoordinate (v : Int) : Prop :=
  v.natAbs < 16384

/-- The ends of a line with small coordinates. -/
structure SmallEnds (x1 y1 x2 y2 : Int) : Prop where
  column1 : SmallCoordinate x1
  row1 : SmallCoordinate y1
  column2 : SmallCoordinate x2
  row2 : SmallCoordinate y2

theorem int32_inRange {value : Int} (bound : value.natAbs ≤ 2147483647) :
    int32 value = some value :=
  if_pos (by omega)

theorem absolute_inRange {d : Int} (bound : d.natAbs ≤ 2147483647) :
    absolute d = some (d.natAbs : Int) := by
  unfold absolute
  split
  · rw [int32_inRange (by omega)]
    congr 1
    omega
  · congr 1
    omega

section Steps

variable {rise low start : Int} {length : Nat}

/-- No product of the loop leaves the range of `int`. -/
theorem product_inRange (slope : rise.natAbs ≤ 32767) (size : length ≤ 32767) {t : Nat}
    (inside : t ≤ length) : (rise * t).natAbs ≤ 1073741824 := by
  rw [Int.natAbs_mul, Int.natAbs_natCast]
  calc rise.natAbs * t ≤ 32767 * 32767 := Nat.mul_le_mul slope (by omega)
    _ ≤ 1073741824 := by decide

theorem lineAcross_inRange (slope : rise.natAbs ≤ 32767) (size : length ≤ 32767)
    (steps : 0 < length) (small : SmallCoordinate start) {t : Nat} (inside : t ≤ length) :
    lineAcross rise length low start (low + t) =
      some (start + offset rise length t) := by
  have product := product_inRange slope size inside
  have divided := Int.natAbs_tdiv_le_natAbs (rise * t) length
  rw [SmallCoordinate] at small
  have travelled : low + (t : Int) - low = t := by omega
  rw [lineAcross, travelled, int32_inRange (by omega : (t : Int).natAbs ≤ 2147483647)]
  simp only [Option.bind_eq_bind, Option.bind_some]
  rw [int32_inRange (by omega : (rise * t).natAbs ≤ 2147483647), Option.bind_some, quotient,
    if_neg (by omega), int32_inRange (by omega : ((rise * t).tdiv length).natAbs ≤ 2147483647),
    Option.bind_some, int32_inRange (by omega)]
  rfl

/-- The calls of one slope case. -/
theorem plotSteps_recorded (slope : rise.natAbs ≤ 32767) (size : length ≤ 32767)
    (steps : 0 < length) (small : SmallCoordinate start) (small' : SmallCoordinate low)
    {high : Int} (last : high = low + length) :
    plotSteps (fun a b calls => calls ++ [(a, b)]) rise length low high start [] =
      some (points low start rise length) := by
  rw [SmallCoordinate] at small'
  have run : ∃ calls, plotSteps (fun a b calls => calls ++ [(a, b)]) rise length low high
      start [] = some calls ∧ calls = (List.range (0 + (high - low + 1).toNat)).map
        fun (t : Nat) => (low + t, start + offset rise length t) := by
    apply countLoop_rule fun i calls => calls = (List.range i).map
      fun (t : Nat) => (low + t, start + offset rise length t)
    · rfl
    rintro i calls - bound rfl
    refine ⟨_, ?_, rfl⟩
    rw [plotStep, lineAcross_inRange slope size steps small (by omega : i ≤ length)]
    simp only [Option.bind_eq_bind, Option.bind_some]
    rw [int32_inRange (by omega), List.range_succ, List.map_append]
    rfl
  rcases run with ⟨calls, ran, recorded⟩
  have passes : 0 + (high - low + 1).toNat = length + 1 := by omega
  rw [passes] at recorded
  rw [ran, recorded]
  rfl

/-- The calls of the other one. -/
theorem plotSteps_recorded_swap (slope : rise.natAbs ≤ 32767) (size : length ≤ 32767)
    (steps : 0 < length) (small : SmallCoordinate start) (small' : SmallCoordinate low)
    {high : Int} (last : high = low + length) :
    plotSteps (fun b a calls => calls ++ [(a, b)]) rise length low high start [] =
      some ((points low start rise length).map Prod.swap) := by
  have swapped := @plotSteps_map (List Pixel) (List Pixel)
    (fun a b calls => calls ++ [(a, b)]) (fun b a calls => calls ++ [(a, b)])
    (List.map Prod.swap) (fun a b calls => by simp) rise length low high start []
  rw [plotSteps_recorded slope size steps small small' last] at swapped
  exact swapped

end Steps

section Pixels

variable {x1 y1 x2 y2 : Int}

theorem SmallEnds.bounds (small : SmallEnds x1 y1 x2 y2) :
    x1.natAbs < 16384 ∧ y1.natAbs < 16384 ∧ x2.natAbs < 16384 ∧ y2.natAbs < 16384 :=
  ⟨small.column1, small.row1, small.column2, small.row2⟩

theorem SmallEnds.symm (small : SmallEnds x1 y1 x2 y2) : SmallEnds x2 y2 x1 y1 :=
  ⟨small.column2, small.row2, small.column1, small.row1⟩

/-- The differences and their absolute values are in range. -/
theorem drawlinePixels_eq (small : SmallEnds x1 y1 x2 y2) :
    drawlinePixels x1 y1 x2 y2 =
      if (y2 - y1).natAbs ≤ (x2 - x1).natAbs then
        plotSteps (fun px py calls => calls ++ [(px, py)]) (y2 - y1) (x2 - x1).natAbs
          (min x1 x2) (max x1 x2) y1 []
      else
        plotSteps (fun py px calls => calls ++ [(px, py)]) (x2 - x1) (y2 - y1).natAbs
          (min y1 y2) (max y1 y2) x1 [] := by
  have bounds := small.bounds
  rw [drawlinePixels, plotLine, int32_inRange (by omega : (x2 - x1).natAbs ≤ _),
    int32_inRange (by omega : (y2 - y1).natAbs ≤ _)]
  simp only [Option.bind_eq_bind, Option.bind_some]
  rw [absolute_inRange (by omega), Option.bind_some, absolute_inRange (by omega),
    Option.bind_some]
  by_cases flat : (y2 - y1).natAbs ≤ (x2 - x1).natAbs
  · rw [if_pos flat, if_pos (by omega)]
    split
    · rw [Int.min_eq_right (by omega), Int.max_eq_left (by omega)]
    · rw [Int.min_eq_left (by omega), Int.max_eq_right (by omega)]
  · rw [if_neg flat, if_neg (by omega)]
    split
    · rw [Int.min_eq_right (by omega), Int.max_eq_left (by omega)]
    · rw [Int.min_eq_left (by omega), Int.max_eq_right (by omega)]

theorem SmallCoordinate.min {v w : Int} (first : SmallCoordinate v)
    (second : SmallCoordinate w) : SmallCoordinate (min v w) := by
  rw [SmallCoordinate] at first second ⊢
  omega

/-- A line that is at least as wide as high. -/
theorem drawlinePixels_flat (small : SmallEnds x1 y1 x2 y2)
    (flat : (y2 - y1).natAbs ≤ (x2 - x1).natAbs) (long : x1 ≠ x2) :
    drawlinePixels x1 y1 x2 y2 =
      some (points (min x1 x2) y1 (y2 - y1) (x2 - x1).natAbs) := by
  have bounds := small.bounds
  rw [drawlinePixels_eq small, if_pos flat]
  exact plotSteps_recorded (by omega) (by omega) (by omega) small.row1
    (small.column1.min small.column2) (by omega)

/-- A line that is higher than wide. -/
theorem drawlinePixels_steep (small : SmallEnds x1 y1 x2 y2)
    (steep : (x2 - x1).natAbs < (y2 - y1).natAbs) :
    drawlinePixels x1 y1 x2 y2 =
      some ((points (min y1 y2) x1 (x2 - x1) (y2 - y1).natAbs).map Prod.swap) := by
  have bounds := small.bounds
  rw [drawlinePixels_eq small, if_neg (Nat.not_le.mpr steep)]
  exact plotSteps_recorded_swap (by omega) (by omega) (by omega) small.column1
    (small.row1.min small.row2) (by omega)

/-- The first pixel of a line without extent divides by zero. -/
theorem drawlinePixels_point (x y : Int) : drawlinePixels x y x y = none := by
  have noDivision : lineAcross 0 0 x y x = none := by
    simp [lineAcross, int32, quotient]
  have onePass : (x - x + 1).toNat = 1 := by omega
  rw [drawlinePixels, plotLine, Int.sub_self, Int.sub_self, int32_inRange (by decide)]
  simp only [Option.bind_eq_bind, Option.bind_some, Int.lt_irrefl, if_false]
  rw [absolute, if_neg (by decide)]
  simp only [Option.bind_some, Int.le_refl, if_true]
  rw [plotSteps, onePass, countLoop, plotStep]
  simp only [Int.natCast_zero, Int.add_zero, noDivision, Option.bind_eq_bind, Option.bind_none]

end Pixels

/-! ## Lines that run forward -/

/-- The line is at least as wide as high. -/
def Flat (x1 y1 x2 y2 : Int) : Prop :=
  (y2 - y1).natAbs ≤ (x2 - x1).natAbs

instance (x1 y1 x2 y2 : Int) : Decidable (Flat x1 y1 x2 y2) :=
  inferInstanceAs (Decidable ((y2 - y1).natAbs ≤ (x2 - x1).natAbs))

/-- The ends come in the order of the longer axis. -/
def Forward (x1 y1 x2 y2 : Int) : Prop :=
  if Flat x1 y1 x2 y2 then x1 ≤ x2 else y1 ≤ y2

/-- The product computed for a pixel. -/
def stepProduct (x1 y1 x2 y2 : Int) (p : Pixel) : Int :=
  if Flat x1 y1 x2 y2 then (y2 - y1) * (p.1 - x1) else (x2 - x1) * (p.2 - y1)

section Ends

variable {x1 y1 x2 y2 : Int}

/-- A line whose ends are given in the order of its longer axis is a line of
pixels along that axis, and no product leaves the range of `int`. -/
theorem drawline_forward (small : SmallEnds x1 y1 x2 y2)
    (different : (x1, y1) ≠ (x2, y2)) (forward : Forward x1 y1 x2 y2) :
    ∃ pixels, drawlinePixels x1 y1 x2 y2 = some pixels ∧
      (∀ b g r s, drawline x1 y1 x2 y2 b g r s = some (painted b g r s pixels)) ∧
      (if Flat x1 y1 x2 y2 then IsLine (x1, y1) (x2, y2) pixels
        else IsLine (y1, x1) (y2, x2) (pixels.map Prod.swap)) ∧
      ∀ p ∈ pixels, (stepProduct x1 y1 x2 y2 p).natAbs ≤ 2147483647 := by
  have bounds := small.bounds
  rw [ne_eq, Prod.mk.injEq] at different
  unfold Forward at forward
  unfold stepProduct
  by_cases flat : Flat x1 y1 x2 y2
  · have slope : (y2 - y1).natAbs ≤ (x2 - x1).natAbs := flat
    rw [if_pos flat] at forward
    have drawn := drawlinePixels_flat small slope (by omega)
    rw [Int.min_eq_left forward] at drawn
    refine ⟨_, drawn, fun b g r s => by rw [drawline_video, drawn]; rfl, ?_, ?_⟩
    · rw [if_pos flat]
      have line := @points_isLine x1 y1 _ _ (by omega) slope
      rwa [show x1 + ((x2 - x1).natAbs : Int) = x2 by omega,
        show y1 + (y2 - y1) = y2 by omega] at line
    · intro p member
      rcases mem_points.mp member with ⟨t, inside, rfl⟩
      rw [if_pos flat, show x1 + (t : Int) - x1 = t by omega]
      have product := product_inRange (by omega : (y2 - y1).natAbs ≤ 32767)
        (by omega : (x2 - x1).natAbs ≤ 32767) inside
      omega
  · have slope : (x2 - x1).natAbs < (y2 - y1).natAbs := Nat.lt_of_not_le flat
    rw [if_neg flat] at forward
    have drawn := drawlinePixels_steep small slope
    rw [Int.min_eq_left forward] at drawn
    refine ⟨_, drawn, fun b g r s => by rw [drawline_video, drawn]; rfl, ?_, ?_⟩
    · rw [if_neg flat, List.map_map, Prod.swap_swap_eq, List.map_id]
      have line := @points_isLine y1 x1 _ _ (by omega) (Nat.le_of_lt slope)
      rwa [show y1 + ((y2 - y1).natAbs : Int) = y2 by omega,
        show x1 + (x2 - x1) = x2 by omega] at line
    · intro p member
      rcases List.mem_map.mp member with ⟨q, inPoints, rfl⟩
      rcases mem_points.mp inPoints with ⟨t, inside, rfl⟩
      rw [if_neg flat, Prod.snd_swap, show y1 + (t : Int) - y1 = t by omega]
      have product := product_inRange (by omega : (x2 - x1).natAbs ≤ 32767)
        (by omega : (y2 - y1).natAbs ≤ 32767) inside
      omega

/-- The line from (2, -9) to (5, 7). -/
theorem drawline_forward_steep :
    ∃ pixels, drawlinePixels 2 (-9) 5 7 = some pixels ∧
      (∀ b g r s, drawline 2 (-9) 5 7 b g r s = some (painted b g r s pixels)) ∧
      (if Flat 2 (-9) 5 7 then IsLine (2, -9) (5, 7) pixels
        else IsLine (-9, 2) (7, 5) (pixels.map Prod.swap)) ∧
      ∀ p ∈ pixels, (stepProduct 2 (-9) 5 7 p).natAbs ≤ 2147483647 :=
  drawline_forward (by constructor <;> (unfold SmallCoordinate; decide)) (by decide)
    (by unfold Forward; decide)

/-! ## All lines -/

/-- `drawline` does not divide by zero, sets both ends, and sets the same pixels
when the ends are exchanged. -/
def DrawsSegment (x1 y1 x2 y2 : Int) : Prop :=
  ∃ pixels, drawlinePixels x1 y1 x2 y2 = some pixels ∧
    (x1, y1) ∈ pixels ∧ (x2, y2) ∈ pixels ∧
    ∃ exchanged, drawlinePixels x2 y2 x1 y1 = some exchanged ∧
      ∀ p, p ∈ exchanged ↔ p ∈ pixels

/-- With the ends exchanged the line starts on the other row. -/
theorem points_same_start {low start start' rise rise' : Int} {length : Nat}
    (same : ∀ p, p ∈ points low start' rise' length ↔ p ∈ points low start rise length) :
    start' = start := by
  have first : (low, start') ∈ points low start' rise' length :=
    mem_points.mpr ⟨0, Nat.zero_le _, by simp [offset_zero]⟩
  rcases mem_points.mp ((same _).mp first) with ⟨t, -, place⟩
  rw [Prod.mk.injEq] at place
  have atStart : (t : Int) = 0 := by omega
  rw [atStart, offset_zero] at place
  omega

/-- A line along its axis. -/
theorem mem_points_level {low start column : Int} {length : Nat} (left : low ≤ column)
    (right : column ≤ low + length) : (column, start) ∈ points low start 0 length := by
  refine mem_points.mpr ⟨(column - low).toNat, by omega, ?_⟩
  rw [offset_flat, Prod.mk.injEq]
  omega

theorem mem_map_swap {p : Pixel} {pixels : List Pixel} :
    p ∈ pixels.map Prod.swap ↔ p.swap ∈ pixels := by
  constructor
  · intro member
    rcases List.mem_map.mp member with ⟨q, inPixels, rfl⟩
    rwa [Prod.swap_swap]
  · intro member
    exact List.mem_map.mpr ⟨p.swap, member, Prod.swap_swap p⟩

theorem drawsSegment_flat (small : SmallEnds x1 y1 x2 y2) (flat : Flat x1 y1 x2 y2)
    (long : x1 ≠ x2) : DrawsSegment x1 y1 x2 y2 ↔ y1 = y2 := by
  have slope : (y2 - y1).natAbs ≤ (x2 - x1).natAbs := flat
  have there := drawlinePixels_flat small slope long
  have back := drawlinePixels_flat small.symm (by omega) long.symm
  rw [Int.min_comm, show (x1 - x2).natAbs = (x2 - x1).natAbs by omega] at back
  constructor
  · rintro ⟨pixels, drawn, -, -, exchanged, drawn', same⟩
    obtain rfl := Option.some.inj (there.symm.trans drawn)
    obtain rfl := Option.some.inj (back.symm.trans drawn')
    exact (points_same_start same).symm
  · rintro rfl
    rw [Int.sub_self] at there back
    refine ⟨_, there, ?_, ?_, _, back, fun p => Iff.rfl⟩
    · apply mem_points_level <;> omega
    · apply mem_points_level <;> omega

theorem drawsSegment_steep (small : SmallEnds x1 y1 x2 y2)
    (steep : ¬ Flat x1 y1 x2 y2) : DrawsSegment x1 y1 x2 y2 ↔ x1 = x2 := by
  have slope : (x2 - x1).natAbs < (y2 - y1).natAbs := Nat.lt_of_not_le steep
  have there := drawlinePixels_steep small slope
  have back := drawlinePixels_steep small.symm (by omega)
  rw [Int.min_comm, show (y1 - y2).natAbs = (y2 - y1).natAbs by omega] at back
  constructor
  · rintro ⟨pixels, drawn, -, -, exchanged, drawn', same⟩
    obtain rfl := Option.some.inj (there.symm.trans drawn)
    obtain rfl := Option.some.inj (back.symm.trans drawn')
    have transposed : ∀ p, p ∈ points (min y1 y2) x2 (x1 - x2) (y2 - y1).natAbs ↔
        p ∈ points (min y1 y2) x1 (x2 - x1) (y2 - y1).natAbs := by
      intro p
      have samePixel := same p.swap
      rwa [mem_map_swap, mem_map_swap, Prod.swap_swap] at samePixel
    exact (points_same_start transposed).symm
  · rintro rfl
    rw [Int.sub_self] at there back
    refine ⟨_, there, ?_, ?_, _, back, fun p => Iff.rfl⟩
    · rw [mem_map_swap]
      apply mem_points_level <;> dsimp only <;> omega
    · rw [mem_map_swap]
      apply mem_points_level <;> dsimp only <;> omega

/-- `drawline` draws the segment it is given exactly if the segment has an extent
along one axis only. -/
theorem drawsSegment_iff (small : SmallEnds x1 y1 x2 y2) :
    DrawsSegment x1 y1 x2 y2 ↔ (x1 = x2 ∧ y1 ≠ y2) ∨ (x1 ≠ x2 ∧ y1 = y2) := by
  by_cases flat : Flat x1 y1 x2 y2
  · have slope : (y2 - y1).natAbs ≤ (x2 - x1).natAbs := flat
    by_cases long : x1 = x2
    · obtain rfl : y1 = y2 := by omega
      obtain rfl := long
      have noExtent : ¬ DrawsSegment x1 y1 x1 y1 := by
        rintro ⟨pixels, drawn, -⟩
        rw [drawlinePixels_point] at drawn
        cases drawn
      simp [noExtent]
    · rw [drawsSegment_flat small flat long]
      omega
  · have slope : (x2 - x1).natAbs < (y2 - y1).natAbs := Nat.lt_of_not_le flat
    rw [drawsSegment_steep small flat]
    omega

theorem drawsSegment_iff_diagonal :
    DrawsSegment 0 0 3 3 ↔ ((0 : Int) = 3 ∧ (0 : Int) ≠ 3) ∨ ((0 : Int) ≠ 3 ∧ (0 : Int) = 3) :=
  drawsSegment_iff (by constructor <;> (unfold SmallCoordinate; decide))

/-- From (3, 3) back to (0, 0) the other diagonal is drawn, and a single point is
not drawn at all. -/
theorem drawline_not_segment :
    drawlinePixels 3 3 0 0 = some [(0, 3), (1, 2), (2, 1), (3, 0)] ∧
      ¬ DrawsSegment 3 3 0 0 ∧ drawlinePixels 3 3 3 3 = none ∧ ¬ DrawsSegment 3 3 3 3 := by
  have other : drawlinePixels 3 3 0 0 = some [(0, 3), (1, 2), (2, 1), (3, 0)] := by decide
  refine ⟨other, ?_, drawlinePixels_point 3 3, ?_⟩
  · rintro ⟨pixels, drawn, start, -⟩
    obtain rfl := Option.some.inj (other.symm.trans drawn)
    revert start
    decide
  · rintro ⟨pixels, drawn, -⟩
    rw [drawlinePixels_point] at drawn
    cases drawn

end Ends

end Os88.MiniOs
