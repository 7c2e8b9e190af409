import DepthRaster.Proofs.Geometry.Interpolation
import DepthRaster.Proofs.Numeric.NearWhole
import DepthRaster.Proofs.Numeric.Nearest
import DepthRaster.Proofs.Raster.Segment
/-!
# Segments from the other side

A segment is drawn the same from either end. With columns and rows exchanged it is stepped along the
other axis, so the exchanged cells are drawn. Only a segment with as many columns as rows is stepped
along columns both times. It goes through the cells of a diagonal then, which are the same along
either axis; in double precision too, whose errors are too small to leave the diagonal.
-/

namespace DepthRaster.Geometry.Cell

theorem InRange.transpose {a : Cell} (h : a.InRange) : a.transpose.InRange := And.symm h

theorem transpose_injective : Function.Injective Cell.transpose :=
  Function.LeftInverse.injective (g := Cell.transpose) fun _ => rfl

end DepthRaster.Geometry.Cell

namespace DepthRaster.Raster.Segment

open Numeric
open DepthRaster.Geometry

theorem between_of_le {a b : Cell} (hflat : (a.y - b.y).natAbs ≤ (a.x - b.x).natAbs)
    (hle : a.x ≤ b.x) : between a b = ⟨false, a, b⟩ := by
  simp only [between, decide_eq_false hflat.not_gt, Bool.false_eq_true, if_false, if_neg hle.not_gt]

/-- Off the diagonals, exchanging columns and rows exchanges the axis that is stepped along. -/
theorem between_transpose {a b : Cell} (h : (a.x - b.x).natAbs ≠ (a.y - b.y).natAbs) :
    between a.transpose b.transpose = { between a b with steep := !(between a b).steep } := by
  rcases h.lt_or_gt with hsteep | hflat
  · simp only [between, Cell.transpose, hsteep, hsteep.not_gt, decide_true, decide_false,
      Bool.false_eq_true, if_true, if_false]
    split_ifs <;> rfl
  · simp only [between, Cell.transpose, hflat, hflat.not_gt, decide_true, decide_false,
      Bool.false_eq_true, if_true, if_false]
    split_ifs <;> rfl

theorem cells_flipped (α : Type) [Scalar α] (s : Segment) :
    ({ s with steep := !s.steep } : Segment).cells α = (s.cells α).map Cell.transpose := by
  have hcell (n : ℤ) :
      ({ s with steep := !s.steep } : Segment).cellAt α n = (s.cellAt α n).transpose := by
    obtain ⟨steep, start, finish⟩ := s
    cases steep <;> rfl
  simp only [cells, List.map_map]
  exact List.map_congr_left fun n _ => hcell n

/-! ## Diagonals -/

def share (α : Type) [Scalar α] (span step : ℤ) : α :=
  if (Scalar.ofInt 0 : α) < Scalar.ofInt span then Scalar.ofInt step / Scalar.ofInt span
  else Scalar.ofInt 0

theorem across_eq (α : Type) [Scalar α] (s : Segment) (x : ℤ) :
    s.across α x = Scalar.roundWithin minCoordinate maxCoordinate
      (Scalar.ofInt s.start.y + Scalar.ofInt (s.finish.y - s.start.y) *
        share α (s.finish.x - s.start.x) (x - s.start.x)) :=
  rfl

theorem share_rat {d : ℤ} (hd : 0 ≤ d) (n : ℤ) : share ℚ d n = n / d := by
  change (if ((0 : ℤ) : ℚ) < d then (n : ℚ) / d else (0 : ℤ)) = n / d
  split_ifs with h
  · rfl
  · have hspan : ¬ 0 < d := by exact_mod_cast h
    obtain rfl : d = 0 := by omega
    rw [Int.cast_zero, div_zero]

section

variable {d n : ℤ} (hn : 0 ≤ n) (hnd : n ≤ d)

include hn hnd

theorem mul_share_rat : d * share ℚ d n = n := by
  rw [share_rat (hn.trans hnd)]
  refine mul_div_cancel_of_imp' fun hspan => ?_
  rw [Int.cast_eq_zero] at hspan ⊢
  omega

theorem exists_share_float (hd : d ≤ 2 ^ 34) :
    ∃ q, IsExactly (share Float d n) q ∧ |d * q - n| ≤ |(n : ℚ)| / 2 ^ 52 := by
  have hzero : IsExactly (Scalar.ofInt 0 : Float) (0 : ℤ) := IsExactly.ofInt (by decide)
  have hspan : IsExactly (Scalar.ofInt d : Float) d := IsExactly.ofInt (by omega)
  have hpart : IsExactly (Scalar.ofInt n : Float) n := IsExactly.ofInt (by omega)
  rw [share]
  split_ifs with h
  · have hpos : (0 : ℚ) < d := by exact_mod_cast (hzero.lt_iff hspan).mp h
    have hregular : Regular (n / d) :=
      regular_ratio hn (by omega) (by exact_mod_cast hpos) (by omega)
    obtain ⟨q, hq, hnear⟩ := IsNearly.div hpart hspan hpos.ne' hregular
    rw [drift_succ, drift_zero, zero_add, add_zero] at hnear
    refine ⟨q, hq, ?_⟩
    calc |d * q - n| = d * |q - n / d| := by
          rw [← abs_of_pos hpos, ← abs_mul, abs_of_pos hpos, mul_sub, mul_div_cancel₀ _ hpos.ne']
      _ ≤ d * (1 / 2 ^ 52 * (n / d)) := mul_le_mul_of_nonneg_left hnear hpos.le
      _ = n / 2 ^ 52 := by rw [mul_left_comm, mul_div_cancel₀ _ hpos.ne', one_div_mul_eq_div]
      _ ≤ |(n : ℚ)| / 2 ^ 52 := by gcongr; exact le_abs_self _
  · have hspan : ¬ 0 < d := by exact_mod_cast h ∘ (hzero.lt_iff hspan).mpr
    obtain rfl : n = 0 := by omega
    exact ⟨_, hzero, by simp⟩

end

structure Diagonal (s : Segment) (k : ℤ) : Prop where
  start_inRange : s.start.InRange
  finish_inRange : s.finish.InRange
  isUnit : k = 1 ∨ k = -1
  rise : s.finish.y - s.start.y = k * (s.finish.x - s.start.x)

/-- Scalars that leave no step of a diagonal segment beside the diagonal. -/
def KeepsDiagonals (α : Type) [Scalar α] : Prop :=
  ∀ {s : Segment} {k x : ℤ}, s.Diagonal k → s.start.x ≤ x → x ≤ s.finish.x →
    s.across α x = s.start.y + k * (x - s.start.x)

theorem Diagonal.inRange {s : Segment} {k x : ℤ} (h : s.Diagonal k) (hx : s.start.x ≤ x)
    (hx' : x ≤ s.finish.x) :
    minCoordinate ≤ s.start.y + k * (x - s.start.x) ∧
      s.start.y + k * (x - s.start.x) ≤ maxCoordinate := by
  obtain ⟨hstart, hfinish, hk, hrise⟩ := h
  simp only [Cell.InRange] at hstart hfinish
  rcases hk with rfl | rfl <;> omega

theorem keepsDiagonals_rat : KeepsDiagonals ℚ := by
  intro s k x hdiagonal hx hx'
  obtain ⟨hlow, hhigh⟩ := hdiagonal.inRange hx hx'
  have hvalue : (Scalar.ofInt s.start.y + Scalar.ofInt (s.finish.y - s.start.y) *
      share ℚ (s.finish.x - s.start.x) (x - s.start.x) : ℚ) =
        (s.start.y + k * (x - s.start.x) : ℤ) := by
    change (s.start.y : ℚ) + (s.finish.y - s.start.y : ℤ) * _ = _
    rw [hdiagonal.rise, Int.cast_mul, mul_assoc, mul_share_rat (by omega) (by omega)]
    push_cast
    rfl
  rw [across_eq, hvalue]
  exact roundWithin_eq_of_near hlow hhigh (by norm_num)

/-- The part of the way, the rise and the sum are each off by one rounding, far less than a half in
all. -/
theorem keepsDiagonals_float : KeepsDiagonals Float := by
  intro s k x hdiagonal hx hx'
  obtain ⟨hlow, hhigh⟩ := hdiagonal.inRange hx hx'
  obtain ⟨hstart, hfinish, hk, hrise⟩ := hdiagonal
  simp only [Cell.InRange, minCoordinate, maxCoordinate] at hstart hfinish
  obtain ⟨q, hshare, hnear⟩ := exists_share_float (d := s.finish.x - s.start.x)
    (n := x - s.start.x) (by omega) (by omega) (by omega)
  have hone : |(k : ℚ)| = 1 := by rcases hk with rfl | rfl <;> norm_num
  have hproduct : |((s.finish.y - s.start.y : ℤ) : ℚ) * q - (k * (x - s.start.x) : ℤ)| ≤
      |((k * (x - s.start.x) : ℤ) : ℚ)| / 2 ^ 52 := by
    rw [hrise, Int.cast_mul, Int.cast_mul, mul_assoc, ← mul_sub, abs_mul, abs_mul, hone, one_mul,
      one_mul]
    exact hnear
  have hstart_size : s.start.y.natAbs ≤ 2 ^ 34 := by omega
  have hstep_size : (k * (x - s.start.x)).natAbs ≤ 2 ^ 34 := by
    rcases hk with rfl | rfl <;> omega
  obtain ⟨r, hr, hr_near, hgrained⟩ := exists_rounds_near hstep_size hproduct
  obtain ⟨t, ht, ht_near⟩ := exists_rounds_add_near hstart_size hstep_size hr_near hgrained
  have hvalue := (IsExactly.ofInt (n := s.start.y) (by omega)).add_rounds
    ((IsExactly.ofInt (n := s.finish.y - s.start.y) (by omega)).mul_rounds hshare hr) ht
  rw [across_eq]
  exact (IsExactly.roundWithin_eq hvalue _ _).trans (roundWithin_eq_of_near hlow hhigh ht_near)

def OnDiagonal (a b c : Cell) : Prop :=
  (c.x - a.x).natAbs = (c.y - a.y).natAbs ∧ (c.x - b.x).natAbs = (c.y - b.y).natAbs ∧
    (c.x - a.x).natAbs + (c.x - b.x).natAbs = (a.x - b.x).natAbs

theorem OnDiagonal.symm {a b c : Cell} (h : OnDiagonal a b c) : OnDiagonal b a c :=
  ⟨h.2.1, h.1, by rw [add_comm, h.2.2, ← Int.natAbs_neg, neg_sub]⟩

theorem OnDiagonal.transpose {a b c : Cell} (h : OnDiagonal a b c)
    (hspan : (a.x - b.x).natAbs = (a.y - b.y).natAbs) :
    OnDiagonal a.transpose b.transpose c.transpose := by
  refine ⟨h.1.symm, h.2.1.symm, ?_⟩
  change (c.y - a.y).natAbs + (c.y - b.y).natAbs = (a.y - b.y).natAbs
  rw [← h.1, ← h.2.1, h.2.2, hspan]

theorem mem_cells_iff_onDiagonal {α : Type} [Scalar α] (hα : KeepsDiagonals α) {a b : Cell}
    (ha : a.InRange) (hb : b.InRange) (h : (a.x - b.x).natAbs = (a.y - b.y).natAbs) (c : Cell) :
    c ∈ (between a b).cells α ↔ OnDiagonal a b c := by
  wlog hle : a.x ≤ b.x generalizing a b
  · rw [between_comm, this hb ha (by omega) (by omega)]
    exact ⟨.symm, .symm⟩
  obtain ⟨k, hdiagonal⟩ : ∃ k, (⟨false, a, b⟩ : Segment).Diagonal k := by
    rcases Int.natAbs_eq_natAbs_iff.mp h with heq | heq
    · exact ⟨1, ha, hb, .inl rfl, by simp only; omega⟩
    · exact ⟨-1, ha, hb, .inr rfl, by simp only; omega⟩
  have hcell {n : ℤ} (hn : a.x ≤ n ∧ n ≤ b.x) :
      (⟨false, a, b⟩ : Segment).cellAt α n = ⟨n, a.y + k * (n - a.x)⟩ :=
    congrArg (Cell.mk n) (hα hdiagonal hn.1 hn.2)
  obtain ⟨-, -, hk, hrise⟩ := hdiagonal
  have hon (n y : ℤ) : OnDiagonal a b ⟨n, y⟩ ↔
      (a.x ≤ n ∧ n ≤ b.x) ∧ y = a.y + k * (n - a.x) := by
    simp only [OnDiagonal] at hrise ⊢
    rcases hk with rfl | rfl <;> omega
  rw [between_of_le h.ge hle, cells, List.mem_map, hon c.x c.y]
  simp only [mem_steps]
  constructor
  · rintro ⟨n, hn, rfl⟩
    rw [hcell hn]
    exact ⟨hn, rfl⟩
  · rintro ⟨hn, hy⟩
    exact ⟨c.x, hn, (hcell hn).trans (by rw [← hy])⟩

theorem mem_cells_transpose {α : Type} [Scalar α] (hα : KeepsDiagonals α) {a b : Cell}
    (ha : a.InRange) (hb : b.InRange) (c : Cell) :
    c.transpose ∈ (between a.transpose b.transpose).cells α ↔ c ∈ (between a b).cells α := by
  by_cases h : (a.x - b.x).natAbs = (a.y - b.y).natAbs
  · rw [mem_cells_iff_onDiagonal hα ha hb h,
      mem_cells_iff_onDiagonal hα ha.transpose hb.transpose h.symm]
    exact ⟨fun hon => hon.transpose h.symm, fun hon => hon.transpose h⟩
  · rw [between_transpose h, cells_flipped]
    exact List.mem_map_of_injective Cell.transpose_injective

end DepthRaster.Raster.Segment

namespace DepthRaster.Image

open Numeric (Scalar)
open DepthRaster.Geometry (Cell)
open Color (Rgb)
open Raster Raster.Segment

theorem drawSegmentIn_transposed {α : Type} [Scalar α] (hα : KeepsDiagonals α) (image : Image)
    {a b : Cell} (ha : a.InRange) (hb : b.InRange) (color : Rgb) :
    image.transposed.drawSegmentIn α a.transpose b.transpose color =
      (image.drawSegmentIn α a b color).transposed := by
  rw [drawSegmentIn_eq, drawSegmentIn_eq, transposed, transposed]
  obtain ⟨hw, hh, -⟩ := image.shape_setCells ((between a b).cells α) color
  rw [hw, hh]
  refine setCells_gather (fun x hx y hy => ?_) (fun x _ y _ => ?_) color
  · exact has_of_lt hy hx
  · exact mem_cells_transpose hα ha hb ⟨y, x⟩

/-- A segment is drawn the same from either end. On the transpose of an image the segment between
the exchanged positions comes to the transpose of what is drawn, the other coordinate being computed
exactly or in doubles. -/
theorem drawSegment_symmetric (image : Image) {a b : Cell} (ha : a.InRange) (hb : b.InRange)
    (color : Rgb) :
    image.drawSegment b a color = image.drawSegment a b color ∧
      image.transposed.drawSegmentIn ℚ a.transpose b.transpose color =
        (image.drawSegmentIn ℚ a b color).transposed ∧
      image.transposed.drawSegment a.transpose b.transpose color =
        (image.drawSegment a b color).transposed := by
  refine ⟨?_, drawSegmentIn_transposed keepsDiagonals_rat image ha hb color,
    drawSegmentIn_transposed keepsDiagonals_float image ha hb color⟩
  rw [drawSegment, drawSegment, between_comm]

/-- A diagonal that goes down from the upper left, out of an image that is not square. -/
theorem drawSegment_symmetric_of_diagonal :
    let image := blank 3 2 .rgb
    image.drawSegment ⟨3, -2⟩ ⟨-1, 2⟩ .white = image.drawSegment ⟨-1, 2⟩ ⟨3, -2⟩ .white ∧
      image.transposed.drawSegmentIn ℚ ⟨2, -1⟩ ⟨-2, 3⟩ .white =
        (image.drawSegmentIn ℚ ⟨-1, 2⟩ ⟨3, -2⟩ .white).transposed ∧
      (image.transposed.drawSegment ⟨2, -1⟩ ⟨-2, 3⟩ .white).getPixel 1 0 =
        some [255, 255, 255] := by
  have hfirst : (⟨-1, 2⟩ : Cell).InRange := by unfold Cell.InRange; decide
  have hlast : (⟨3, -2⟩ : Cell).InRange := by unfold Cell.InRange; decide
  obtain ⟨hends, hexact, hdoubles⟩ := drawSegment_symmetric (blank 3 2 .rgb) hfirst hlast .white
  refine ⟨hends, hexact, ?_⟩
  have hin : (blank 3 2 .rgb).Has 0 1 := by simp [Has, blank]
  rw [show (⟨2, -1⟩ : Cell) = Cell.transpose ⟨-1, 2⟩ from rfl,
    show (⟨-2, 3⟩ : Cell) = Cell.transpose ⟨3, -2⟩ from rfl, hdoubles, getPixel_transposed,
    getPixel_drawSegment rfl hin, if_pos (by decide +kernel)]
  rfl

end DepthRaster.Image
