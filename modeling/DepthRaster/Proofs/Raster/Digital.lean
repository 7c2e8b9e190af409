import DepthRaster.Proofs.Geometry.Weights
import DepthRaster.Proofs.Raster.Symmetry
/-!
# Lines without gaps

In exact arithmetic a segment has one cell for each step along its longer axis. Each cell is the
nearest to the straight line, which rises by at most one from a step to the next, so cells that
follow each other touch.
-/

namespace DepthRaster.Raster

open Numeric
open DepthRaster.Geometry

/-! ## Steps -/

namespace Segment

theorem nodup_steps (first last : ℤ) : (steps first last).Nodup :=
  List.nodup_range.map fun _ _ h => Int.ofNat_inj.mp (Int.add_left_cancel h)

theorem length_steps (first last : ℤ) : (steps first last).length = (last + 1 - first).toNat := by
  rw [steps, List.length_map, List.length_range]

theorem isChain_steps {R : ℤ → ℤ → Prop} {first last : ℤ}
    (h : ∀ n, first ≤ n → n + 1 ≤ last → R n (n + 1)) : (steps first last).IsChain R := by
  rw [steps, List.isChain_map]
  cases hlength : (last + 1 - first).toNat with
  | zero => exact .nil
  | succ k =>
      refine (List.isChain_range_succ _ k).mpr fun i hi => ?_
      have hstep := h (first + i) (by omega) (by omega)
      rwa [add_assoc] at hstep

end Segment

/-! ## Digital lines -/

/-- Whether cells make a line between two of them that is stepped along its columns: it has one
cell in each column, cells that follow each other touch, and each is within a half of the straight
line. -/
structure Digital (a b : Cell) (line : List Cell) : Prop where
  columns : line.map Cell.x = Segment.steps (min a.x b.x) (max a.x b.x)
  first_mem : a ∈ line
  last_mem : b ∈ line
  touching : line.IsChain fun c d => d.x = c.x + 1 ∧ |d.y - c.y| ≤ 1
  near : ∀ c ∈ line, ∃ y : ℚ, ((c.x : ℚ), y) ∈ segment ℚ a.toPlane b.toPlane ∧
    |(c.y : ℚ) - y| ≤ 1 / 2

namespace Digital

variable {a b : Cell} {line : List Cell}

theorem symm (h : Digital a b line) : Digital b a line where
  columns := by rw [h.columns, min_comm, max_comm]
  first_mem := h.last_mem
  last_mem := h.first_mem
  touching := h.touching
  near := by simpa only [segment_symm ℚ b.toPlane] using h.near

theorem nodup (h : Digital a b line) : line.Nodup :=
  .of_map Cell.x (h.columns ▸ Segment.nodup_steps _ _)

theorem length_eq (h : Digital a b line) : line.length = (a.x - b.x).natAbs + 1 := by
  rw [← List.length_map (f := Cell.x), h.columns, Segment.length_steps]
  omega

theorem between (h : Digital a b line) {c : Cell} (hc : c ∈ line) :
    (min a.x b.x ≤ c.x ∧ c.x ≤ max a.x b.x) ∧ (min a.y b.y ≤ c.y ∧ c.y ≤ max a.y b.y) := by
  refine ⟨Segment.mem_steps.mp (h.columns ▸ List.mem_map_of_mem hc), ?_⟩
  obtain ⟨y, ⟨u, v, hu, hv, htotal, hmean⟩, hnear⟩ := h.near c hc
  have hy : u • (a.y : ℚ) + v • (b.y : ℚ) = y := congrArg Prod.snd hmean
  have hlow : ((min a.y b.y : ℤ) : ℚ) ≤ y := by
    rw [Int.cast_min, ← hy]
    exact Convex.min_le_combo _ _ hu hv htotal
  have hhigh : y ≤ ((max a.y b.y : ℤ) : ℚ) := by
    rw [Int.cast_max, ← hy]
    exact Convex.combo_le_max _ _ hu hv htotal
  obtain ⟨hbelow, habove⟩ := abs_le.mp hnear
  generalize min a.y b.y = low at hlow ⊢
  generalize max a.y b.y = high at hhigh ⊢
  have hlow_lt : (low : ℚ) < (c.y + 1 : ℤ) := by push_cast; linarith
  have hlt_high : (c.y : ℚ) < (high + 1 : ℤ) := by push_cast; linarith
  exact ⟨Int.lt_add_one_iff.mp (by exact_mod_cast hlow_lt),
    Int.lt_add_one_iff.mp (by exact_mod_cast hlt_high)⟩

end Digital

/-! ## The cells of a segment -/

namespace Segment

def lineAt (s : Segment) (x : ℤ) : ℚ :=
  s.start.y + (s.finish.y - s.start.y) * ((x - s.start.x) / (s.finish.x - s.start.x))

/-- Whether a segment is laid along the axis that is longer or as long as the other one. -/
structure Flat (s : Segment) : Prop where
  start_inRange : s.start.InRange
  finish_inRange : s.finish.InRange
  forward : s.start.x ≤ s.finish.x
  slope : (s.finish.y - s.start.y).natAbs ≤ (s.finish.x - s.start.x).natAbs

section

variable {s : Segment} {x : ℤ}

theorem lineAt_mem_segment (hx : s.start.x ≤ x) (hx' : x ≤ s.finish.x) :
    ((x : ℚ), s.lineAt x) ∈ segment ℚ s.start.toPlane s.finish.toPlane := by
  have hpart : (0 : ℚ) ≤ x - s.start.x := sub_nonneg.mpr (by exact_mod_cast hx)
  have hle : (x - s.start.x : ℚ) ≤ s.finish.x - s.start.x :=
    sub_le_sub_right (by exact_mod_cast hx') _
  have hspan : (0 : ℚ) ≤ s.finish.x - s.start.x := hpart.trans hle
  have hcolumn : (x - s.start.x) / (s.finish.x - s.start.x) * (s.finish.x - s.start.x) =
      (x - s.start.x : ℚ) :=
    div_mul_cancel_of_imp fun hzero => le_antisymm (hzero ▸ hle) hpart
  refine ⟨1 - (x - s.start.x) / (s.finish.x - s.start.x),
    (x - s.start.x) / (s.finish.x - s.start.x), sub_nonneg.mpr (div_le_one_of_le₀ hle hspan),
    div_nonneg hpart hspan, sub_add_cancel _ _, Prod.ext ?_ ?_⟩
  · change (1 - _) * (s.start.x : ℚ) + _ * (s.finish.x : ℚ) = x
    linear_combination hcolumn
  · change (1 - _) * (s.start.y : ℚ) + _ * (s.finish.y : ℚ) = s.lineAt x
    rw [lineAt]
    ring

theorem lineAt_start : s.lineAt s.start.x = s.start.y := by
  rw [lineAt, sub_self, zero_div, mul_zero, add_zero]

theorem Flat.lineAt_finish (h : s.Flat) : s.lineAt s.finish.x = s.finish.y := by
  obtain ⟨-, -, hforward, hslope⟩ := h
  rw [lineAt]
  rcases hforward.lt_or_eq with hlt | heq
  · have hspan : (s.finish.x - s.start.x : ℚ) ≠ 0 := sub_ne_zero.mpr (by exact_mod_cast hlt.ne')
    rw [div_self hspan, mul_one, add_sub_cancel]
  · have hrise : s.finish.y = s.start.y := by omega
    rw [hrise, sub_self, zero_mul, add_zero]

/-- What is computed at a step is the straight line, rounded. Nothing is cut off. -/
theorem Flat.across_eq_round (h : s.Flat) (hx : s.start.x ≤ x) (hx' : x ≤ s.finish.x) :
    s.across ℚ x = roundRational (s.lineAt x) := by
  have hvalue : (Scalar.ofInt s.start.y + Scalar.ofInt (s.finish.y - s.start.y) *
      share ℚ (s.finish.x - s.start.x) (x - s.start.x) : ℚ) = s.lineAt x := by
    rw [share_rat (sub_nonneg.mpr h.forward), lineAt]
    simp only [← Int.cast_sub]
    rfl
  obtain ⟨u, v, hu, hv, htotal, hmean⟩ := lineAt_mem_segment hx hx'
  have hline : u • (s.start.y : ℚ) + v • (s.finish.y : ℚ) = s.lineAt x := congrArg Prod.snd hmean
  obtain ⟨-, hstart, hstart'⟩ := h.start_inRange
  obtain ⟨-, hfinish, hfinish'⟩ := h.finish_inRange
  rw [across_eq, hvalue, ← hline]
  refine roundWithin_eq ?_ ?_
  · exact (le_min (by exact_mod_cast hstart) (by exact_mod_cast hfinish)).trans
      (Convex.min_le_combo _ _ hu hv htotal)
  · exact (Convex.combo_le_max _ _ hu hv htotal).trans
      (max_le (by exact_mod_cast hstart') (by exact_mod_cast hfinish'))

theorem Flat.across_start (h : s.Flat) : s.across ℚ s.start.x = s.start.y := by
  rw [h.across_eq_round le_rfl h.forward, lineAt_start, roundRational_intCast]

theorem Flat.across_finish (h : s.Flat) : s.across ℚ s.finish.x = s.finish.y := by
  rw [h.across_eq_round h.forward le_rfl, h.lineAt_finish, roundRational_intCast]

/-- Off the diagonals the straight line rises by less than one in a step. -/
theorem abs_lineAt_sub_lt_one
    (hslope : (s.finish.y - s.start.y).natAbs < (s.finish.x - s.start.x).natAbs)
    (hforward : s.start.x ≤ s.finish.x) (x : ℤ) : |s.lineAt (x + 1) - s.lineAt x| < 1 := by
  have hspan : (0 : ℚ) < (s.finish.x - s.start.x : ℤ) := by
    exact_mod_cast (by omega : 0 < s.finish.x - s.start.x)
  have hrise : |((s.finish.y - s.start.y : ℤ) : ℚ)| < (s.finish.x - s.start.x : ℤ) := by
    have hlt : |s.finish.y - s.start.y| < s.finish.x - s.start.x := by
      rw [Int.abs_eq_natAbs]
      omega
    rw [← Int.cast_abs]
    exact_mod_cast hlt
  have hstep : s.lineAt (x + 1) - s.lineAt x =
      (s.finish.y - s.start.y : ℤ) / (s.finish.x - s.start.x : ℤ) := by
    rw [lineAt, lineAt]
    push_cast
    ring
  rw [hstep, abs_div, abs_of_pos hspan, div_lt_one hspan]
  exact hrise

theorem Flat.abs_across_sub_le (h : s.Flat) (hx : s.start.x ≤ x) (hx' : x + 1 ≤ s.finish.x) :
    |s.across ℚ (x + 1) - s.across ℚ x| ≤ 1 := by
  rcases h.slope.lt_or_eq with hslope | hslope
  · rw [h.across_eq_round (by omega) hx', h.across_eq_round hx (by omega)]
    exact abs_roundRational_sub_roundRational_le (abs_lineAt_sub_lt_one hslope h.forward x)
  · -- Numbers one apart can be rounded to numbers two apart, as -1/2 and 1/2 are, but the rows of a
    -- diagonal are whole.
    obtain ⟨k, hk, hrise⟩ : ∃ k : ℤ, (k = 1 ∨ k = -1) ∧
        s.finish.y - s.start.y = k * (s.finish.x - s.start.x) := by
      rcases Int.natAbs_eq_natAbs_iff.mp hslope with heq | heq
      · exact ⟨1, .inl rfl, by omega⟩
      · exact ⟨-1, .inr rfl, by omega⟩
    have hdiagonal : s.Diagonal k := ⟨h.start_inRange, h.finish_inRange, hk, hrise⟩
    rw [keepsDiagonals_rat hdiagonal (by omega) hx', keepsDiagonals_rat hdiagonal hx (by omega),
      abs_le]
    rcases hk with rfl | rfl <;> omega

end

variable {a b : Cell}

/-- A segment that is laid along the columns goes through the cells of a digital line. -/
theorem Flat.digital (h : (⟨false, a, b⟩ : Segment).Flat) :
    Digital a b ((⟨false, a, b⟩ : Segment).cells ℚ) := by
  have hle : a.x ≤ b.x := h.forward
  have hcolumns : ((⟨false, a, b⟩ : Segment).cells ℚ).map Cell.x = steps a.x b.x := by
    rw [cells, List.map_map]
    exact List.map_id _
  constructor
  · rw [hcolumns, min_eq_left hle, max_eq_right hle]
  · exact List.mem_map.mpr
      ⟨a.x, mem_steps.mpr ⟨le_rfl, hle⟩, congrArg (Cell.mk a.x) h.across_start⟩
  · exact List.mem_map.mpr
      ⟨b.x, mem_steps.mpr ⟨hle, le_rfl⟩, congrArg (Cell.mk b.x) h.across_finish⟩
  · rw [cells, List.isChain_map]
    exact isChain_steps fun n hn hn' => ⟨rfl, h.abs_across_sub_le hn hn'⟩
  · intro c hc
    obtain ⟨n, hn, rfl⟩ := List.mem_map.mp hc
    obtain ⟨hfirst, hlast⟩ := mem_steps.mp hn
    refine ⟨_, lineAt_mem_segment hfirst hlast, ?_⟩
    change |((⟨false, a, b⟩ : Segment).across ℚ n : ℚ) - _| ≤ _
    rw [h.across_eq_round hfirst hlast]
    exact abs_roundRational_sub_le _

theorem digital_of_flat (ha : a.InRange) (hb : b.InRange)
    (hflat : (a.y - b.y).natAbs ≤ (a.x - b.x).natAbs) : Digital a b ((between a b).cells ℚ) := by
  wlog hle : a.x ≤ b.x generalizing a b
  · rw [between_comm]
    exact (this hb ha (by omega) (by omega)).symm
  rw [between_of_le hflat hle]
  exact Flat.digital ⟨ha, hb, hle, by simp only; omega⟩

/-- A segment that is laid along the rows goes through a digital line with columns and rows
exchanged. -/
theorem digital_of_steep (ha : a.InRange) (hb : b.InRange)
    (hsteep : (a.x - b.x).natAbs < (a.y - b.y).natAbs) :
    Digital a.transpose b.transpose (((between a b).cells ℚ).map Cell.transpose) := by
  rw [← cells_flipped, ← between_transpose hsteep.ne]
  exact digital_of_flat ha.transpose hb.transpose hsteep.le

end Segment

end DepthRaster.Raster

namespace DepthRaster.Image

open DepthRaster.Geometry (Cell)
open Color (Rgb)
open Raster Raster.Segment

/-- Between two pixels of an image a segment lights one pixel for each step along its longer axis,
when the other coordinate is computed exactly. The pixels make a line without gaps: each is in the
image, both ends are lit, pixels that follow each other touch, and none is more than a half off the
straight line. The other pixels keep their bytes. -/
theorem drawSegmentIn_digital (image : Image) {a b : Cell} (ha : a.InRange) (hb : b.InRange)
    (hin : image.Has a.x a.y) (hin' : image.Has b.x b.y) :
    let line := (Segment.between a b).cells ℚ
    (∀ color x y, image.Has x y →
        (image.drawSegmentIn ℚ a b color).getPixel x y =
          if ⟨x, y⟩ ∈ line then some (color.toList.take image.format.channels)
          else image.getPixel x y) ∧
      (∀ c ∈ line, image.Has c.x c.y) ∧ line.Nodup ∧
      line.length = max (a.x - b.x).natAbs (a.y - b.y).natAbs + 1 ∧
      ((a.y - b.y).natAbs ≤ (a.x - b.x).natAbs → Digital a b line) ∧
      ((a.x - b.x).natAbs < (a.y - b.y).natAbs →
        Digital a.transpose b.transpose (line.map Cell.transpose)) := by
  intro line
  have hdrawn (color : Rgb) (x y : ℤ) (hxy : image.Has x y) :
      (image.drawSegmentIn ℚ a b color).getPixel x y =
        if ⟨x, y⟩ ∈ line then some (color.toList.take image.format.channels)
        else image.getPixel x y := by
    rw [drawSegmentIn_eq, getPixel_setCells hxy]
  unfold Has at hin hin' ⊢
  rcases Nat.lt_or_ge (a.x - b.x).natAbs (a.y - b.y).natAbs with hsteep | hflat
  · have hdigital := digital_of_steep ha hb hsteep
    refine ⟨hdrawn, fun c hc => ?_, .of_map _ hdigital.nodup, ?_,
      fun hflat => absurd hsteep hflat.not_gt, fun _ => hdigital⟩
    · have hbetween := hdigital.between (List.mem_map_of_mem hc)
      simp only [Cell.transpose] at hbetween
      omega
    · have hlength := hdigital.length_eq
      rw [List.length_map] at hlength
      rw [max_eq_right hsteep.le]
      exact hlength
  · have hdigital := digital_of_flat ha hb hflat
    refine ⟨hdrawn, fun c hc => ?_, hdigital.nodup, ?_, fun _ => hdigital,
      fun hsteep => absurd hsteep hflat.not_gt⟩
    · have hbetween := hdigital.between hc
      omega
    · rw [max_eq_left hflat]
      exact hdigital.length_eq

/-- A steep segment on which every other step ends halfway between two columns. -/
theorem drawSegmentIn_digital_of_steep :
    let image := blank 64 64 .gray
    let line := (Segment.between ⟨17, 59⟩ ⟨44, 5⟩).cells ℚ
    (image.drawSegmentIn ℚ ⟨17, 59⟩ ⟨44, 5⟩ .white).getPixel 18 57 = some [255] ∧
      (image.drawSegmentIn ℚ ⟨17, 59⟩ ⟨44, 5⟩ .white).getPixel 17 58 = image.getPixel 17 58 ∧
      line.length = 55 ∧ Digital ⟨59, 17⟩ ⟨5, 44⟩ (line.map Cell.transpose) := by
  intro image line
  obtain ⟨hdrawn, -, -, hlength, -, hsteep⟩ := drawSegmentIn_digital (blank 64 64 .gray)
    (a := ⟨17, 59⟩) (b := ⟨44, 5⟩) (by unfold Cell.InRange; decide) (by unfold Cell.InRange; decide)
    (by unfold Has; decide) (by unfold Has; decide)
  refine ⟨?_, ?_, hlength, hsteep (by decide)⟩
  · rw [hdrawn .white 18 57 (by unfold Has; decide), if_pos (by decide +kernel)]
    rfl
  · rw [hdrawn .white 17 58 (by unfold Has; decide), if_neg (by decide +kernel)]

end DepthRaster.Image
