import DepthRaster.Geometry.Projection
import DepthRaster.Proofs.Geometry.Plane
import DepthRaster.Proofs.Geometry.Weights
import DepthRaster.Proofs.Numeric.Nearest
/-!
# Perspective division over the rationals

A perspective divides a point by a number that falls as the point comes nearer, and has an image of
the point as long as that number exceeds a small bound. In exact arithmetic nearer points have
nearer images. The number is affine in the point, so the image of a triangle is a triangle, and
where its corners are not seen on one line its depth is affine in the plane of the picture.
-/

namespace DepthRaster.Geometry

open Numeric

/-! ## Images -/

/-- What a perspective divides a point by. -/
def divisor (focalDistance : ℚ) (p : Point ℚ) : ℚ := 1 - p.z / focalDistance

/-- The distance from one to the next double. -/
def leastDivisor : ℚ := 1 / 2 ^ 52

theorem leastDivisor_pos : 0 < leastDivisor := by norm_num [leastDivisor]

section

variable {c : ℚ} {p q : Point ℚ}

theorem divide_perspective (c : ℚ) (p : Point ℚ) :
    (Projection.perspective c).divide p =
      if leastDivisor < divisor c p then
        .ok ⟨p.x / divisor c p, p.y / divisor c p, p.z / divisor c p⟩
      else .error ⟨p, c⟩ := by
  have hbound : (Scalar.ofInt 1 : ℚ) / Scalar.ofInt (1 <<< 52) = leastDivisor := by
    change ((1 : ℤ) : ℚ) / ((4503599627370496 : ℤ) : ℚ) = leastDivisor
    norm_num [leastDivisor]
  change (if (true && !decide (divisor c p ≤ Scalar.ofInt 1 / Scalar.ofInt (1 <<< 52))) = true then
    Except.ok _ else Except.error _) = _
  rw [hbound]
  simp only [Bool.true_and, Bool.not_eq_true', decide_eq_false_iff_not, not_le]
  rfl

theorem divide_perspective_eq_ok :
    (Projection.perspective c).divide p = .ok q ↔
      leastDivisor < divisor c p ∧
        q = ⟨p.x / divisor c p, p.y / divisor c p, p.z / divisor c p⟩ := by
  rw [divide_perspective]
  split_ifs with h
  · simp only [Except.ok.injEq, h, true_and, eq_comm]
  · simp only [h, false_and]

theorem exists_divide_perspective_iff :
    (∃ q, (Projection.perspective c).divide p = .ok q) ↔ leastDivisor < divisor c p := by
  simp only [divide_perspective_eq_ok, exists_and_left, exists_eq, and_true]

theorem divisor_anti (hc : 0 < c) (hz : p.z ≤ q.z) : divisor c q ≤ divisor c p :=
  sub_le_sub_left (div_le_div_of_nonneg_right hz hc.le) 1

theorem div_divisor_mono (hc : 0 < c) (hz : p.z ≤ q.z) (hq : 0 < divisor c q) :
    p.z / divisor c p ≤ q.z / divisor c q := by
  rw [div_le_div_iff₀ (hq.trans_le (divisor_anti hc hz)) hq]
  calc p.z * divisor c q = p.z - p.z * q.z / c := by rw [divisor]; ring
    _ ≤ q.z - p.z * q.z / c := sub_le_sub_right hz _
    _ = q.z * divisor c p := by rw [divisor]; ring

end

/-! ## Depths -/

theorem toNat_depth_place {α : Type} [Scalar α] (viewport : Viewport) (p : Point α) {level : ℤ}
    (hlevel : level = Scalar.roundWithin 0 viewport.depthLevels.toNat
      (Viewport.scale viewport.depthLevels.toNat p.z))
    (hrange : 0 ≤ level ∧ level ≤ viewport.depthLevels.toNat) :
    ((viewport.place p).depth.toNat : ℤ) = level := by
  have hlevels := viewport.depthLevels.toNat_lt
  rw [Viewport.place, UInt8.toNat_ofNat', ← hlevel]
  omega

theorem toNat_depth_place_rat (viewport : Viewport) (p : Point ℚ) :
    ((viewport.place p).depth.toNat : ℤ) =
      Scalar.roundWithin 0 viewport.depthLevels.toNat
        (Viewport.scale viewport.depthLevels.toNat p.z) :=
  toNat_depth_place viewport p rfl (roundWithin_rat_mem (Int.natCast_nonneg _) _)

theorem depth_place_rat_le (viewport : Viewport) (p : Point ℚ) :
    (viewport.place p).depth ≤ viewport.depthLevels := by
  have hdepth := toNat_depth_place_rat viewport p
  have hle := (roundWithin_rat_mem (Int.natCast_nonneg viewport.depthLevels.toNat)
    (Viewport.scale viewport.depthLevels.toNat p.z)).2
  rw [UInt8.le_iff_toNat_le]
  omega

theorem scale_mono {extent : ℤ} (hextent : 0 ≤ extent) {t u : ℚ} (h : t ≤ u) :
    Viewport.scale extent t ≤ Viewport.scale extent u := by
  have hnonneg : (0 : ℚ) ≤ extent := by exact_mod_cast hextent
  change (t + (1 : ℤ)) * (extent : ℚ) / (2 : ℤ) ≤ (u + (1 : ℤ)) * (extent : ℚ) / (2 : ℤ)
  gcongr

theorem depth_place_mono (viewport : Viewport) {p q : Point ℚ} (h : p.z ≤ q.z) :
    (viewport.place p).depth ≤ (viewport.place q).depth := by
  have hround := roundWithin_mono 0 viewport.depthLevels.toNat
    (scale_mono (Int.natCast_nonneg viewport.depthLevels.toNat) h)
  rw [← toNat_depth_place_rat, ← toNat_depth_place_rat] at hround
  rw [UInt8.le_iff_toNat_le]
  exact_mod_cast hround

/-- Whether the focal plane of a projection, if it has one, is in front of the origin. -/
def Projection.LooksForward : Projection ℚ → Prop
  | .perspective focalDistance => 0 < focalDistance
  | .orthographic => True

/-- A projection that looks forward has an image of every point that is no nearer than another one
with an image, and the depth of the image is no nearer either. -/
theorem Projection.LooksForward.exists_divide_le {projection : Projection ℚ}
    (h : projection.LooksForward) {p q q' : Point ℚ} (hdivide : projection.divide q = .ok q')
    (hz : p.z ≤ q.z) : ∃ p', projection.divide p = .ok p' ∧ p'.z ≤ q'.z := by
  cases projection with
  | orthographic =>
      obtain rfl : q = q' := Except.ok.inj hdivide
      exact ⟨p, rfl, hz⟩
  | perspective c =>
      obtain ⟨hq, rfl⟩ := divide_perspective_eq_ok.mp hdivide
      have hp : leastDivisor < divisor c p := hq.trans_le (divisor_anti h hz)
      exact ⟨_, divide_perspective_eq_ok.mpr ⟨hp, rfl⟩,
        div_divisor_mono h hz (leastDivisor_pos.trans hq)⟩

/-- In exact arithmetic the nearer of two points never gets the smaller depth, wherever the points
are seen: if the nearer has an image then so has the other, with a depth that is not greater.
All depths are levels of the viewport. A perspective has an image of just the points it divides by
more than the distance from one to the next double. -/
theorem depth_place_divide_mono {projection : Projection ℚ} (h : projection.LooksForward)
    (viewport : Viewport) :
    (∀ p q q', projection.divide q = .ok q' → p.z ≤ q.z →
        ∃ p', projection.divide p = .ok p' ∧
          (viewport.place p').depth ≤ (viewport.place q').depth ∧
          (viewport.place q').depth ≤ viewport.depthLevels) ∧
      ∀ c, projection = .perspective c →
        ∀ p, (∃ p', projection.divide p = .ok p') ↔ 1 / 2 ^ 52 < 1 - p.z / c := by
  constructor
  · intro p q q' hdivide hz
    obtain ⟨p', hp', hle⟩ := h.exists_divide_le hdivide hz
    exact ⟨p', hp', depth_place_mono viewport hle, depth_place_rat_le viewport q'⟩
  · rintro c rfl p
    exact exists_divide_perspective_iff

/-- A point behind the origin and one that is nearly in the focal plane. -/
theorem depth_place_divide_mono_of_near :
    let projection : Projection ℚ := .perspective 3
    ∃ p', projection.divide ⟨5, -7, -4⟩ = .ok p' ∧
      (Viewport.place ⟨64, 64, 255⟩ p').depth ≤
        (Viewport.place ⟨64, 64, 255⟩ (⟨-3000, 6000, 8997⟩ : Point ℚ)).depth ∧
      ¬ ∃ p', projection.divide ⟨0, 0, 3⟩ = .ok p' := by
  intro projection
  have hforward : projection.LooksForward := three_pos
  obtain ⟨hmono, haccepts⟩ := depth_place_divide_mono hforward ⟨64, 64, 255⟩
  have himage : projection.divide ⟨-1, 2, 3 - 1 / 1000⟩ = .ok ⟨-3000, 6000, 8997⟩ :=
    divide_perspective_eq_ok.mpr (by norm_num [divisor, leastDivisor])
  obtain ⟨p', hp', hle, -⟩ := hmono ⟨5, -7, -4⟩ _ _ himage (by norm_num)
  exact ⟨p', hp', hle, by rw [haccepts 3 rfl]; norm_num⟩

/-! ## Triangles -/

namespace Weights

structure Convex (w : Weights ℚ) : Prop where
  first : 0 ≤ w.first
  second : 0 ≤ w.second
  third : 0 ≤ w.third
  total : w.first + w.second + w.third = 1

def blend (w : Weights ℚ) (a b d : Point ℚ) : Point ℚ :=
  ⟨w.interpolate a.x b.x d.x, w.interpolate a.y b.y d.y, w.interpolate a.z b.z d.z⟩

/-- The weights that the images of three points have in the image of their mean. -/
def divided (w : Weights ℚ) (focalDistance : ℚ) (a b d : Point ℚ) : Weights ℚ where
  first := w.first * divisor focalDistance a / divisor focalDistance (w.blend a b d)
  second := w.second * divisor focalDistance b / divisor focalDistance (w.blend a b d)
  third := w.third * divisor focalDistance d / divisor focalDistance (w.blend a b d)

variable {w : Weights ℚ} {c : ℚ} {a b d : Point ℚ}

theorem Convex.divisor_blend (h : w.Convex) (c : ℚ) (a b d : Point ℚ) :
    divisor c (w.blend a b d) =
      w.first * divisor c a + w.second * divisor c b + w.third * divisor c d := by
  simp only [divisor, blend, interpolate]
  linear_combination -h.total

/-- What exceeds a bound at the corners does so in between. -/
theorem Convex.lt_divisor_blend (h : w.Convex) {low : ℚ} (ha : low < divisor c a)
    (hb : low < divisor c b) (hd : low < divisor c d) : low < divisor c (w.blend a b d) := by
  have hblend : w.first * divisor c a + w.second * divisor c b + w.third * divisor c d =
      (w.first + w.second + w.third) * divisor c (w.blend a b d) := by
    rw [h.total, one_mul, h.divisor_blend]
  exact (lt_min (lt_min ha hb) hd).trans_le
    (between_of_weighted h.first h.second h.third (h.total ▸ one_pos) hblend).1

theorem Convex.divided (h : w.Convex) (ha : 0 < divisor c a) (hb : 0 < divisor c b)
    (hd : 0 < divisor c d) : (w.divided c a b d).Convex := by
  have hwhole := h.lt_divisor_blend ha hb hd
  constructor
  · exact div_nonneg (mul_nonneg h.first ha.le) hwhole.le
  · exact div_nonneg (mul_nonneg h.second hb.le) hwhole.le
  · exact div_nonneg (mul_nonneg h.third hd.le) hwhole.le
  · simp only [Weights.divided]
    rw [← add_div, ← add_div, ← h.divisor_blend, div_self hwhole.ne']

/-- Dividing a mean is taking the mean of the quotients with other weights. -/
theorem interpolate_div (ha : divisor c a ≠ 0) (hb : divisor c b ≠ 0) (hd : divisor c d ≠ 0)
    (i j k : ℚ) :
    w.interpolate i j k / divisor c (w.blend a b d) =
      (w.divided c a b d).interpolate (i / divisor c a) (j / divisor c b) (k / divisor c d) := by
  simp only [interpolate, Weights.divided]
  field_simp

end Weights

def Point.toPlane (p : Point ℚ) : ℚ × ℚ := (p.x, p.y)

section

variable {c : ℚ} {a b d a' b' d' : Point ℚ}
  (ha : (Projection.perspective c).divide a = .ok a')
  (hb : (Projection.perspective c).divide b = .ok b')
  (hd : (Projection.perspective c).divide d = .ok d')

include ha hb hd

theorem divide_blend {w : Weights ℚ} (h : w.Convex) :
    (w.divided c a b d).Convex ∧
      (Projection.perspective c).divide (w.blend a b d) =
        .ok ((w.divided c a b d).blend a' b' d') := by
  obtain ⟨ha_lt, rfl⟩ := divide_perspective_eq_ok.mp ha
  obtain ⟨hb_lt, rfl⟩ := divide_perspective_eq_ok.mp hb
  obtain ⟨hd_lt, rfl⟩ := divide_perspective_eq_ok.mp hd
  have ha_pos := leastDivisor_pos.trans ha_lt
  have hb_pos := leastDivisor_pos.trans hb_lt
  have hd_pos := leastDivisor_pos.trans hd_lt
  have hdiv (i j k : ℚ) := Weights.interpolate_div (w := w) ha_pos.ne' hb_pos.ne' hd_pos.ne' i j k
  refine ⟨h.divided ha_pos hb_pos hd_pos,
    divide_perspective_eq_ok.mpr ⟨h.lt_divisor_blend ha_lt hb_lt hd_lt, ?_⟩⟩
  simp only [Weights.blend, ← hdiv]

/-- The image of a point of a triangle is as deep as interpolation between the images of the corners
says. -/
theorem depth_of_divide_blend {w : Weights ℚ} (h : w.Convex) {p' : Point ℚ}
    (hp : (Projection.perspective c).divide (w.blend a b d) = .ok p')
    (hturn : planeTurn a'.toPlane b'.toPlane d'.toPlane ≠ 0) :
    p'.z =
      (planeWeights p'.toPlane a'.toPlane b'.toPlane d'.toPlane).interpolate a'.z b'.z d'.z := by
  obtain ⟨hconvex, hblend⟩ := divide_blend ha hb hd h
  obtain rfl := Except.ok.inj (hblend.symm.trans hp)
  have haverages : (w.divided c a b d).Averages a'.toPlane b'.toPlane d'.toPlane
      ((w.divided c a b d).blend a' b' d').toPlane := ⟨hconvex.total, rfl⟩
  rw [← haverages.eq_planeWeights hturn]
  rfl

/-- A perspective takes triangles to triangles, in exact arithmetic. A mean of three points that
have images has an image too, the mean of the images; the weight of each is multiplied by what the
point is divided by, as a share of what the mean is divided by. If the images are not seen on one
line then over the whole triangle the depth of the image is an affine function of the place where it
is seen: the depths of the corners interpolated with the barycentric weights of that place. -/
theorem divide_triangle :
    (∀ w : Weights ℚ, w.Convex →
        (w.divided c a b d).Convex ∧
          (Projection.perspective c).divide (w.blend a b d) =
            .ok ((w.divided c a b d).blend a' b' d')) ∧
      (¬ Collinear ℚ {a'.toPlane, b'.toPlane, d'.toPlane} →
        ∃ depth : ℚ × ℚ →ᵃ[ℚ] ℚ,
          (∀ v, depth v =
            (planeWeights v a'.toPlane b'.toPlane d'.toPlane).interpolate a'.z b'.z d'.z) ∧
          ∀ w : Weights ℚ, w.Convex → ∀ p',
            (Projection.perspective c).divide (w.blend a b d) = .ok p' →
              p'.z = depth p'.toPlane) := by
  refine ⟨fun w hw => divide_blend ha hb hd hw, fun hline => ?_⟩
  rw [collinear_iff_planeTurn_eq_zero] at hline
  refine ⟨interpolation a'.toPlane b'.toPlane d'.toPlane a'.z b'.z d'.z,
    fun v => interpolation_apply _ _ _ _ _ _ _, fun w hw p' hp => ?_⟩
  rw [interpolation_apply]
  exact depth_of_divide_blend ha hb hd hw hp hline

end

/-- A triangle with corners on both sides of the origin. -/
theorem divide_triangle_of_slanted :
    let projection : Projection ℚ := .perspective 3
    let a' : Point ℚ := ⟨0, 0, 0⟩
    let b' : Point ℚ := ⟨3 / 2, 0, 3 / 2⟩
    let d' : Point ℚ := ⟨0, 3 / 4, -3 / 4⟩
    (projection.divide ⟨0, 0, 0⟩ = .ok a' ∧ projection.divide ⟨1, 0, 1⟩ = .ok b' ∧
        projection.divide ⟨0, 1, -1⟩ = .ok d') ∧
      projection.divide ⟨1 / 4, 1 / 4, 0⟩ =
        .ok (Weights.blend ⟨1 / 2, 1 / 6, 1 / 3⟩ a' b' d') ∧
      ∃ depth : ℚ × ℚ →ᵃ[ℚ] ℚ, depth (3 / 2, 0) = 3 / 2 ∧ depth (1 / 4, 1 / 4) = 0 := by
  intro projection a' b' d'
  have ha : projection.divide ⟨0, 0, 0⟩ = .ok a' :=
    divide_perspective_eq_ok.mpr (by norm_num [divisor, leastDivisor, a'])
  have hb : projection.divide ⟨1, 0, 1⟩ = .ok b' :=
    divide_perspective_eq_ok.mpr (by norm_num [divisor, leastDivisor, b'])
  have hd : projection.divide ⟨0, 1, -1⟩ = .ok d' :=
    divide_perspective_eq_ok.mpr (by norm_num [divisor, leastDivisor, d'])
  obtain ⟨hmean, hdepth⟩ := divide_triangle ha hb hd
  have hconvex : Weights.Convex ⟨1 / 2, 1 / 4, 1 / 4⟩ := by constructor <;> norm_num
  have hblend : Weights.blend ⟨1 / 2, 1 / 4, 1 / 4⟩ ⟨0, 0, 0⟩ ⟨1, 0, 1⟩ ⟨0, 1, -1⟩ =
      ⟨1 / 4, 1 / 4, 0⟩ := by
    norm_num [Weights.blend, Weights.interpolate]
  have hweights : Weights.divided ⟨1 / 2, 1 / 4, 1 / 4⟩ 3 ⟨0, 0, 0⟩ ⟨1, 0, 1⟩ ⟨0, 1, -1⟩ =
      ⟨1 / 2, 1 / 6, 1 / 3⟩ := by
    norm_num [Weights.divided, divisor, hblend]
  have himage := (hmean _ hconvex).2
  rw [hblend, hweights] at himage
  have hmiddle : Weights.blend ⟨1 / 2, 1 / 6, 1 / 3⟩ a' b' d' = ⟨1 / 4, 1 / 4, 0⟩ := by
    norm_num [Weights.blend, Weights.interpolate, a', b', d']
  obtain ⟨depth, hcorners, hinside⟩ := hdepth
    (by rw [collinear_iff_planeTurn_eq_zero]; norm_num [planeTurn, Point.toPlane, a', b', d'])
  refine ⟨⟨ha, hb, hd⟩, himage, depth, ?_, ?_⟩
  · rw [hcorners]
    norm_num [planeWeights, planeTurn, Point.toPlane, Weights.interpolate, a', b', d']
  · exact (hinside _ hconvex ⟨1 / 4, 1 / 4, 0⟩ (by rw [hblend, himage, hmiddle])).symm

end DepthRaster.Geometry
