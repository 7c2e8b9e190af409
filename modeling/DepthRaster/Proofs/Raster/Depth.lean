import DepthRaster.Proofs.Geometry.Interpolation
import DepthRaster.Proofs.Numeric.Nearest
import DepthRaster.Proofs.Raster.Interior
/-!
# Depths of fragments

The depth of a fragment is the mean of the depths at the corners, rounded. The mean does not leave
their range, so its rounding does not either, in exact arithmetic and in double precision.
-/

namespace DepthRaster.Raster

open Numeric (IsNearly Scalar)
open DepthRaster.Geometry

/-! ## Rounded depths -/

theorem toNat_le (n : UInt8) : (n.toNat : ℤ) ≤ 255 := by
  have := n.toNat_lt
  omega

theorem toNat_min (m n : UInt8) : (min m n).toNat = min m.toNat n.toNat := by
  change (if m ≤ n then m else n).toNat = _
  split_ifs with h <;> rw [UInt8.le_iff_toNat_le] at h <;> omega

theorem toNat_max (m n : UInt8) : (max m n).toNat = max m.toNat n.toNat := by
  change (if m ≤ n then n else m).toNat = _
  split_ifs with h <;> rw [UInt8.le_iff_toNat_le] at h <;> omega

def roundDepth {α : Type} [Scalar α] (v : α) : UInt8 :=
  UInt8.ofNat (Scalar.roundWithin 0 255 v).toNat

/-- What is less than a half off a number between two depths is rounded to a depth between them. -/
theorem roundDepth_mem {m n : UInt8} {q r : ℚ} (hm : (m.toNat : ℤ) ≤ q) (hn : q ≤ (n.toNat : ℤ))
    (hnear : |r - q| < 1 / 2) : m ≤ roundDepth r ∧ roundDepth r ≤ n := by
  have hzero : (0 : ℤ) ≤ m.toNat := Int.natCast_nonneg _
  have hlast := toNat_le n
  obtain ⟨hlow, hhigh⟩ := Numeric.roundWithin_mem hzero hlast hm hn hnear
  rw [UInt8.le_iff_toNat_le, UInt8.le_iff_toNat_le, roundDepth, UInt8.toNat_ofNat']
  omega

namespace Triangle

def corners (t : Triangle) : List ScreenVertex := [t.a, t.b, t.c]

/-- Whether the depth of a fragment is in the range of the depths at the corners, and theirs where a
corner is or where they are all the same. -/
structure Interpolates {α : Type} (t : Triangle) (f : Fragment α) : Prop where
  low : min (min t.a.depth t.b.depth) t.c.depth ≤ f.depth
  high : f.depth ≤ max (max t.a.depth t.b.depth) t.c.depth
  corner : ∀ v ∈ t.corners, v.cell = ⟨f.x, f.y⟩ → f.depth = v.depth
  level : ∀ z, (∀ v ∈ t.corners, v.depth = z) → f.depth = z

theorem Interpolates.depth_le {α : Type} {t : Triangle} {f : Fragment α} (h : t.Interpolates f)
    {d : UInt8} (hcorners : ∀ v ∈ t.corners, v.depth ≤ d) : f.depth ≤ d := by
  have hhigh := h.high
  simp only [corners, List.forall_mem_cons, UInt8.le_iff_toNat_le] at hcorners
  rw [UInt8.le_iff_toNat_le, toNat_max, toNat_max] at hhigh
  rw [UInt8.le_iff_toNat_le]
  omega

def depthMean (t : Triangle) (x y : ℕ) : ℚ :=
  turnMean ⟨x, y⟩ t.a.cell t.b.cell t.c.cell t.a.depth.toNat t.b.depth.toNat t.c.depth.toNat

variable {t : Triangle} {x y width height : ℕ}

theorem depthMean_mem (hcovers : t.Covers x y) (harea : 0 < turn t.a.cell t.b.cell t.c.cell) :
    ((min (min t.a.depth t.b.depth) t.c.depth).toNat : ℤ) ≤ t.depthMean x y ∧
      t.depthMean x y ≤ ((max (max t.a.depth t.b.depth) t.c.depth).toNat : ℤ) := by
  obtain ⟨ha, hb, hc⟩ := hcovers
  rw [toNat_min, toNat_min, toNat_max, toNat_max, Nat.cast_min, Nat.cast_min, Nat.cast_max,
    Nat.cast_max]
  exact turnMean_mem harea ha hb hc

theorem depthMean_corner (harea : 0 < turn t.a.cell t.b.cell t.c.cell) {v : ScreenVertex}
    (hv : v ∈ t.corners) (hcell : v.cell = ⟨x, y⟩) : t.depthMean x y = (v.depth.toNat : ℤ) := by
  rw [depthMean, ← hcell]
  simp only [corners, List.mem_cons, List.not_mem_nil, or_false] at hv
  rcases hv with rfl | rfl | rfl
  · exact turnMean_corner harea _ _ _
  · rw [← turnMean_rotate]
    exact turnMean_corner (by rwa [turn_rotate]) _ _ _
  · rw [← turnMean_rotate, ← turnMean_rotate]
    exact turnMean_corner (by rwa [turn_rotate, turn_rotate]) _ _ _

theorem interpolates_of_near {α : Type} {f : Fragment α} {r : ℚ} (hcovers : t.Covers f.x f.y)
    (harea : 0 < turn t.a.cell t.b.cell t.c.cell) (hdepth : f.depth = roundDepth r)
    (hnear : |r - t.depthMean f.x f.y| < 1 / 2) : t.Interpolates f := by
  obtain ⟨hmean_low, hmean_high⟩ := depthMean_mem hcovers harea
  obtain ⟨hlow, hhigh⟩ := roundDepth_mem hmean_low hmean_high hnear
  rw [← hdepth] at hlow hhigh
  refine ⟨hlow, hhigh, fun v hv hcell => ?_, fun z hz => ?_⟩
  · have hmean := depthMean_corner harea hv hcell
    obtain ⟨hle, hge⟩ := roundDepth_mem hmean.ge hmean.le hnear
    rw [hdepth]
    exact UInt8.le_antisymm hge hle
  · simp only [corners, List.forall_mem_cons] at hz
    obtain ⟨ha, hb, hc, -⟩ := hz
    rw [ha, hb, hc] at hlow hhigh
    rw [UInt8.le_iff_toNat_le, toNat_min, toNat_min] at hlow
    rw [UInt8.le_iff_toNat_le, toNat_max, toNat_max] at hhigh
    exact UInt8.toNat_inj.mp (by omega)

/-! ## Fragments -/

def depthAt (α : Type) [Scalar α] (t : Triangle) (x y : ℕ) : α :=
  (barycentric ⟨x, y⟩ t.a.cell t.b.cell t.c.cell (t.area α)).interpolate
    (Scalar.ofInt t.a.depth.toNat) (Scalar.ofInt t.b.depth.toNat) (Scalar.ofInt t.c.depth.toNat)

theorem depth_of_fragmentAt {α : Type} [Scalar α] {f : Fragment α} (hx : x < 2 ^ 31)
    (hy : y < 2 ^ 31) (hat : t.fragmentAt (t.area α) x y = some f) :
    (barycentric ⟨x, y⟩ t.a.cell t.b.cell t.c.cell (t.area α)).inside = true ∧
      f.depth = roundDepth (t.depthAt α x y) := by
  simp only [fragmentAt, FrameBuffer.coordinate_eq hx, FrameBuffer.coordinate_eq hy] at hat
  split_ifs at hat with hinside
  cases hat
  exact ⟨hinside, rfl⟩

theorem depthMean_nonneg (hcovers : t.Covers x y) (harea : 0 < turn t.a.cell t.b.cell t.c.cell) :
    0 ≤ t.depthMean x y :=
  le_trans (by positivity) (depthMean_mem hcovers harea).1

theorem depthMean_le (hcovers : t.Covers x y) (harea : 0 < turn t.a.cell t.b.cell t.c.cell) :
    t.depthMean x y ≤ 255 := by
  refine (depthMean_mem hcovers harea).2.trans ?_
  exact_mod_cast toNat_le (max (max t.a.depth t.b.depth) t.c.depth)

/-- In exact arithmetic the depths of all fragments interpolate. -/
theorem interpolates_of_mem_rat (hwidth : width ≤ 2 ^ 24) (hheight : height ≤ 2 ^ 24)
    {f : Fragment ℚ} (hf : f ∈ t.fragments ℚ width height) : t.Interpolates f := by
  obtain ⟨hx, hy, -, hdrawn, hat⟩ := (t.mem_fragments_iff (by omega) (by omega)).mp hf
  obtain ⟨hinside, hdepth⟩ := depth_of_fragmentAt (by omega) (by omega) hat
  have harea : 0 < turn t.a.cell t.b.cell t.c.cell := by
    have hone : (1 : ℚ) ≤ turn t.a.cell t.b.cell t.c.cell / 2 := by
      rw [area, signedArea_rat, not_lt] at hdrawn
      exact_mod_cast hdrawn
    have hpos : (0 : ℚ) < turn t.a.cell t.b.cell t.c.cell := by linarith
    exact_mod_cast hpos
  have hcovers : t.Covers f.x f.y := (inside_barycentric_rat_iff harea).mp hinside
  have hexact : t.depthAt ℚ f.x f.y = t.depthMean f.x f.y := interpolate_rat _ _ _ _ _ _ _
  refine interpolates_of_near hcovers harea hdepth ?_
  rw [hexact, sub_self, abs_zero]
  exact half_pos one_pos

/-- In double precision those of a triangle of moderate size do too. -/
theorem interpolates_of_mem_float (ht : t.Moderate) (hwidth : width ≤ 2 ^ 24)
    (hheight : height ≤ 2 ^ 24) {f : Fragment Float} (hf : f ∈ t.fragments Float width height) :
    t.Interpolates f := by
  obtain ⟨hx, hy, -, hdrawn, hat⟩ := (t.mem_fragments_iff (by omega) (by omega)).mp hf
  obtain ⟨hinside, hdepth⟩ := depth_of_fragmentAt (by omega) (by omega) hat
  have hcell : Cell.Moderate ⟨f.x, f.y⟩ := by constructor <;> simp <;> omega
  have harea : 2 ≤ turn t.a.cell t.b.cell t.c.cell := by
    rw [area, signedArea_lt_one_iff ht.a ht.b ht.c] at hdrawn
    omega
  have hcovers : t.Covers f.x f.y :=
    (inside_barycentric_iff hcell ht.a ht.b ht.c harea).mp hinside
  have hpos : 0 < turn t.a.cell t.b.cell t.c.cell := by omega
  have hmean : IsNearly (t.depthAt Float f.x f.y) (t.depthMean f.x f.y) 4 :=
    isNearly_interpolate hcell ht.a ht.b ht.c hpos hcovers.1 hcovers.2.1 hcovers.2.2
      (Int.natCast_nonneg _) (toNat_le _) (Int.natCast_nonneg _) (toNat_le _)
      (Int.natCast_nonneg _) (toNat_le _)
  obtain ⟨r, hr, hnear⟩ := hmean.exists_near (by decide) (depthMean_nonneg hcovers hpos)
    (depthMean_le hcovers hpos)
  refine interpolates_of_near hcovers hpos ?_ hnear
  rw [hdepth, roundDepth, roundDepth, hr.roundWithin_eq]

end Triangle

end DepthRaster.Raster
