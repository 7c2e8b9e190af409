import DepthRaster.Proofs.Raster.Fill
import DepthRaster.Proofs.Render.Nearest
import Mathlib.Algebra.BigOperators.Ring.Finset
/-!
# Records of depth

One worker draws the faces in order, so a face changes a pixel just when it is nearer there than all
faces before it: a face as near comes later and loses, also when both share the last order. Hence
the writes that win are as many as the records of depth at all pixels.
-/

namespace DepthRaster.Render

open Color (Rgb)
open DepthRaster.Geometry (ScreenVertex)
open Mesh (Corners)
open Raster (FrameBuffer Write farDepth)

variable {ρ ε : Type}

/-- Whether a face covers a pixel nearer than every face before it. -/
def Canvas.SetsRecord (canvas : Canvas) (faces : List (Corners ρ))
    (transform : ρ → Except ε ScreenVertex) (x y index : Nat) : Prop :=
  ∃ d, canvas.Covers faces transform x y index d ∧
    ∀ j < index, ∀ e, canvas.Covers faces transform x y j e → e < d

/-! ## One pixel -/

/-- Whether some fragment of the given face is nearer than the far depth and than the fragments of
all faces before it. Fragments are given by the numbers of their faces and their depths. -/
def IsRecord (fragments : List (Nat × UInt8)) (index : Nat) : Prop :=
  ∃ c ∈ fragments, c.1 = index ∧ c.2 ≠ farDepth ∧ ∀ b ∈ fragments, b.1 < index → b.2 < c.2

instance (fragments : List (Nat × UInt8)) (index : Nat) : Decidable (IsRecord fragments index) :=
  inferInstanceAs (Decidable (∃ c ∈ fragments, c.1 = index ∧ c.2 ≠ farDepth ∧
    ∀ b ∈ fragments, b.1 < index → b.2 < c.2))

/-- Whether some of the fragments that come next is nearer than the far depth and than all fragments
so far. -/
def Tops (next fragments : List (Nat × UInt8)) : Prop :=
  ∃ c ∈ next, c.2 ≠ farDepth ∧ ∀ b ∈ fragments, b.2 < c.2

instance (next fragments : List (Nat × UInt8)) : Decidable (Tops next fragments) :=
  inferInstanceAs (Decidable (∃ c ∈ next, c.2 ≠ farDepth ∧ ∀ b ∈ fragments, b.2 < c.2))

theorem farDepth_lt {d : UInt8} (h : d ≠ farDepth) : farDepth < d :=
  UInt8.lt_of_le_of_ne (UInt8.le_iff_toNat_le.mpr (Nat.zero_le _)) h.symm

theorem forall_near_lt_iff {fragments : List (Nat × UInt8)} {d : UInt8} (near : d ≠ farDepth) :
    (∀ j e, (j, e) ∈ fragments ∧ e ≠ farDepth → e < d) ↔ ∀ b ∈ fragments, b.2 < d := by
  constructor
  · intro hall b hb
    by_cases hfar : b.2 = farDepth
    · rw [hfar]
      exact farDepth_lt near
    · exact hall b.1 b.2 ⟨hb, hfar⟩
  · exact fun hall j e he => hall (j, e) he.1

theorem isRecord_append {fragments next : List (Nat × UInt8)} {k : Nat}
    (hbefore : ∀ b ∈ fragments, b.1 < k) (hlast : ∀ c ∈ next, c.1 = k) {i : Nat} :
    IsRecord (fragments ++ next) i ↔ IsRecord fragments i ∨ i = k ∧ Tops next fragments := by
  unfold IsRecord Tops
  constructor
  · rintro ⟨c, hc, rfl, near, hall⟩
    rcases List.mem_append.mp hc with hc | hc
    · exact .inl ⟨c, hc, rfl, near, fun b hb => hall b (List.mem_append_left next hb)⟩
    · refine .inr ⟨hlast c hc, c, hc, near, fun b hb => ?_⟩
      exact hall b (List.mem_append_left next hb) (hlast c hc ▸ hbefore b hb)
  · rintro (⟨c, hc, rfl, near, hall⟩ | ⟨rfl, c, hc, near, hall⟩)
    · refine ⟨c, List.mem_append_left next hc, rfl, near, fun b hb hlt => ?_⟩
      rcases List.mem_append.mp hb with hb | hb
      · exact hall b hb hlt
      · have := hlast b hb
        have := hbefore c hc
        omega
    · refine ⟨c, List.mem_append_right fragments hc, hlast c hc, near, fun b hb hlt => ?_⟩
      rcases List.mem_append.mp hb with hb | hb
      · exact hall b hb
      · have := hlast b hb
        omega

def records (fragments : List (Nat × UInt8)) (size : Nat) : Finset Nat :=
  (Finset.range size).filter (IsRecord fragments)

theorem card_records_append {fragments next : List (Nat × UInt8)} {k size : Nat}
    (hbefore : ∀ b ∈ fragments, b.1 < k) (hlast : ∀ c ∈ next, c.1 = k) (hsize : k < size) :
    (records (fragments ++ next) size).card =
      (records fragments size).card + if Tops next fragments then 1 else 0 := by
  have hfresh : k ∉ records fragments size := by
    intro hk
    obtain ⟨c, hc, hck, -⟩ := (Finset.mem_filter.mp hk).2
    have := hbefore c hc
    omega
  split_ifs with hnew
  · have hinsert : records (fragments ++ next) size = insert k (records fragments size) := by
      ext i
      simp only [records, Finset.mem_insert, Finset.mem_filter, Finset.mem_range,
        isRecord_append hbefore hlast, hnew, and_true, and_or_left]
      constructor
      · rintro (hi | ⟨-, rfl⟩)
        · exact .inr hi
        · exact .inl rfl
      · rintro (rfl | hi)
        · exact .inr ⟨hsize, rfl⟩
        · exact .inl hi
    rw [hinsert, Finset.card_insert_of_notMem hfresh]
  · simp only [records, isRecord_append hbefore hlast, hnew, and_false, or_false, Nat.add_zero]

/-! ## All pixels -/

namespace Canvas

theorem fill_append (canvas : Canvas) (colorOf : Nat → Rgb) (faces : List PlacedFace)
    (face : PlacedFace) :
    canvas.fill colorOf (faces ++ [face]) =
      (canvas.writes colorOf face).foldl FrameBuffer.compositeCounted
        (canvas.fill colorOf faces) := by
  rw [fill, List.foldl_append]
  rfl

theorem mem_flatMap_fragmentsAt {canvas : Canvas} {x y : Nat} {faces : List PlacedFace}
    {c : Nat × UInt8} (h : c ∈ faces.flatMap (canvas.fragmentsAt x y)) :
    ∃ face ∈ faces, face.index = c.1 := by
  obtain ⟨face, hface, hc⟩ := List.mem_flatMap.mp h
  exact ⟨face, hface, ((mem_fragmentsAt canvas).mp hc).1⟩

theorem scattered_writes (canvas : Canvas) (colorOf : Nat → Rgb) (face : PlacedFace) :
    FrameBuffer.Scattered (canvas.writes colorOf face) := by
  rw [writes, Raster.Triangle.writes_eq]
  exact face.triangle.scattered_writes _ _ _ _

/-- A face that comes last changes the pixels where it sets a record. -/
theorem mem_changed_fill (canvas : Canvas) (hshared : canvas.shared = false)
    (colorOf : Nat → Rgb) {faces : List PlacedFace} {face : PlacedFace}
    (hsorted : (faces ++ [face]).Pairwise fun f g => f.index < g.index) {x y : Nat} :
    (x, y) ∈ (canvas.fill colorOf faces).1.changed
        ((canvas.fill colorOf faces).1.writeAll (canvas.writes colorOf face)) ↔
      (x < canvas.width ∧ y < canvas.height) ∧
        Tops (canvas.fragmentsAt x y face) (faces.flatMap (canvas.fragmentsAt x y)) := by
  obtain ⟨hfaces, -, hlast⟩ := List.pairwise_append.mp hsorted
  by_cases hin : x < canvas.width ∧ y < canvas.height
  · obtain ⟨s, hs, hleads⟩ := leads_fill canvas hshared colorOf faces hfaces hin.1 hin.2
    have hwins {c : Nat × UInt8} (hc : c ∈ canvas.fragmentsAt x y face) (near : c.2 ≠ farDepth) :
        s.rank < (writeOf colorOf x y c).sample.rank ↔
          ∀ b ∈ faces.flatMap (canvas.fragmentsAt x y), b.2 < c.2 := by
      have hindex : face.index = c.1 := ((mem_fragmentsAt canvas).mp hc).1
      refine (hleads.rank_lt_iff near _ fun j e hP => ?_).trans (forall_near_lt_iff near)
      obtain ⟨g, hg, hj⟩ := mem_flatMap_fragmentsAt hP.1
      have := hlast g hg face List.mem_cons_self
      omega
    simp only [FrameBuffer.mem_changed_writeAll, hs, Option.some.injEq, exists_eq_left', hin,
      and_self, true_and]
    constructor
    · rintro ⟨w, hw, hits, hlt⟩
      have hat : w ∈ (canvas.writes colorOf face).filter (·.isAt x y) := by
        simp [hw, Write.isAt, hits.column, hits.row]
      rw [filter_writes canvas hshared] at hat
      obtain ⟨c, hc, rfl⟩ := List.mem_map.mp hat
      exact ⟨c, hc, hits.near, (hwins hc hits.near).mp hlt⟩
    · rintro ⟨c, hc, near, hall⟩
      have hat := List.mem_map_of_mem (f := writeOf colorOf x y) hc
      rw [← filter_writes canvas hshared] at hat
      exact ⟨_, List.mem_of_mem_filter hat, ⟨rfl, rfl, near⟩, (hwins hc near).mpr hall⟩
  · refine iff_of_false (fun hmem => hin ?_) fun h => hin h.1
    obtain ⟨hw, hh⟩ := canvas.size_fill colorOf faces
    have hsize := (FrameBuffer.mem_changed.mp hmem).1
    rwa [hw, hh] at hsize

theorem written_fill (canvas : Canvas) (hshared : canvas.shared = false) (colorOf : Nat → Rgb)
    {faces : List PlacedFace} (hsorted : faces.Pairwise fun f g => f.index < g.index) {size : Nat}
    (hsize : ∀ face ∈ faces, face.index < size) :
    (canvas.fill colorOf faces).2.written =
      ∑ p ∈ Finset.range canvas.width ×ˢ Finset.range canvas.height,
        (records (faces.flatMap (canvas.fragmentsAt p.1 p.2)) size).card := by
  induction faces using List.reverseRecOn with
  | nil => simp [fill, records, IsRecord]
  | append_singleton faces face ih =>
      obtain ⟨hfaces, -, hlast⟩ := List.pairwise_append.mp hsorted
      have hface : face.index < size := hsize face (by simp)
      have hchanged : (canvas.fill colorOf faces).1.changed
            ((canvas.fill colorOf faces).1.writeAll (canvas.writes colorOf face)) =
          (Finset.range canvas.width ×ˢ Finset.range canvas.height).filter fun p =>
            Tops (canvas.fragmentsAt p.1 p.2 face)
              (faces.flatMap (canvas.fragmentsAt p.1 p.2)) := by
        ext ⟨x, y⟩
        rw [canvas.mem_changed_fill hshared colorOf hsorted, Finset.mem_filter, Finset.mem_product,
          Finset.mem_range, Finset.mem_range]
      rw [fill_append, (canvas.scattered_writes colorOf face).written_eq,
        ih hfaces fun f hf => hsize f (by simp [hf]), hchanged, Finset.card_filter,
        ← Finset.sum_add_distrib]
      refine Finset.sum_congr rfl fun p _ => ?_
      rw [List.flatMap_append, List.flatMap_singleton]
      refine (card_records_append (fun b hb => ?_) (fun c hc => ?_) hface).symm
      · obtain ⟨g, hg, hindex⟩ := mem_flatMap_fragmentsAt hb
        exact hindex ▸ hlast g hg face List.mem_cons_self
      · exact ((mem_fragmentsAt canvas).mp hc).1.symm

theorem setsRecord_iff (canvas : Canvas) (faces : List (Corners ρ))
    (transform : ρ → Except ε ScreenVertex) (x y i : Nat) :
    canvas.SetsRecord faces transform x y i ↔
      IsRecord ((placeFaces transform faces).drawn.flatMap (canvas.fragmentsAt x y)) i := by
  unfold SetsRecord IsRecord
  simp only [← covers_iff]
  constructor
  · rintro ⟨d, ⟨hmem, near⟩, hall⟩
    refine ⟨(i, d), hmem, rfl, near, fun b hb hlt => ?_⟩
    by_cases hfar : b.2 = farDepth
    · rw [hfar]
      exact farDepth_lt near
    · exact hall b.1 hlt b.2 ⟨hb, hfar⟩
  · rintro ⟨⟨_, d⟩, hmem, rfl, near, hall⟩
    exact ⟨d, ⟨hmem, near⟩, fun j hlt e he => hall (j, e) he.1 hlt⟩

instance (canvas : Canvas) (faces : List (Corners ρ)) (transform : ρ → Except ε ScreenVertex)
    (x y : Nat) : DecidablePred (canvas.SetsRecord faces transform x y) :=
  fun i => decidable_of_iff _ (setsRecord_iff canvas faces transform x y i).symm

end Canvas

/-- The writes of one worker that win their pixels at the time are as many as the records of depth:
at each pixel, one for each face that covers it nearer than the far depth and than all faces before.
Neither colours nor faces as near as an earlier one count. -/
theorem written_render (width height : Nat) (wire : Option Rgb) (faces : List (Corners ρ))
    (transform : ρ → Except ε ScreenVertex) (colorOf : Nat → Rgb) :
    let canvas : Canvas := { width, height, shared := false, wire }
    (canvas.render faces transform colorOf).stats.written =
      ∑ p ∈ Finset.range width ×ˢ Finset.range height,
        ((Finset.range faces.length).filter (canvas.SetsRecord faces transform p.1 p.2)).card := by
  intro canvas
  have hwritten := canvas.written_fill rfl colorOf (pairwise_drawn transform faces)
    fun face => index_lt_of_mem_drawn transform faces
  refine hwritten.trans (Finset.sum_congr rfl fun p _ => ?_)
  simp only [records, canvas.setsRecord_iff]

/-- The second face is as near as the first and wins nowhere; the third wins everywhere. -/
theorem written_render_of_ties :
    let face (depth : UInt8) : Corners ScreenVertex := ⟨⟨0, 0, depth⟩, ⟨2, 0, depth⟩, ⟨0, 1, depth⟩⟩
    let faces := [face 7, face 7, face 9]
    let canvas : Canvas := { width := 2, height := 2, shared := false, wire := none }
    (canvas.render faces (Except.ok (ε := Empty)) fun i => ⟨i.toUInt8, 0, 0⟩).stats.written = 6 ∧
      ∑ p ∈ Finset.range 2 ×ˢ Finset.range 2, ((Finset.range 3).filter
        (canvas.SetsRecord faces (Except.ok (ε := Empty)) p.1 p.2)).card = 6 := by
  intro face faces canvas
  have hwritten : (canvas.render faces (Except.ok (ε := Empty)) fun i =>
      ⟨i.toUInt8, 0, 0⟩).stats.written = 6 := by decide +kernel
  refine ⟨hwritten, ?_⟩
  rw [← hwritten]
  exact (written_render 2 2 none faces (Except.ok (ε := Empty)) fun i => ⟨i.toUInt8, 0, 0⟩).symm

end DepthRaster.Render
