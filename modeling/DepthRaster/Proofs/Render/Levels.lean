import DepthRaster.Proofs.Geometry.Perspective
import DepthRaster.Proofs.Raster.Depth
import DepthRaster.Proofs.Render.Schedule
import DepthRaster.Render.Renderer
/-!
# Levels of depth

A viewport has a number of depth levels, and no corner that it places is nearer than the last one.
Fragments are as near as a corner at most. So nothing in a depth image is nearer than the last
level, whoever draws it.
-/

namespace DepthRaster.Render

open Color (Rgb)
open DepthRaster.Geometry (Point Projector ScreenVertex Viewport)
open Mesh (Corners)
open Raster (FrameBuffer Triangle Write)

/-! ## Corners -/

theorem depth_place_le (viewport : Viewport) (p : Point Float) :
    (viewport.place p).depth ≤ viewport.depthLevels := by
  have hrange := Numeric.roundWithin_float_mem (le_refl 0)
    (Int.natCast_nonneg viewport.depthLevels.toNat)
    (Viewport.scale (viewport.depthLevels.toNat : ℤ) p.z)
  have hdepth := Geometry.toNat_depth_place viewport p rfl hrange
  rw [UInt8.le_iff_toNat_le]
  omega

variable {ρ ε : Type} {transform : ρ → Except ε ScreenVertex} {faces : List (Corners ρ)}

/-- Whether all faces with a place on the screen have corners of moderate size that a viewport
placed. -/
def PlacedBy (viewport : Viewport) (transform : ρ → Except ε ScreenVertex)
    (faces : List (Corners ρ)) : Prop :=
  ∀ t ∈ triangles transform faces,
    t.Moderate ∧ ∀ v ∈ t.corners, ∃ p : Point Float, viewport.place p = v

/-- A transform that ends with the viewport places all corners by it. -/
theorem placedBy_of_place {viewport : Viewport}
    (hplace : ∀ q v, transform q = .ok v → ∃ p : Point Float, viewport.place p = v)
    (hmoderate : ∀ t ∈ triangles transform faces, t.Moderate) :
    PlacedBy viewport transform faces := by
  intro t ht
  refine ⟨hmoderate t ht, fun v hv => ?_⟩
  obtain ⟨corners, -, hcorners⟩ := List.mem_filterMap.mp ht
  obtain ⟨ha, hb, hc⟩ := (placeCorners_eq_ok transform).mp (toOption_eq_some.mp hcorners)
  simp only [Triangle.corners, List.mem_cons, List.not_mem_nil, or_false] at hv
  rcases hv with rfl | rfl | rfl
  · exact hplace _ _ ha
  · exact hplace _ _ hb
  · exact hplace _ _ hc

theorem PlacedBy.depth_le {viewport : Viewport} (h : PlacedBy viewport transform faces) :
    ∀ t ∈ triangles transform faces,
      t.Moderate ∧ ∀ v ∈ t.corners, v.depth ≤ viewport.depthLevels := by
  intro t ht
  obtain ⟨hmoderate, hcorners⟩ := h t ht
  refine ⟨hmoderate, fun v hv => ?_⟩
  obtain ⟨p, rfl⟩ := hcorners v hv
  exact depth_place_le viewport p

theorem exists_place_of_project {projector : Projector} {p : Point Float} {v : ScreenVertex}
    (h : projector.project p = .ok v) :
    ∃ image : Point Float, projector.viewport.place image = v := by
  unfold Projector.project at h
  split_ifs at h
  cases hdivide : projector.projection.divide (projector.rotate p) with
  | error cause => rw [hdivide] at h; exact nomatch h
  | ok image =>
      rw [hdivide] at h
      exact ⟨image, Except.ok.inj h⟩

/-! ## Writes and pixels -/

section

variable {canvas : Canvas} {colorOf : Nat → Rgb} {d : UInt8} (hwidth : canvas.width ≤ 2 ^ 24)
  (hheight : canvas.height ≤ 2 ^ 24)
  (hfaces : ∀ t ∈ triangles transform faces, t.Moderate ∧ ∀ v ∈ t.corners, v.depth ≤ d)

include hwidth hheight hfaces

theorem depth_le_of_mem_allWrites {w : Write}
    (hw : w ∈ Pool.allWrites canvas colorOf (placeFaces transform faces).placed) : w.depth ≤ d := by
  rw [Pool.allWrites_eq] at hw
  obtain ⟨face, hface, hw⟩ := List.mem_flatMap.mp hw
  rw [Canvas.writes, Triangle.writes_eq] at hw
  obtain ⟨f, hf, rfl⟩ := List.mem_map.mp hw
  have hmem : face.triangle ∈ triangles transform faces := by
    rw [← map_triangle_placed]
    exact List.mem_map_of_mem (List.mem_of_mem_filter hface)
  obtain ⟨hmoderate, hcorners⟩ := hfaces face.triangle hmem
  exact (Triangle.interpolates_of_mem_float hmoderate hwidth hheight hf).depth_le hcorners

/-- Whoever draws, no pixel of the depth image is nearer than all corners. -/
theorem depth_le_of_mayRender {r : Rendering ε} (hr : canvas.MayRender faces transform colorOf r)
    {byte : UInt8} (hbyte : byte ∈ r.depth.bytes) : byte ≤ d := by
  obtain ⟨drawing, hrun, rejections, -, rfl⟩ := hr
  obtain ⟨order, hperm, rfl⟩ := Pool.exists_order_of_run hrun
  have hwrites : ∀ w ∈ order, w.depth ≤ d := fun w hw =>
    depth_le_of_mem_allWrites hwidth hheight hfaces (hperm.mem_iff.mp hw)
  have hbuffer : ((Drawing.blank canvas).complete order
      ((placeFaces transform faces).placed.map .face)).buffer =
        (FrameBuffer.empty canvas.width canvas.height).writeAll order :=
    FrameBuffer.fst_foldl_compositeCounted _ order
  change byte ∈ (Drawing.buffer _).toImages.2.bytes at hbyte
  rw [hbuffer] at hbyte
  have hw : ((FrameBuffer.empty canvas.width canvas.height).writeAll order).width = canvas.width :=
    FrameBuffer.width_writeAll _ order
  have hh : ((FrameBuffer.empty canvas.width canvas.height).writeAll order).height =
      canvas.height := FrameBuffer.height_writeAll _ order
  obtain ⟨x, y, s, hs, rfl⟩ :=
    FrameBuffer.exists_sampleAt_of_mem_bytes (by omega) (by omega) hbyte
  exact FrameBuffer.depth_le_of_writeAll_empty hwrites hs

end

theorem Renderer.depth_le_levels (renderer : Renderer) (mesh : Mesh)
    (hwidth : renderer.projector.viewport.width ≤ 2 ^ 24)
    (hheight : renderer.projector.viewport.height ≤ 2 ^ 24)
    (hmoderate : ∀ t ∈ triangles renderer.projector.project mesh.corners, t.Moderate) :
    ∀ byte ∈ (renderer.render mesh).depth.bytes,
      byte ≤ renderer.projector.viewport.depthLevels := by
  have hplaced : PlacedBy renderer.projector.viewport renderer.projector.project mesh.corners :=
    placedBy_of_place (fun _ _ => exists_place_of_project) hmoderate
  intro byte hbyte
  exact depth_le_of_mayRender hwidth hheight hplaced.depth_le
    (renderer.canvas.mayRender_render _ _ _) hbyte

/-- In a buffer of moderate size the depth of every fragment is in the range of the depths at the
corners of its triangle: in exact arithmetic, and for triangles of moderate size in double
precision too. So when a viewport placed the corners of all faces, no byte of the depth image
exceeds its number of levels, in whatever order the faces were drawn and the pixels written. -/
theorem depths_within_levels (canvas : Canvas) (hwidth : canvas.width ≤ 2 ^ 24)
    (hheight : canvas.height ≤ 2 ^ 24) :
    (∀ t : Triangle, (∀ f ∈ t.fragments ℚ canvas.width canvas.height, t.Interpolates f) ∧
        (t.Moderate → ∀ f ∈ t.fragments Float canvas.width canvas.height, t.Interpolates f)) ∧
      ∀ (viewport : Viewport) (transform : ρ → Except ε ScreenVertex) (faces : List (Corners ρ))
        (colorOf : Nat → Rgb), PlacedBy viewport transform faces →
        ∀ r, canvas.MayRender faces transform colorOf r →
          ∀ byte ∈ r.depth.bytes, byte ≤ viewport.depthLevels := by
  refine ⟨fun t => ⟨fun f hf => Triangle.interpolates_of_mem_rat hwidth hheight hf,
    fun ht f hf => Triangle.interpolates_of_mem_float ht hwidth hheight hf⟩, ?_⟩
  intro viewport transform faces colorOf hplaced r hr byte hbyte
  exact depth_le_of_mayRender hwidth hheight hplaced.depth_le hr hbyte

/-- A face that reaches over the edge of the canvas, drawn with a hundred levels. -/
theorem depths_within_levels_of_overhang :
    let canvas : Canvas := { width := 4, height := 4 }
    let viewport : Viewport := ⟨4, 4, 100⟩
    let transform : Point Float → Except Unit ScreenVertex := fun p => .ok (viewport.place p)
    let faces : List (Corners (Point Float)) := [⟨⟨-2, -1, 0.5⟩, ⟨1, -1, 3⟩, ⟨-1, 1, -0.5⟩⟩]
    let t : Triangle := ⟨⟨-2, 0, 75⟩, ⟨4, 0, 100⟩, ⟨0, 4, 25⟩⟩
    (canvas.width ≤ 2 ^ 24 ∧ canvas.height ≤ 2 ^ 24) ∧
      (t.fragments ℚ 4 4 ≠ [] ∧ ∀ f ∈ t.fragments ℚ 4 4, t.Interpolates f) ∧
      triangles transform faces = [t] ∧ PlacedBy viewport transform faces ∧
      ∀ byte ∈ (canvas.render faces transform fun _ => .white).depth.bytes, byte ≤ 100 := by
  intro canvas viewport transform faces t
  have hsize : 4 ≤ 2 ^ 24 := by decide
  have hfragments : t.fragments ℚ 4 4 ≠ [] := by decide +kernel
  have htriangles : triangles transform faces = [t] := by decide +kernel
  have hmoderate : ∀ u ∈ triangles transform faces, u.Moderate := by
    rw [htriangles, List.forall_mem_singleton]
    constructor <;> constructor <;> decide
  have hplaced : PlacedBy viewport transform faces :=
    placedBy_of_place (fun p v hv => ⟨p, Except.ok.inj hv⟩) hmoderate
  obtain ⟨hinterpolates, hbytes⟩ := depths_within_levels canvas hsize hsize
  exact ⟨⟨hsize, hsize⟩, ⟨hfragments, (hinterpolates t).1⟩, htriangles, hplaced,
    hbytes viewport transform faces _ hplaced _ (canvas.mayRender_render faces transform _)⟩

end DepthRaster.Render
