import DepthRaster.Proofs.Raster.Coverage
import DepthRaster.Proofs.Raster.Occupancy
import DepthRaster.Proofs.Render.Schedule
/-!
# The numbers of a rendering

Every face of a model is rejected, culled or drawn, and counted once, whoever draws what and when. A
face is rejected for its first corner without a place. The writes that won are at least as many as
the pixels that hold something in the end, and at most as many as the fragments.
-/

namespace DepthRaster.Render

open Color (Rgb)
open DepthRaster.Geometry (ScreenVertex)
open Mesh (Corners)
open Raster (FrameBuffer Triangle Write)

variable {ρ ε : Type}

/-- The numbers that the faces of a model give, all but that of the writes that won. -/
structure Stats.Tally (s : Stats) (canvas : Canvas) (transform : ρ → Except ε ScreenVertex)
    (faces : List (Corners ρ)) : Prop where
  total : s.faces = faces.length
  rejected : s.rejected = (causes transform faces).length
  culled : s.culled = (triangles transform faces).countP (!·.isDrawn)
  rasterized : s.rasterized = (triangles transform faces).countP (·.isDrawn)
  fragments : s.fragments = (((triangles transform faces).filter (·.isDrawn)).map fun t =>
    (t.fragments Float canvas.width canvas.height).length).sum

section

variable {s : Stats} {canvas : Canvas} {transform : ρ → Except ε ScreenVertex}
  {faces : List (Corners ρ)}

theorem Stats.Tally.faces_eq (h : s.Tally canvas transform faces) :
    s.faces = s.rejected + s.culled + s.rasterized := by
  rw [h.total, h.rejected, h.culled, h.rasterized,
    ← length_causes_add_length_triangles transform faces,
    (triangles transform faces).length_eq_countP_add_countP (·.isDrawn)]
  simp only [Bool.not_eq_true, Bool.decide_eq_false]
  omega

theorem length_causes :
    (causes transform faces).length =
      faces.countP fun corners => !(refusals transform corners).isEmpty := by
  rw [causes, List.length_filterMap_eq_countP]
  apply List.countP_congr
  intro corners _
  rw [failure?_placeCorners]
  cases refusals transform corners <;> simp

end

/-! ## Runs -/

namespace Pool

variable {canvas : Canvas} {colorOf : Nat → Rgb} {placed : List PlacedFace}

theorem countP_isFace_eq (drawn : Bool) :
    (placed.map Task.face).countP (Task.isFace drawn) =
      (placed.map (·.triangle)).countP (·.isDrawn == drawn) := by
  rw [List.countP_map, List.countP_map]
  rfl

theorem length_allWrites :
    (allWrites canvas colorOf placed).length =
      (((placed.map (·.triangle)).filter (·.isDrawn)).map fun t =>
        (t.fragments Float canvas.width canvas.height).length).sum := by
  rw [allWrites_eq, List.length_flatMap, List.filter_map, List.map_map]
  congr 1
  apply List.map_congr_left
  intro face _
  simp only [Canvas.writes, Triangle.writes_eq, List.length_map, Function.comp_apply]

end Pool

theorem tally_complete (canvas : Canvas) (faces : List (Corners ρ))
    (transform : ρ → Except ε ScreenVertex) (colorOf : Nat → Rgb) {order : List Write}
    (hperm : order.Perm (Pool.allWrites canvas colorOf (placeFaces transform faces).placed)) :
    (canvas.develop faces.length (placeFaces transform faces) ((Drawing.blank canvas).complete order
      ((placeFaces transform faces).placed.map .face))).stats.Tally canvas transform faces := by
  have htriangles := map_triangle_placed transform faces
  have hcount (drawn : Bool) :
      ((placeFaces transform faces).placed.map Task.face).countP (Task.isFace drawn) =
        (triangles transform faces).countP (·.isDrawn == drawn) := by
    rw [Pool.countP_isFace_eq, htriangles]
  constructor
  · rfl
  · rw [← map_cause_rejected, List.length_map]
    rfl
  · simpa [Canvas.develop, Drawing.complete, Drawing.blank] using hcount false
  · simpa [Canvas.develop, Drawing.complete, Drawing.blank] using hcount true
  · rw [← htriangles, ← Pool.length_allWrites, ← hperm.length_eq]
    simp only [Canvas.develop, Drawing.complete, Drawing.blank,
      FrameBuffer.fragments_foldl_compositeCounted, Nat.zero_add]

theorem Canvas.tally_render (canvas : Canvas) (faces : List (Corners ρ))
    (transform : ρ → Except ε ScreenVertex) (colorOf : Nat → Rgb) :
    (canvas.render faces transform colorOf).stats.Tally canvas transform faces := by
  rw [canvas.render_eq]
  exact tally_complete canvas faces transform colorOf (.refl _)

theorem written_bounds_complete (canvas : Canvas) (order : List Write) (tasks : List Task) :
    let drawing := (Drawing.blank canvas).complete order tasks
    drawing.buffer.occupied.card ≤ drawing.counts.written ∧
      drawing.counts.written ≤ drawing.counts.fragments := by
  have hbounds := FrameBuffer.written_bounds (.empty canvas.width canvas.height, {}) order
  have hfragments := FrameBuffer.fragments_foldl_compositeCounted
    (.empty canvas.width canvas.height, {}) order
  simp only [FrameBuffer.occupied_empty, Finset.card_empty, Nat.zero_add, Nat.add_zero]
    at hbounds hfragments
  simp only [Drawing.complete, Drawing.blank]
  rw [hfragments]
  exact hbounds

/-- Whatever a run does and when, its numbers account for every face, every rejected face is warned
about once, and the writes that won lie between the pixels that show something and the fragments. -/
theorem statistics_of_run (canvas : Canvas) (faces : List (Corners ρ))
    (transform : ρ → Except ε ScreenVertex) (colorOf : Nat → Rgb) {drawing : Drawing}
    (hrun : Pool.Run canvas colorOf (.start canvas (placeFaces transform faces).placed)
      ⟨[], drawing⟩)
    {rejections : List (Rejection ε)}
    (hrejections : rejections.Perm (placeFaces transform faces).rejected) :
    let rendering : Rendering ε :=
      { canvas.develop faces.length (placeFaces transform faces) drawing with rejections }
    let stats := rendering.stats
    let shown := triangles transform faces
    let fragments (t : Triangle) := t.fragments Float canvas.width canvas.height
    (stats.faces = faces.length ∧
        stats.faces = stats.rejected + stats.culled + stats.rasterized) ∧
      (stats.rejected = faces.countP (fun corners => !(refusals transform corners).isEmpty) ∧
        (rendering.rejections.map (·.index)).Nodup ∧
        ∀ i e, ⟨i, e⟩ ∈ rendering.rejections ↔
          ∃ corners, faces[i]? = some corners ∧
            (refusals transform corners).head? = some e) ∧
      (stats.culled = shown.countP (!·.isDrawn) ∧ stats.rasterized = shown.countP (·.isDrawn) ∧
        stats.fragments = ((shown.filter (·.isDrawn)).map fun t => (fragments t).length).sum ∧
        ∀ t ∈ shown, t.isDrawn = false → fragments t = []) ∧
      drawing.buffer.occupied.card ≤ stats.written ∧
      rendering.depth.litPixels.card ≤ stats.written ∧ stats.written ≤ stats.fragments := by
  intro rendering stats shown fragments
  -- A run does every task and tries every write once, so only the order of the writes is left open.
  obtain ⟨order, hperm, rfl⟩ := Pool.exists_order_of_run hrun
  have htally : stats.Tally canvas transform faces :=
    tally_complete canvas faces transform colorOf hperm
  obtain ⟨hoccupied, hwritten⟩ :=
    written_bounds_complete canvas order ((placeFaces transform faces).placed.map .face)
  refine ⟨⟨htally.total, htally.faces_eq⟩, ⟨htally.rejected.trans length_causes, ?_, ?_⟩,
    ⟨htally.culled, htally.rasterized, htally.fragments, ?_⟩, hoccupied, ?_, hwritten⟩
  · exact (hrejections.map _).nodup_iff.mpr (nodup_rejected transform faces)
  · intro i e
    exact hrejections.mem_iff.trans (mem_rejected transform faces)
  · intro t _ hculled
    exact Triangle.fragments_eq_nil hculled canvas.width canvas.height
  · exact (FrameBuffer.card_litPixels_toImages_le _).trans hoccupied

/-- A face that is drawn, the same seen from behind, and one without a place for its second
corner. -/
theorem statistics_of_run_of_three :
    let front : Corners (Option ScreenVertex) := ⟨some ⟨0, 0, 7⟩, some ⟨2, 0, 7⟩, some ⟨0, 2, 7⟩⟩
    let faces := [front, ⟨front.first, front.third, front.second⟩, ⟨front.first, none, front.third⟩]
    let transform : Option ScreenVertex → Except Nat ScreenVertex := fun p => p.elim (.error 5) .ok
    let canvas : Canvas := { width := 3, height := 3, shared := true }
    let placement := placeFaces transform faces
    let rejections := placement.rejected.reverse
    ∃ drawing, Pool.Run canvas (fun _ => .white) (.start canvas placement.placed) ⟨[], drawing⟩ ∧
      rejections.Perm placement.rejected ∧
      let rendering : Rendering Nat :=
        { canvas.develop faces.length placement drawing with rejections }
      let stats := rendering.stats
      stats.faces = stats.rejected + stats.culled + stats.rasterized ∧
        (stats.rejected = 1 ∧ stats.culled = 1 ∧ stats.rasterized = 1 ∧ stats.fragments = 6) ∧
        ⟨2, 5⟩ ∈ rendering.rejections ∧
        drawing.buffer.occupied.card ≤ stats.written ∧ stats.written ≤ stats.fragments := by
  intro front faces transform canvas placement rejections
  obtain ⟨drawing, hrun⟩ : ∃ drawing, Pool.Run canvas (fun _ => .white)
      (.start canvas placement.placed) ⟨[], drawing⟩ :=
    ⟨_, Pool.run_tasks (placement.placed.map .face) (.blank canvas)⟩
  have hperm : rejections.Perm placement.rejected := List.reverse_perm placement.rejected
  obtain ⟨⟨-, htotal⟩, ⟨hrejected, -, hcause⟩, ⟨hculled, hdrawn, hfragments, -⟩, hoccupied, -,
    hwritten⟩ := statistics_of_run canvas faces transform (fun _ => .white) hrun hperm
  refine ⟨drawing, hrun, hperm, htotal, ⟨hrejected.trans ?_, hculled.trans ?_, hdrawn.trans ?_,
    hfragments.trans ?_⟩, (hcause 2 5).mpr ⟨_, rfl, rfl⟩, hoccupied, hwritten⟩
  · rfl
  · decide +kernel
  · decide +kernel
  · decide +kernel

end DepthRaster.Render
