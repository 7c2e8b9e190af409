import DepthRaster.Render.Rendering
import Mathlib.Algebra.Group.Nat.Defs
import Mathlib.Data.List.Basic
/-!
# Placed faces

A face is placed when its three corners are, and rejected for the first one that is not. Placed and
rejected faces keep the order and the numbers that they have in the model. The order of a face is
its number up to the last one of 32 bits, which all faces from there on share.
-/

namespace DepthRaster.Render

open DepthRaster.Geometry (ScreenVertex)
open Mesh (Corners)
open Raster (Triangle)

variable {ρ ε : Type} (transform : ρ → Except ε ScreenVertex) (faces : List (Corners ρ))

def PlacedAt (index : Nat) (t : Triangle) : Prop :=
  ∃ corners, faces[index]? = some corners ∧ placeCorners transform corners = .ok t

theorem toOption_eq_some {α β : Type} {x : Except α β} {b : β} :
    x.toOption = some b ↔ x = .ok b := by
  cases x <;> simp [Except.toOption]

theorem failure?_eq_some {α β : Type} {x : Except α β} {a : α} :
    failure? x = some a ↔ x = .error a := by
  cases x <;> simp [failure?]

theorem placeCorners_eq_ok {corners : Corners ρ} {t : Triangle} :
    placeCorners transform corners = .ok t ↔ transform corners.first = .ok t.a ∧
      transform corners.second = .ok t.b ∧ transform corners.third = .ok t.c := by
  obtain ⟨a, b, c⟩ := t
  simp only [placeCorners]
  cases transform corners.first with
  | error cause => exact ⟨nofun, fun h => nomatch h.1⟩
  | ok u =>
      cases transform corners.second with
      | error cause => exact ⟨nofun, fun h => nomatch h.2.1⟩
      | ok v =>
          cases transform corners.third with
          | error cause => exact ⟨nofun, fun h => nomatch h.2.2⟩
          | ok w =>
              change Except.ok (⟨u, v, w⟩ : Triangle) = .ok ⟨a, b, c⟩ ↔ _
              simp only [Except.ok.injEq, Triangle.mk.injEq]

theorem placeFace_eq_ok {corners : Corners ρ} {i : Nat} {face : PlacedFace} :
    placeFace transform (corners, i) = .ok face ↔
      face.index = i ∧ placeCorners transform corners = .ok face.triangle := by
  obtain ⟨index, t⟩ := face
  simp only [placeFace]
  cases placeCorners transform corners <;> simp [eq_comm]

theorem placeFace_eq_error {corners : Corners ρ} {i : Nat} {r : Rejection ε} :
    placeFace transform (corners, i) = .error r ↔
      r.index = i ∧ placeCorners transform corners = .error r.cause := by
  obtain ⟨index, cause⟩ := r
  simp only [placeFace]
  cases placeCorners transform corners <;> simp [eq_comm]

section

variable {β : Type} {outcome : Corners ρ × Nat → Option β} {number : β → Nat}
  {Q : Corners ρ → β → Prop}

private theorem mem_numbered
    (h : ∀ corners i b, outcome (corners, i) = some b ↔ number b = i ∧ Q corners b) {b : β} :
    b ∈ faces.zipIdx.filterMap outcome ↔
      ∃ corners, faces[number b]? = some corners ∧ Q corners b := by
  simp only [List.mem_filterMap, Prod.exists, List.mem_zipIdx_iff_getElem?, h]
  constructor
  · rintro ⟨corners, _, hget, rfl, hQ⟩
    exact ⟨corners, hget, hQ⟩
  · rintro ⟨corners, hget, hQ⟩
    exact ⟨corners, _, hget, rfl, hQ⟩

private theorem pairwise_numbered
    (h : ∀ corners i b, outcome (corners, i) = some b ↔ number b = i ∧ Q corners b) :
    (faces.zipIdx.filterMap outcome).Pairwise fun b c => number b < number c := by
  have hnumbers : faces.zipIdx.Pairwise fun a b => a.2 < b.2 := by
    rw [← List.pairwise_map (f := Prod.snd) (R := (· < ·)), List.zipIdx_map_snd]
    exact List.pairwise_lt_range'
  rw [List.pairwise_filterMap]
  apply hnumbers.imp
  intro a b hlt c hc d hd
  rw [((h a.1 a.2 c).mp hc).1, ((h b.1 b.2 d).mp hd).1]
  exact hlt

end

private theorem toOption_placeFace (corners : Corners ρ) (i : Nat) (face : PlacedFace) :
    (placeFace transform (corners, i)).toOption = some face ↔
      face.index = i ∧ placeCorners transform corners = .ok face.triangle :=
  toOption_eq_some.trans (placeFace_eq_ok transform)

theorem mem_placed {face : PlacedFace} :
    face ∈ (placeFaces transform faces).placed ↔
      PlacedAt transform faces face.index face.triangle := by
  simp only [placeFaces, List.filterMap_map, PlacedAt]
  apply mem_numbered faces (toOption_placeFace transform)

theorem pairwise_placed :
    (placeFaces transform faces).placed.Pairwise fun f g => f.index < g.index := by
  simp only [placeFaces, List.filterMap_map]
  exact pairwise_numbered faces (toOption_placeFace transform)

theorem mem_drawn {face : PlacedFace} :
    face ∈ (placeFaces transform faces).drawn ↔
      PlacedAt transform faces face.index face.triangle ∧ face.triangle.isDrawn = true := by
  rw [Placement.drawn, List.mem_filter, mem_placed]

theorem pairwise_drawn :
    (placeFaces transform faces).drawn.Pairwise fun f g => f.index < g.index :=
  (pairwise_placed transform faces).filter _

theorem index_lt_of_mem_drawn {face : PlacedFace}
    (h : face ∈ (placeFaces transform faces).drawn) : face.index < faces.length := by
  obtain ⟨⟨corners, hget, -⟩, -⟩ := (mem_drawn transform faces).mp h
  exact (List.getElem?_eq_some_iff.mp hget).1

/-! ## Rejected faces -/

def refusals (corners : Corners ρ) : List ε :=
  corners.toList.filterMap fun p => failure? (transform p)

/-- A face is rejected for its first corner without a place. -/
theorem failure?_placeCorners (corners : Corners ρ) :
    failure? (placeCorners transform corners) = (refusals transform corners).head? := by
  obtain ⟨a, b, c⟩ := corners
  simp only [placeCorners, refusals, Corners.toList, List.filterMap_cons]
  cases transform a with
  | error e => rfl
  | ok u =>
      cases transform b with
      | error e => rfl
      | ok v =>
          cases transform c with
          | error e => rfl
          | ok w => rfl

private theorem failure?_placeFace (corners : Corners ρ) (i : Nat) (r : Rejection ε) :
    failure? (placeFace transform (corners, i)) = some r ↔
      r.index = i ∧ (refusals transform corners).head? = some r.cause := by
  rw [failure?_eq_some, placeFace_eq_error, ← failure?_placeCorners, failure?_eq_some]

theorem mem_rejected {r : Rejection ε} :
    r ∈ (placeFaces transform faces).rejected ↔
      ∃ corners, faces[r.index]? = some corners ∧
        (refusals transform corners).head? = some r.cause := by
  simp only [placeFaces, List.filterMap_map]
  apply mem_numbered faces (failure?_placeFace transform)

theorem pairwise_rejected :
    (placeFaces transform faces).rejected.Pairwise fun q r => q.index < r.index := by
  simp only [placeFaces, List.filterMap_map]
  exact pairwise_numbered faces (failure?_placeFace transform)

theorem nodup_rejected : ((placeFaces transform faces).rejected.map (·.index)).Nodup := by
  rw [List.Nodup, List.pairwise_map]
  exact (pairwise_rejected transform faces).imp Nat.ne_of_lt

/-! ## Faces without their numbers -/

def triangles : List Triangle :=
  faces.filterMap fun corners => (placeCorners transform corners).toOption

def causes : List ε :=
  faces.filterMap fun corners => failure? (placeCorners transform corners)

private theorem map_numbered {β γ : Type} {outcome : Corners ρ × Nat → Option β} {value : β → γ}
    {f : Corners ρ → Option γ}
    (h : ∀ corners i, (outcome (corners, i)).map value = f corners) :
    (faces.zipIdx.filterMap outcome).map value = faces.filterMap f := by
  rw [List.map_filterMap]
  conv_rhs => rw [← List.zipIdx_map_fst 0 faces, List.filterMap_map]
  congr 1
  funext a
  exact h a.1 a.2

theorem map_triangle_placed :
    (placeFaces transform faces).placed.map (·.triangle) = triangles transform faces := by
  simp only [placeFaces, List.filterMap_map]
  apply map_numbered faces
  intro corners i
  simp only [Function.comp_apply, placeFace]
  cases placeCorners transform corners with
  | error cause => rfl
  | ok t => rfl

theorem map_cause_rejected :
    (placeFaces transform faces).rejected.map (·.cause) = causes transform faces := by
  simp only [placeFaces, List.filterMap_map]
  apply map_numbered faces
  intro corners i
  simp only [Function.comp_apply, placeFace]
  cases placeCorners transform corners with
  | error cause => rfl
  | ok t => rfl

/-- Every face has a place on the screen or is rejected. -/
theorem length_causes_add_length_triangles :
    (causes transform faces).length + (triangles transform faces).length = faces.length := by
  rw [causes, triangles, List.length_filterMap_eq_countP, List.length_filterMap_eq_countP,
    faces.length_eq_countP_add_countP fun corners =>
      (failure? (placeCorners transform corners)).isSome]
  congr 1
  apply List.countP_congr
  intro corners _
  cases placeCorners transform corners with
  | error cause => simp [failure?, Except.toOption]
  | ok t => simp [failure?, Except.toOption]

/-! ## Orders -/

theorem toNat_orderOf (i : Nat) : (orderOf i).toNat = min i (2 ^ 32 - 1) := by
  have hsize : UInt32.size = 2 ^ 32 := rfl
  rw [orderOf, hsize, UInt32.toNat_ofNat']
  omega

theorem orderOf_le_orderOf {i j : Nat} (h : i ≤ j) : orderOf i ≤ orderOf j := by
  rw [UInt32.le_iff_toNat_le, toNat_orderOf, toNat_orderOf]
  omega

theorem orderOf_inj {i j : Nat} (hi : i < 2 ^ 32) (hj : j < 2 ^ 32)
    (h : orderOf i = orderOf j) : i = j := by
  have h := congrArg UInt32.toNat h
  rw [toNat_orderOf, toNat_orderOf] at h
  omega

end DepthRaster.Render
