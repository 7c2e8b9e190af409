import DepthRaster.Mesh.File
import DepthRaster.Proofs.Mesh.Merging
import Mathlib.Data.List.Forall2
/-!
# Triangles cut into submeshes

The triangles of a text come in submeshes, each with points of its own. Wherever they are cut and
however the points are numbered, merging undoes it: the mesh has all of the triangles in order, with
each corner where it was.
-/

namespace DepthRaster.Mesh

open DepthRaster.Geometry (Point)
open Obj (ObjError)

def widenPoint (p : Point Float32) : Point Float := ⟨widen p.x, widen p.y, widen p.z⟩

def pointAt (vertices : List (Point Float32)) (vertex : ℕ) : Option (Point Float) :=
  vertices[vertex]?.map widenPoint

/-- A submesh lists the corners of some triangles in order. Each corner is an index into the points
of the submesh, where it finds the point of its vertex. -/
def Stores (vertices : List (Point Float32)) (triangles : List (Corners ℕ)) (s : Submesh) : Prop :=
  ∃ points : List (Point Float32),
    s.coordinates.toList = points.flatMap (fun p => [p.x, p.y, p.z]) ∧
    List.Forall₂ (fun (index : UInt32) vertex =>
      ∃ p, points[index.toNat]? = some p ∧ vertices[vertex]? = some p)
      s.indices.toList (triangles.flatMap Corners.toList)

/-- Submeshes store some triangles between them: these come in parts, one for each submesh. -/
def Cut (vertices : List (Point Float32)) (triangles : List (Corners ℕ)) (found : List Submesh) :
    Prop :=
  ∃ parts, parts.flatten = triangles ∧ List.Forall₂ (Stores vertices) parts found

section

variable {vertices : List (Point Float32)} {triangles more : List (Corners ℕ)}
  {found added : List Submesh} {s : Submesh}

theorem Stores.append_vertices (h : Stores vertices triangles s) (later : List (Point Float32)) :
    Stores (vertices ++ later) triangles s := by
  obtain ⟨points, hcoordinates, hindices⟩ := h
  refine ⟨points, hcoordinates, hindices.imp fun index vertex => ?_⟩
  rintro ⟨p, hpoint, hvertex⟩
  have hlt := (List.getElem?_eq_some_iff.mp hvertex).1
  exact ⟨p, hpoint, (List.getElem?_append_left hlt).trans hvertex⟩

theorem Cut.append_vertices (h : Cut vertices triangles found) (later : List (Point Float32)) :
    Cut (vertices ++ later) triangles found := by
  obtain ⟨parts, hparts, hstored⟩ := h
  exact ⟨parts, hparts, hstored.imp fun _ _ hs => hs.append_vertices later⟩

theorem Cut.nil : Cut vertices [] [] := ⟨[], rfl, .nil⟩

theorem Stores.cut (h : Stores vertices triangles s) : Cut vertices triangles [s] :=
  ⟨[triangles], by simp, .cons h .nil⟩

theorem Cut.append (h : Cut vertices triangles found) (hmore : Cut vertices more added) :
    Cut vertices (triangles ++ more) (found ++ added) := by
  obtain ⟨parts, rfl, hstored⟩ := h
  obtain ⟨others, rfl, hadded⟩ := hmore
  exact ⟨parts ++ others, List.flatten_append, List.rel_append hstored hadded⟩

/-! ## Merging -/

theorem Stores.exists_points (h : Stores vertices triangles s) :
    ∃ points : List (Point Float32), s.positions = points.map widenPoint ∧
      List.Forall₂ (fun (index : UInt32) vertex =>
        ∃ p, points[index.toNat]? = some p ∧ vertices[vertex]? = some p)
        s.indices.toList (triangles.flatMap Corners.toList) := by
  obtain ⟨points, hcoordinates, hindices⟩ := h
  refine ⟨points, ?_, hindices⟩
  have htriples : s.coordinates.toList =
      (points.map fun p => (⟨p.x, p.y, p.z⟩ : Corners Float32)).flatMap Corners.toList := by
    rw [hcoordinates, List.flatMap_map]
    rfl
  rw [Submesh.positions, triples_eq, htriples, inTriples_flatMap, List.map_map]
  rfl

/-- No face of the submesh is left out. -/
theorem Stores.isBelow (h : Stores vertices triangles s) :
    ∀ face ∈ s.faces, face.isBelow s.size = true := by
  obtain ⟨points, hpositions, hindices⟩ := h.exists_points
  have hlt : ∀ index ∈ s.indices.toList, index.toNat < points.length := by
    have hboth := hindices.imp fun (index : UInt32) vertex ⟨p, hpoint, hvertex⟩ =>
      (⟨(List.getElem?_eq_some_iff.mp hpoint).1, p, hpoint, hvertex⟩ :
        index.toNat < points.length ∧
          ∃ p, points[index.toNat]? = some p ∧ vertices[vertex]? = some p)
    exact ((List.forall₂_and_left _ _).mp hboth).1
  intro face hface
  rw [← s.length_positions, hpositions, List.length_map, Face.isBelow_iff]
  rw [Submesh.faces, triples_eq] at hface
  obtain ⟨c, hc, rfl⟩ := List.mem_map.mp hface
  rw [Corners.toList_map, List.forall_mem_map]
  exact fun index hindex => hlt index (mem_of_mem_inTriples hc hindex)

theorem Stores.skipped_eq_nil (h : Stores vertices triangles s) : s.skipped = [] := by
  rw [Submesh.skipped, List.filter_eq_nil_iff.mpr, List.map_nil]
  intro numbered hnumbered
  simp [h.isBelow _ (List.fst_mem_of_mem_zipIdx hnumbered)]

theorem Stores.corners_eq (h : Stores vertices triangles s) :
    s.corners = triangles.map (Corners.map (pointAt vertices)) := by
  obtain ⟨points, hpositions, hindices⟩ := h.exists_points
  have hkept : s.kept = s.faces := List.filter_eq_self.mpr h.isBelow
  have hcorners : s.indices.toList.map (fun index => s.positions[index.toNat]?) =
      (triangles.flatMap Corners.toList).map (pointAt vertices) := by
    rw [← List.forall₂_eq_eq_eq, List.forall₂_map_left_iff, List.forall₂_map_right_iff]
    refine hindices.imp fun index vertex => ?_
    rintro ⟨p, hpoint, hvertex⟩
    rw [hpositions, List.getElem?_map, hpoint, pointAt, hvertex]
  rw [Submesh.corners, hkept, Submesh.faces, triples_eq, List.map_map]
  refine (inTriples_map _ _).symm.trans ((congrArg inTriples hcorners).trans ?_)
  rw [inTriples_map, inTriples_flatMap]

theorem Cut.merged (h : Cut vertices triangles found) :
    found.flatMap Submesh.skipped = [] ∧
      found.flatMap Submesh.corners = triangles.map (Corners.map (pointAt vertices)) := by
  obtain ⟨parts, rfl, hstored⟩ := h
  induction hstored with
  | nil => exact ⟨rfl, rfl⟩
  | cons hfirst _ ih =>
      rw [List.flatMap_cons, List.flatMap_cons, List.flatten_cons, List.map_append, ih.1, ih.2,
        hfirst.skipped_eq_nil, hfirst.corners_eq]
      exact ⟨rfl, rfl⟩

/-- The triangles that were cut come together again, without warnings. -/
theorem Cut.exists_ofSubmeshes_eq (h : Cut vertices triangles found)
    (blame : ObjError → MeshError) :
    ∃ mesh : Mesh, ofSubmeshes blame (.ok found) = (.ok mesh, []) ∧
      mesh.corners.map (Corners.map some) = triangles.map (Corners.map (pointAt vertices)) := by
  obtain ⟨hskipped, hcorners⟩ := h.merged
  obtain ⟨mesh, hmerge, -, hmesh⟩ := exists_merge_eq found
  refine ⟨mesh, ?_, hmesh.trans hcorners⟩
  rw [ofSubmeshes, hmerge, hskipped]
  rfl

end

theorem exists_of_ofSubmeshes {blame : ObjError → MeshError}
    {outcome : Except ObjError (List Submesh)} {mesh : Mesh} {warnings : List MergeWarning}
    (h : ofSubmeshes blame outcome = (.ok mesh, warnings)) : ∃ found, outcome = .ok found := by
  cases outcome with
  | error cause => exact absurd (congrArg Prod.fst h) nofun
  | ok found => exact ⟨found, rfl⟩

/-- A mesh of submeshes that store the triangles has them all. -/
theorem Cut.corners_of_ofSubmeshes {vertices : List (Point Float32)} {triangles : List (Corners ℕ)}
    {found : List Submesh} (h : Cut vertices triangles found) {blame : ObjError → MeshError}
    {mesh : Mesh} {warnings : List MergeWarning}
    (hmesh : ofSubmeshes blame (.ok found) = (.ok mesh, warnings)) :
    mesh.corners.map (Corners.map some) = triangles.map (Corners.map (pointAt vertices)) := by
  obtain ⟨made, hmade, hcorners⟩ := h.exists_ofSubmeshes_eq blame
  obtain rfl := Except.ok.inj (congrArg Prod.fst (hmade.symm.trans hmesh))
  exact hcorners

end DepthRaster.Mesh
