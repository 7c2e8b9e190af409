import DepthRaster.Obj.Assembly
import DepthRaster.Proofs.Control.Outcomes
import DepthRaster.Proofs.Mesh.Cuts
import Mathlib.Algebra.Group.Nat.Defs
import Mathlib.Data.Int.Notation
import Mathlib.Data.List.Perm.Subperm
import Std.Data.HashMap.Lemmas
/-!
# Parts

When a part ends, its faces become a submesh, which stores the triangles of the faces. Places in a
submesh have 32 bits, so this is only said of up to 2³² vertices.
-/

namespace DepthRaster.Obj

open DepthRaster.Geometry (Point)
open Mesh (Corners Cut Stores Submesh)

def vertexAt (positions : Array (Point Float32)) (place : Option ℤ) : Option (Point Float32) :=
  (place.bind Int.toNat?).bind fun vertex => positions[vertex]?

/-- Whether an index into some points stands for a corner: the corner is there, and the point is
that of its vertex if places are not too large for an index. -/
def Stands (positions : Array (Point Float32)) (points : List (Point Float32)) (i : UInt32)
    (corner : Option ℤ) : Prop :=
  ∃ p, vertexAt positions corner = some p ∧
    (positions.size ≤ 2 ^ 32 → points[i.toNat]? = some p)

theorem Stands.append {positions : Array (Point Float32)} {points : List (Point Float32)}
    {i : UInt32} {corner : Option ℤ} (h : Stands positions points i corner)
    (more : List (Point Float32)) : Stands positions (points ++ more) i corner := by
  obtain ⟨p, hp, hpoint⟩ := h
  refine ⟨p, hp, fun hsize => ?_⟩
  have hlt := (List.getElem?_eq_some_iff.mp (hpoint hsize)).1
  exact (List.getElem?_append_left hlt).trans (hpoint hsize)

/-- What a draft is after some corners: its points are among the vertices, and its indices stand for
the corners. -/
structure Draft.Shows (positions : Array (Point Float32)) (corners : List (Option ℤ))
    (points : List (Point Float32)) (draft : Draft) : Prop where
  coordinates : draft.coordinates.toList = points.flatMap fun p => [p.x, p.y, p.z]
  size : points.length = draft.places.size
  place : ∀ {vertex place : ℕ}, draft.places[vertex]? = some place →
    ∃ p, positions[vertex]? = some p ∧ points[place]? = some p
  indices : List.Forall₂ (Stands positions points) draft.indices.toList corners

theorem size_le_of_lt {places : Std.HashMap ℕ ℕ} {n : ℕ} (h : ∀ vertex ∈ places, vertex < n) :
    places.size ≤ n := by
  have hnodup : places.keys.Nodup := places.nodup_keys
  have hsubset : places.keys ⊆ List.range n := fun vertex hvertex =>
    List.mem_range.mpr (h vertex (Std.HashMap.mem_keys.mp hvertex))
  have hle := (List.subperm_of_subset hnodup hsubset).length_le
  rwa [Std.HashMap.length_keys, List.length_range] at hle

namespace Draft.Shows

variable {positions : Array (Point Float32)} {corners : List (Option ℤ)}
  {points : List (Point Float32)} {draft : Draft}

theorem empty : Draft.Shows positions [] [] {} :=
  ⟨rfl, rfl, fun h => by simp at h, .nil⟩

theorem vertex_lt (h : draft.Shows positions corners points) {vertex : ℕ}
    (hvertex : vertex ∈ draft.places) : vertex < positions.size := by
  obtain ⟨place, hplace⟩ := Option.isSome_iff_exists.mp
    (Std.HashMap.mem_iff_isSome_getElem?.mp hvertex)
  obtain ⟨p, hp, -⟩ := h.place hplace
  exact (Array.getElem?_eq_some_iff.mp hp).1

theorem length_le (h : draft.Shows positions corners points) : points.length ≤ positions.size :=
  h.size ▸ size_le_of_lt fun _ => h.vertex_lt

theorem stands_ofNat {corner : Option ℤ} {vertex place : ℕ} {p : Point Float32}
    (hlength : points.length ≤ positions.size) (hcorner : corner.bind Int.toNat? = some vertex)
    (hvertex : positions[vertex]? = some p) (hpoint : points[place]? = some p) :
    Stands positions points (UInt32.ofNat place) corner := by
  obtain ⟨hlt, -⟩ := List.getElem?_eq_some_iff.mp hpoint
  refine ⟨p, by rw [vertexAt, hcorner, Option.bind_some, hvertex], fun hsize => ?_⟩
  rw [UInt32.toNat_ofNat_of_lt' (by unfold UInt32.size; omega), hpoint]

theorem useAgain (h : draft.Shows positions corners points) {corner : Option ℤ} {vertex place : ℕ}
    (hcorner : corner.bind Int.toNat? = some vertex)
    (hplace : draft.places[vertex]? = some place) :
    Draft.Shows positions (corners ++ [corner]) points
      { draft with indices := draft.indices.push (UInt32.ofNat place) } := by
  obtain ⟨p, hvertex, hpoint⟩ := h.place hplace
  refine ⟨h.coordinates, h.size, h.place, ?_⟩
  rw [Array.toList_push]
  exact List.rel_append h.indices (.cons (stands_ofNat h.length_le hcorner hvertex hpoint) .nil)

theorem useNew (h : draft.Shows positions corners points) {corner : Option ℤ} {vertex : ℕ}
    {p : Point Float32} (hcorner : corner.bind Int.toNat? = some vertex)
    (hplace : draft.places[vertex]? = none) (hvertex : positions[vertex]? = some p) :
    Draft.Shows positions (corners ++ [corner]) (points ++ [p])
      { places := draft.places.insert vertex draft.places.size
        coordinates := ((draft.coordinates.push p.x).push p.y).push p.z
        indices := draft.indices.push (UInt32.ofNat draft.places.size) } := by
  have hnew : (points ++ [p])[draft.places.size]? = some p := by
    rw [← h.size, List.getElem?_concat_length]
  have hfresh : vertex ∉ draft.places := fun hmem => by
    rw [Std.HashMap.mem_iff_isSome_getElem?, hplace] at hmem
    exact absurd hmem (by simp)
  have hlength : (points ++ [p]).length = (draft.places.insert vertex draft.places.size).size := by
    rw [List.length_append, List.length_singleton, Std.HashMap.size_insert, if_neg hfresh, h.size]
  have hbound : (points ++ [p]).length ≤ positions.size := by
    refine hlength ▸ size_le_of_lt fun other hother => ?_
    rcases Std.HashMap.mem_insert.mp hother with heq | hother
    · exact eq_of_beq heq ▸ (Array.getElem?_eq_some_iff.mp hvertex).1
    · exact h.vertex_lt hother
  refine ⟨by simp [h.coordinates], hlength, ?_, ?_⟩
  · intro other place hother
    rw [Std.HashMap.getElem?_insert] at hother
    split at hother
    · next heq =>
        obtain rfl := eq_of_beq heq
        obtain rfl := Option.some.inj hother
        exact ⟨p, hvertex, hnew⟩
    · obtain ⟨q, hq, hpoint⟩ := h.place hother
      have hlt := (List.getElem?_eq_some_iff.mp hpoint).1
      exact ⟨q, hq, (List.getElem?_append_left hlt).trans hpoint⟩
  · rw [Array.toList_push]
    exact List.rel_append (h.indices.imp fun _ _ hstands => hstands.append [p])
      (.cons (stands_ofNat hbound hcorner hvertex hnew) .nil)

end Draft.Shows

namespace Assembly

variable {assembly assembly' : Assembly} {draft draft' : Draft}

/-! ## Corners and faces -/

def Drafts (assembly : Assembly) (corners : List (Option ℤ)) (draft : Draft) : Prop :=
  ∃ points, draft.Shows assembly.positions corners points

theorem useVertex_drafts {corners : List (Option ℤ)}
    {corner : Option ℤ} (h : assembly.Drafts corners draft)
    (huse : assembly.useVertex draft corner = .ok draft') :
    assembly.Drafts (corners ++ [corner]) draft' := by
  obtain ⟨points, hshows⟩ := h
  rw [useVertex] at huse
  split at huse
  · exact absurd huse nofun
  · next vertex hvertex =>
      split at huse
      · next place hplace =>
          obtain rfl := Except.ok.inj huse
          exact ⟨points, hshows.useAgain hvertex hplace⟩
      · next hplace =>
          split at huse
          · exact absurd huse nofun
          · next p hp =>
              split_ifs at huse
              obtain rfl := Except.ok.inj huse
              exact ⟨points ++ [p], hshows.useNew hvertex hplace hp⟩

theorem useCorner_drafts {corners : List (Option ℤ)}
    {corner : Corner} (h : assembly.Drafts corners draft)
    (huse : assembly.useCorner draft corner = .ok draft') :
    assembly.Drafts (corners ++ [corner.vertex]) draft' := by
  obtain ⟨drafted, hvertex, huse⟩ := bind_eq_ok.mp huse
  obtain ⟨-, -, huse⟩ := bind_eq_ok.mp huse
  obtain ⟨-, -, huse⟩ := bind_eq_ok.mp huse
  obtain rfl := Except.ok.inj huse
  exact useVertex_drafts h hvertex

def triangles (faces : List (List Corner)) : List (Corners (Option ℤ)) :=
  (faces.flatMap fan).map (Corners.map Corner.vertex)

theorem triangles_append (faces more : List (List Corner)) :
    triangles (faces ++ more) = triangles faces ++ triangles more := by
  rw [triangles, List.flatMap_append, List.map_append]
  rfl

theorem useFace_drafts {faces : List (List Corner)} {face : List Corner}
    (h : assembly.Drafts ((triangles faces).flatMap Corners.toList) draft)
    (huse : assembly.useFace draft face = .ok draft') :
    assembly.Drafts ((triangles (faces ++ [face])).flatMap Corners.toList) draft' := by
  rw [useFace] at huse
  split_ifs at huse
  have hcorners : (triangles [face]).flatMap Corners.toList =
      ((fan face).flatMap Corners.toList).map Corner.vertex := by
    rw [triangles, List.flatMap_singleton, List.flatMap_map, List.map_flatMap]
    rfl
  rw [triangles_append, List.flatMap_append, hcorners]
  refine foldlM_induction (motive := fun done drafted => assembly.Drafts
    ((triangles faces).flatMap Corners.toList ++ done.map Corner.vertex) drafted) ?_ ?_ huse
  · rwa [List.map_nil, List.append_nil]
  · intro done corner d d' _ hd hcorner
    rw [List.map_append, ← List.append_assoc]
    exact useCorner_drafts hd hcorner

end Assembly

/-! ## Submeshes -/

def vertexOf (place : Option ℤ) : ℕ := (place.bind Int.toNat?).getD 0

theorem getElem?_vertexOf {positions : Array (Point Float32)} {place : Option ℤ}
    {p : Point Float32} (h : vertexAt positions place = some p) :
    positions.toList[vertexOf place]? = some p := by
  obtain ⟨vertex, hvertex, hat⟩ := Option.bind_eq_some_iff.mp h
  rw [vertexOf, hvertex, Option.getD_some, Array.getElem?_toList, hat]

/-- Submeshes made of triangles that are given by the places of their vertices. The places are
there, and the submeshes store the triangles unless places are too large for an index. -/
structure Shown (positions : Array (Point Float32)) (triangles : List (Corners (Option ℤ)))
    (found : List Submesh) : Prop where
  isSome : ∀ c ∈ triangles, ∀ place ∈ c.toList, (vertexAt positions place).isSome = true
  cut : positions.size ≤ 2 ^ 32 →
    Cut positions.toList (triangles.map (Corners.map vertexOf)) found

theorem Shown.append {positions : Array (Point Float32)} {closed more : List (Corners (Option ℤ))}
    {found added : List Submesh} (h : Shown positions closed found)
    (hmore : Shown positions more added) : Shown positions (closed ++ more) (found ++ added) := by
  refine ⟨List.forall_mem_append.mpr ⟨h.isSome, hmore.isSome⟩, fun hsize => ?_⟩
  rw [List.map_append]
  exact (h.cut hsize).append (hmore.cut hsize)

namespace Draft.Shows

variable {positions : Array (Point Float32)} {points : List (Point Float32)} {draft : Draft}
  {triangles : List (Corners (Option ℤ))}

theorem isSome_vertexAt {corners : List (Option ℤ)} (h : draft.Shows positions corners points) :
    ∀ corner ∈ corners, (vertexAt positions corner).isSome = true := by
  have hboth := h.indices.flip.imp fun corner i ⟨p, hp, hpoint⟩ =>
    (⟨Option.isSome_of_eq_some hp, p, hp, hpoint⟩ :
      (vertexAt positions corner).isSome = true ∧ Stands positions points i corner)
  exact ((List.forall₂_and_left _ _).mp hboth).1

theorem stores (h : draft.Shows positions (triangles.flatMap Corners.toList) points)
    (hsize : positions.size ≤ 2 ^ 32) (name : String) :
    Stores positions.toList (triangles.map (Corners.map vertexOf))
      ⟨name, draft.coordinates, draft.indices⟩ := by
  have hcorners : (triangles.map (Corners.map vertexOf)).flatMap Corners.toList =
      (triangles.flatMap Corners.toList).map vertexOf := by
    rw [List.flatMap_map, List.map_flatMap]
    rfl
  refine ⟨points, h.coordinates, ?_⟩
  rw [hcorners, List.forall₂_map_right_iff]
  refine h.indices.imp fun i corner => ?_
  rintro ⟨p, hp, hpoint⟩
  exact ⟨p, hpoint hsize, getElem?_vertexOf hp⟩

theorem shown (h : draft.Shows positions (triangles.flatMap Corners.toList) points)
    (name : String) : Shown positions triangles [⟨name, draft.coordinates, draft.indices⟩] where
  isSome c hc place hplace := h.isSome_vertexAt place (List.mem_flatMap.mpr ⟨c, hc, hplace⟩)
  cut hsize := (h.stores hsize name).cut

end Draft.Shows

/-- Ending a part adds a submesh that stores the faces that waited. -/
theorem Assembly.close_eq_ok {assembly assembly' : Assembly} (h : assembly.close = .ok assembly') :
    ∃ s, assembly' = { assembly with submeshes := assembly.submeshes.push s, waiting := #[] } ∧
      Shown assembly.positions (triangles assembly.waiting.toList) [s] := by
  obtain ⟨draft, hdraft, hclosed⟩ := bind_eq_ok.mp h
  have hdrafts : assembly.Drafts ((triangles assembly.waiting.toList).flatMap Corners.toList)
      draft :=
    foldlM_induction
      (motive := fun done drafted =>
        assembly.Drafts ((triangles done).flatMap Corners.toList) drafted)
      ⟨[], .empty⟩ (fun _ => useFace_drafts) hdraft
  obtain ⟨points, hshows⟩ := hdrafts
  exact ⟨_, (Except.ok.inj hclosed).symm, hshows.shown assembly.name⟩

/-! ## Parts that can end -/

structure Corner.Resolves (positions : Array (Point Float32)) (corner : Corner) : Prop where
  vertex : (vertexAt positions corner.vertex).isSome = true
  texture : corner.texture = none
  normal : corner.normal = none

namespace Assembly

variable {assembly : Assembly}

theorem mem_of_mem_fan {α : Type} {l : List α} {c : Corners α} (hc : c ∈ fan l) {a : α}
    (ha : a ∈ c.toList) : a ∈ l := by
  cases l with
  | nil => exact absurd hc (by simp [fan])
  | cons first rest =>
      obtain ⟨⟨second, third⟩, hpair, rfl⟩ := List.mem_map.mp hc
      obtain ⟨hsecond, hthird⟩ := List.of_mem_zip hpair
      simp only [Corners.toList, List.mem_cons, List.not_mem_nil, or_false] at ha
      rcases ha with rfl | rfl | rfl
      · exact List.mem_cons_self
      · exact List.mem_cons_of_mem first hsecond
      · exact List.mem_cons_of_mem first (List.mem_of_mem_tail hthird)

theorem exists_useCorner (hchannels : assembly.channels = 0) {corner : Corner}
    (h : corner.Resolves assembly.positions) (draft : Draft) :
    ∃ draft', assembly.useCorner draft corner = .ok draft' := by
  obtain ⟨p, hp⟩ := Option.isSome_iff_exists.mp h.vertex
  obtain ⟨vertex, hvertex, hat⟩ := Option.bind_eq_some_iff.mp hp
  have huse : ∃ draft', assembly.useVertex draft corner.vertex = .ok draft' := by
    simp only [useVertex, hvertex, hat, hchannels]
    split
    · exact ⟨_, rfl⟩
    · exact ⟨_, rfl⟩
  obtain ⟨draft', hdraft⟩ := huse
  exact ⟨draft', by rw [useCorner, hdraft, h.texture, h.normal]; rfl⟩

theorem exists_close (hchannels : assembly.channels = 0)
    (h : ∀ face ∈ assembly.waiting.toList, face ≠ [] ∧
      ∀ corner ∈ face, corner.Resolves assembly.positions) :
    ∃ closed, assembly.close = .ok closed := by
  have hfaces : ∃ draft, assembly.waiting.toList.foldlM assembly.useFace {} = .ok draft := by
    refine foldlM_total (fun face hface draft => ?_) _
    obtain ⟨hne, hcorners⟩ := h face hface
    rw [useFace, if_neg (by simpa using hne)]
    refine foldlM_total (fun corner hcorner draft => ?_) draft
    obtain ⟨triangle, htriangle, hmem⟩ := List.mem_flatMap.mp hcorner
    exact exists_useCorner hchannels (hcorners corner (mem_of_mem_fan htriangle hmem)) draft
  obtain ⟨draft, hdraft⟩ := hfaces
  exact ⟨_, bind_eq_ok.mpr ⟨draft, hdraft, rfl⟩⟩

end Assembly

end DepthRaster.Obj
