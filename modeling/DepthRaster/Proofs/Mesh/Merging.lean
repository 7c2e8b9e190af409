import DepthRaster.Mesh.Submesh
import Mathlib.Data.List.Induction
/-!
# What merging keeps

Merging always gives a mesh. Its points are those of the submeshes, one after the other; its faces
are the faces of the submeshes that name points of their own, and their corners are where they were.
-/

namespace DepthRaster.Mesh

open DepthRaster.Geometry (Point)

/-! ## Corners -/

namespace Corners

variable {α β γ : Type}

theorem toList_map (f : α → β) (c : Corners α) : (c.map f).toList = c.toList.map f := rfl

theorem map_map (g : β → γ) (f : α → β) (c : Corners α) : (c.map f).map g = c.map (g ∘ f) := rfl

theorem map_congr {f g : α → β} {c : Corners α} (h : ∀ a ∈ c.toList, f a = g a) :
    c.map f = c.map g := by
  simp only [map, toList, List.forall_mem_cons] at h ⊢
  rw [h.1, h.2.1, h.2.2.1]

theorem map_injective {f : α → β} (h : Function.Injective f) :
    Function.Injective (map f) := by
  intro c d hcd
  simp only [map, mk.injEq] at hcd
  cases c
  cases d
  exact congr (congrArg₂ mk (h hcd.1) (h hcd.2.1)) (h hcd.2.2)

theorem all_iff {test : α → Bool} {c : Corners α} :
    c.all test = true ↔ ∀ a ∈ c.toList, test a = true := by
  simp [all, toList, and_assoc]

end Corners

namespace Face

variable {face : Face} {m n : ℕ}

theorem isBelow_iff : face.isBelow n = true ↔ ∀ i ∈ face.toList, i < n := by
  simp only [isBelow, Corners.all_iff, decide_eq_true_eq]

theorem isBelow_mono (h : m ≤ n) (hface : face.isBelow m = true) : face.isBelow n = true :=
  isBelow_iff.mpr fun i hi => Nat.lt_of_lt_of_le (isBelow_iff.mp hface i hi) h

theorem isBelow_shift (offset : ℕ) (hface : face.isBelow n = true) :
    Face.isBelow (offset + n) (face.map (· + offset)) = true := by
  rw [isBelow_iff, Corners.toList_map]
  intro i hi
  obtain ⟨j, hj, rfl⟩ := List.mem_map.mp hi
  have := isBelow_iff.mp hface j hj
  omega

end Face

/-! ## Triples -/

def inTriples {α : Type} : List α → List (Corners α)
  | first :: second :: third :: rest => ⟨first, second, third⟩ :: inTriples rest
  | _ => []

section

variable {α β : Type}

theorem getElem?_inTriples (l : List α) (i : ℕ) :
    (inTriples l)[i]? =
      l[3 * i]?.bind fun first => l[3 * i + 1]?.bind fun second =>
        l[3 * i + 2]?.map fun third => ⟨first, second, third⟩ := by
  induction l using inTriples.induct generalizing i with
  | case1 first second third rest ih =>
      cases i with
      | zero => rfl
      | succ i => exact ih i
  | case2 l h =>
      have hshort : l.length < 3 := by
        match l with
        | [] | [_] | [_, _] => exact Nat.lt_of_sub_eq_succ rfl
        | first :: second :: third :: rest => exact absurd rfl (h first second third rest)
      have hnone : l[3 * i + 2]? = none := List.getElem?_eq_none (by omega)
      rw [inTriples, hnone]
      · simp
      · exact h

theorem mem_of_mem_inTriples {l : List α} {c : Corners α} (hc : c ∈ inTriples l) {a : α}
    (ha : a ∈ c.toList) : a ∈ l := by
  induction l using inTriples.induct with
  | case1 first second third rest ih =>
      rcases List.mem_cons.mp hc with rfl | hc
      · exact List.mem_append_left rest ha
      · exact List.mem_append_right [first, second, third] (ih hc)
  | case2 l h =>
      match l with
      | [] | [_] | [_, _] => exact absurd hc List.not_mem_nil
      | first :: second :: third :: rest => exact absurd rfl (h first second third rest)

theorem triples_eq (row : Array α) : triples row = inTriples row.toList := by
  refine List.ext_getElem? fun i => ?_
  rw [getElem?_inTriples, triples, List.getElem?_ofFn]
  simp only [Array.getElem?_toList]
  split_ifs with h
  · rw [Array.getElem?_eq_getElem (by omega : 3 * i < row.size),
      Array.getElem?_eq_getElem (by omega : 3 * i + 1 < row.size),
      Array.getElem?_eq_getElem (by omega : 3 * i + 2 < row.size)]
    rfl
  · rw [Array.getElem?_eq_none (by omega : row.size ≤ 3 * i + 2)]
    simp

theorem inTriples_flatMap (l : List (Corners α)) : inTriples (l.flatMap Corners.toList) = l := by
  induction l with
  | nil => rfl
  | cons c l ih => exact congrArg (c :: ·) ih

theorem inTriples_map (f : α → β) (l : List α) :
    inTriples (l.map f) = (inTriples l).map (Corners.map f) := by
  induction l using inTriples.induct with
  | case1 first second third rest ih => exact congrArg (_ :: ·) ih
  | case2 l h =>
      match l with
      | [] | [_] | [_, _] => rfl
      | first :: second :: third :: rest => exact absurd rfl (h first second third rest)

end

/-! ## Faces of a submesh -/

namespace Submesh

theorem length_positions (s : Submesh) : s.positions.length = s.size := by
  rw [positions, List.length_map, triples, List.length_ofFn, size]

/-- The faces that name points of the submesh. -/
def kept (s : Submesh) : List Face := s.faces.filter (·.isBelow s.size)

def skipped (s : Submesh) : List MergeWarning :=
  (s.faces.zipIdx.filter fun numbered => !numbered.1.isBelow s.size).map fun numbered =>
    .skippedFace s.name numbered.2

/-- Where the corners of the kept faces are. -/
def corners (s : Submesh) : List (Corners (Option (Point Float))) :=
  s.kept.map (Corners.map (s.positions[·]?))

end Submesh

/-- The kept faces of submeshes, moved along: the points of the first submesh begin at the offset,
those of each further one where the points before end. -/
def facesFrom (offset : ℕ) : List Submesh → List Face
  | [] => []
  | s :: submeshes =>
    s.kept.map (Corners.map (· + offset)) ++ facesFrom (offset + s.size) submeshes

/-! ## Adding submeshes -/

namespace Merged

theorem foldl_addFace (s : Submesh) (offset : ℕ) (numbered : List (Face × ℕ)) (merged : Merged) :
    numbered.foldl (addFace s offset) merged =
      { positions := merged.positions
        faces := merged.faces ++ ((numbered.filter fun n => n.1.isBelow s.size).map
          fun n => n.1.map (· + offset))
        skipped := merged.skipped ++ ((numbered.filter fun n => !n.1.isBelow s.size).map
          fun n => MergeWarning.skippedFace s.name n.2) } := by
  induction numbered generalizing merged with
  | nil => simp
  | cons n numbered ih =>
      rw [List.foldl_cons, ih]
      cases h : n.1.isBelow s.size with
      | false => simp [addFace, h]
      | true => simp [addFace, h]

theorem add_eq (merged : Merged) (s : Submesh) :
    merged.add s =
      { positions := merged.positions ++ s.positions
        faces := merged.faces ++ s.kept.map (·.map (· + merged.positions.size))
        skipped := merged.skipped ++ s.skipped } := by
  have hkept : s.kept = (s.faces.zipIdx.filter fun n => n.1.isBelow s.size).map Prod.fst := by
    conv_lhs => rw [Submesh.kept, ← List.zipIdx_map_fst 0 s.faces, List.filter_map]
    rfl
  rw [add, foldl_addFace, hkept, List.map_map]
  rfl

def corners (merged : Merged) : List (Corners (Option (Point Float))) :=
  merged.faces.toList.map (Corners.map (merged.positions.toList[·]?))

/-- What merging has made of some submeshes. -/
structure Shows (submeshes : List Submesh) (merged : Merged) : Prop where
  positions : merged.positions.toList = submeshes.flatMap Submesh.positions
  below : ∀ face ∈ merged.faces.toList, face.isBelow merged.positions.size = true
  corners : merged.corners = submeshes.flatMap Submesh.corners
  skipped : merged.skipped.toList = submeshes.flatMap Submesh.skipped

theorem Shows.add {submeshes : List Submesh} {merged : Merged} (h : merged.Shows submeshes)
    (s : Submesh) : (merged.add s).Shows (submeshes ++ [s]) := by
  rw [add_eq]
  constructor
  · rw [Array.toList_appendList, h.positions, List.flatMap_append, List.flatMap_singleton]
  · intro face hface
    rw [Array.toList_appendList, List.mem_append] at hface
    rw [← Array.length_toList, Array.toList_appendList, List.length_append, s.length_positions]
    rcases hface with hface | hface
    · exact Face.isBelow_mono (Nat.le_add_right _ _) (h.below face hface)
    · obtain ⟨own, hown, rfl⟩ := List.mem_map.mp hface
      exact Face.isBelow_shift _ (List.mem_filter.mp hown).2
  · rw [Merged.corners, Array.toList_appendList, Array.toList_appendList, List.map_append,
      List.flatMap_append, List.flatMap_singleton, ← h.corners, List.map_map]
    congr 1
    · refine List.map_congr_left fun face hface => Corners.map_congr fun i hi => ?_
      exact List.getElem?_append_left (Face.isBelow_iff.mp (h.below face hface) i hi)
    · refine List.map_congr_left fun face _ => ?_
      rw [Function.comp_apply, Corners.map_map]
      refine Corners.map_congr fun i _ => ?_
      rw [Function.comp_apply, ← Array.length_toList,
        List.getElem?_append_right (Nat.le_add_left _ _)]
      exact congrArg (s.positions[·]?) (Nat.add_sub_cancel i _)
  · rw [Array.toList_appendList, h.skipped, List.flatMap_append, List.flatMap_singleton]

theorem shows_foldl_add (submeshes : List Submesh) :
    (submeshes.foldl add {}).Shows submeshes := by
  induction submeshes using List.reverseRecOn with
  | nil => exact ⟨rfl, nofun, rfl, rfl⟩
  | append_singleton submeshes s ih =>
      rw [List.foldl_append]
      exact ih.add s

theorem faces_foldl_add (submeshes : List Submesh) (merged : Merged) :
    (submeshes.foldl add merged).faces.toList =
      merged.faces.toList ++ facesFrom merged.positions.size submeshes := by
  induction submeshes generalizing merged with
  | nil => exact (List.append_nil _).symm
  | cons s submeshes ih =>
      have hsize : (merged.add s).positions.size = merged.positions.size + s.size := by
        rw [add_eq, ← Array.length_toList, Array.toList_appendList, List.length_append,
          Array.length_toList, s.length_positions]
      rw [List.foldl_cons, ih, hsize, add_eq, Array.toList_appendList, facesFrom,
        List.append_assoc]

end Merged

/-! ## The mesh -/

theorem ofFaces_eq_ok {positions : Array (Point Float)} {faces : List Face}
    (h : ∀ face ∈ faces, face.isBelow positions.size = true) :
    ofFaces positions faces = .ok ⟨positions, faces, h⟩ := by
  rw [ofFaces]
  split
  · rfl
  · next index hindex =>
      obtain ⟨bound, hbad, -⟩ := List.findIdx?_eq_some_iff_getElem.mp hindex
      simp [h _ (List.getElem_mem bound)] at hbad

theorem length_corners (mesh : Mesh) : mesh.corners.length = mesh.faces.length := by
  rw [corners, List.length_map, List.length_attach]

theorem map_some_corners (mesh : Mesh) :
    mesh.corners.map (Corners.map some) =
      mesh.faces.map (Corners.map (mesh.positions.toList[·]?)) := by
  rw [corners, List.map_map]
  conv_rhs => rw [← List.attach_map_subtype_val mesh.faces, List.map_map]
  refine List.map_congr_left fun ⟨face, h⟩ _ => ?_
  have hbelow := Face.isBelow_iff.mp (mesh.isBelow_of_mem face h)
  have hlookup (i : ℕ) (hi : i ∈ face.toList) :
      have hlt := hbelow i hi
      mesh.positions.toList[i]? = some mesh.positions[i] := by
    rw [Array.getElem?_toList, Array.getElem?_eq_getElem]
  simp only [Function.comp_apply, Corners.map, cornersOf]
  rw [hlookup face.first (by simp [Corners.toList]), hlookup face.second (by simp [Corners.toList]),
    hlookup face.third (by simp [Corners.toList])]

theorem merge_eq (submeshes : List Submesh) :
    merge submeshes =
      (.ok ⟨(submeshes.foldl Merged.add {}).positions,
          (submeshes.foldl Merged.add {}).faces.toList,
          (Merged.shows_foldl_add submeshes).below⟩,
        if (submeshes.flatMap Submesh.skipped).isEmpty then [] else
          submeshes.flatMap Submesh.skipped ++
            [.skippedFaces (submeshes.flatMap Submesh.skipped).length]) := by
  have hshows := Merged.shows_foldl_add submeshes
  simp only [merge, Merged.warnings, hshows.skipped, ofFaces_eq_ok hshows.below]

/-- Merging gives a mesh with all points and all kept faces, and a warning for each other face. -/
theorem exists_merge_eq (submeshes : List Submesh) :
    ∃ mesh : Mesh, merge submeshes =
        (.ok mesh, if (submeshes.flatMap Submesh.skipped).isEmpty then [] else
          submeshes.flatMap Submesh.skipped ++
            [.skippedFaces (submeshes.flatMap Submesh.skipped).length]) ∧
      mesh.positions.toList = submeshes.flatMap Submesh.positions ∧
      mesh.corners.map (Corners.map some) = submeshes.flatMap Submesh.corners := by
  have hshows := Merged.shows_foldl_add submeshes
  exact ⟨_, merge_eq submeshes, hshows.positions, (map_some_corners _).trans hshows.corners⟩

/-! ## Vertices -/

def vertex? (mesh : Mesh) (face corner : ℕ) : Option (Point Float) := do
  let places ← mesh.faces[face]?
  let place ← places.toList[corner]?
  mesh.positions[place]?

def Corners.at? {α : Type} (faces : List (Corners (Option α))) (face corner : ℕ) : Option α := do
  let known ← faces[face]?
  (← known.toList[corner]?)

theorem vertex?_eq (mesh : Mesh) (face corner : ℕ) :
    mesh.vertex? face corner = Corners.at? (mesh.corners.map (Corners.map some)) face corner := by
  rw [map_some_corners, vertex?, Corners.at?, List.getElem?_map]
  cases mesh.faces[face]? with
  | none => rfl
  | some places =>
      change _ = (places.map (mesh.positions.toList[·]?)).toList[corner]?.bind id
      rw [Corners.toList_map, List.getElem?_map]
      cases hplace : places.toList[corner]? with
      | none => simp [hplace]
      | some place => simp [hplace]

theorem isSome_vertex?_iff (mesh : Mesh) (face corner : ℕ) :
    (mesh.vertex? face corner).isSome = true ↔ face < mesh.faces.length ∧ corner < 3 := by
  have hjoin (o : Option (Point Float)) : (o.map some).bind id = o := by cases o <;> rfl
  rw [vertex?_eq, Corners.at?, List.getElem?_map, ← length_corners]
  cases hface : mesh.corners[face]? with
  | none =>
      have hle := List.getElem?_eq_none_iff.mp hface
      exact iff_of_false Bool.false_ne_true fun h => absurd h.1 (Nat.not_lt.mpr hle)
  | some known =>
      have hlt := (List.getElem?_eq_some_iff.mp hface).1
      change ((known.map some).toList[corner]?.bind id).isSome = true ↔ _
      rw [Corners.toList_map, List.getElem?_map, hjoin]
      simp [Corners.toList, hlt]

/-- Merging never fails. Its points are the points of the submeshes, one after the other, and its
faces are those that name points of their own submesh, in order and moved along to where these
points begin; a corner of a face is where it was in its submesh, and no corner is missing. There is
a warning for each face that is left out, by the name of its submesh and its number there, and if
there is one then the last warning is their number. -/
theorem merge_keeps_geometry (submeshes : List Submesh) :
    ∃ mesh : Mesh,
      merge submeshes =
        (.ok mesh, if (submeshes.flatMap Submesh.skipped).isEmpty then [] else
          submeshes.flatMap Submesh.skipped ++
            [.skippedFaces (submeshes.flatMap Submesh.skipped).length]) ∧
      mesh.positions.toList = submeshes.flatMap Submesh.positions ∧
      mesh.faces = facesFrom 0 submeshes ∧
      (∀ face corner, mesh.vertex? face corner =
        Corners.at? (submeshes.flatMap Submesh.corners) face corner) ∧
      ∀ face corner, (mesh.vertex? face corner).isSome = true ↔
        face < mesh.faces.length ∧ corner < 3 := by
  have hshows := Merged.shows_foldl_add submeshes
  refine ⟨_, merge_eq submeshes, hshows.positions, Merged.faces_foldl_add submeshes {},
    fun face corner => ?_, isSome_vertex?_iff _⟩
  rw [vertex?_eq, map_some_corners]
  exact congrArg (Corners.at? · face corner) hshows.corners

/-- Two submeshes, the first of which has a face with a point of the second, a coordinate left over
and an index left over. -/
theorem merge_keeps_geometry_of_left_out :
    let first : Submesh := ⟨"first", #[0, 0, 0, 1, 0, 0, 0, 1, 0, 7], #[0, 1, 5, 2, 0, 1, 2]⟩
    let second : Submesh := ⟨"second", #[2, 0, 0, 3, 0, 0, 2, 1, 0], #[0, 1, 2]⟩
    ∃ mesh : Mesh,
      merge [first, second] = (.ok mesh, [.skippedFace "first" 0, .skippedFaces 1]) ∧
        mesh.faces = [⟨2, 0, 1⟩, ⟨3, 4, 5⟩] ∧ mesh.vertex? 0 0 = some ⟨0, 1, 0⟩ ∧
        mesh.vertex? 1 1 = some ⟨3, 0, 0⟩ := by
  intro first second
  obtain ⟨mesh, hmerge, -, hfaces, hvertex, -⟩ := merge_keeps_geometry [first, second]
  refine ⟨mesh, hmerge.trans (congrArg (Prod.mk _) (by decide +kernel)),
    hfaces.trans (by decide +kernel), ?_, ?_⟩
  · exact (hvertex 0 0).trans (by decide +kernel)
  · exact (hvertex 1 1).trans (by decide +kernel)

end DepthRaster.Mesh
