import DepthRaster.Proofs.Obj.Backward
import DepthRaster.Proofs.Obj.Readers
import DepthRaster.Render.Renderer
/-!
# Meshes of texts

A text gives the same triangles whether it is read by itself or from a file with libraries beside
it. A plain text gives all of its triangles or, for one vertex that is not there, no mesh at all.
-/

namespace DepthRaster.Mesh

open DepthRaster.Geometry (Point)
open Files (Directory Path)
open Obj
open Render (Renderer)

/-! ## Files -/

theorem load_eq {read : FileReader (StateM Directory)} {d : Directory} {path : Path}
    {bytes : Files.Bytes} (h : d.read path = .ok bytes) :
    (load Directory.access path read).run d =
      (ofSubmeshes .badFile ((read path).run d).1, ((read path).run d).2) := by
  rw [load, run_bind_of_run (Directory.run_exists?_of_read h), Bool.not_true,
    if_neg Bool.false_ne_true]
  rfl

/-- A text has the same triangles in the same order when it is read from a file, whatever libraries
lie beside the file, and when it is read by itself, so every renderer draws the same. -/
theorem load_corners_eq {readText : TextReader} {readFile : FileReader (StateM Directory)}
    {text : String} {path : Path} {d d' : Directory} {loaded parsed : Mesh}
    {warnings warnings' : List MergeWarning} (halike : ReadAlike readText readFile text)
    (hfile : d.read path = .ok text.toUTF8.data)
    (hload : (load Directory.access path readFile).run d = ((.ok loaded, warnings), d'))
    (hparse : ofText text readText = (.ok parsed, warnings')) :
    loaded.faces.length = parsed.faces.length ∧ loaded.corners = parsed.corners ∧
      ∀ renderer : Renderer, renderer.render loaded = renderer.render parsed := by
  obtain ⟨vertices, triangles, htext, hfiles⟩ := halike
  rw [load_eq hfile] at hload
  obtain ⟨hmade, -⟩ := Prod.mk.inj hload
  obtain ⟨found, hfound⟩ := exists_of_ofSubmeshes hmade
  obtain ⟨found', hfound'⟩ := exists_of_ofSubmeshes hparse
  have hcut := hfiles path d _ found hfile (Prod.ext hfound rfl)
  have hcut' := htext found' hfound'
  rw [hfound] at hmade
  rw [ofText, hfound'] at hparse
  have hcorners : loaded.corners = parsed.corners :=
    List.map_injective_iff.mpr (Corners.map_injective fun _ _ => Option.some.inj)
      ((hcut.corners_of_ofSubmeshes hmade).trans (hcut'.corners_of_ofSubmeshes hparse).symm)
  refine ⟨?_, hcorners, fun renderer => ?_⟩
  · rw [← length_corners, ← length_corners, hcorners]
  · rw [Renderer.render, hcorners]
    rfl

/-- Two triangles of two materials. -/
def materialText : String :=
  "mtllib m.mtl\nv 0 0 0\nv 1 0 0\nv 0 1 0\nusemtl a\nf 1 2 3\nusemtl b\nf 3 2 1\n"

/-- The text in a file, beside the library of its materials. -/
def materialDirectory : Directory where
  entries := [
    ("m.obj", .file materialText.toUTF8.data),
    ("m.mtl", .file "newmtl a\nnewmtl b\n".toUTF8.data)]

theorem refersBack_materialText : RefersBack 0 (textLines materialText) := by
  have hlines : textLines materialText =
      ["mtllib m.mtl", "v 0 0 0", "v 1 0 0", "v 0 1 0", "usemtl a", "f 1 2 3", "usemtl b",
        "f 3 2 1", ""].map fun line => some line.toList := by
    decide +kernel
  have hzero : number? ['0'] = some 0 := by decide +kernel
  have hone : number? ['1'] = some 1 := by decide +kernel
  have hvertex {line x y z : List Char} {p : Point Float32} (hx : number? x = some p.x)
      (hy : number? y = some p.y) (hz : number? z = some p.z)
      (words : Text.words line = [['v'], x, y, z]) :
      Statement.ofLine (some line) = .ok (.position p 0) := read_vertex words hx hy hz
  rw [hlines]
  exact ⟨.library "m.mtl", rfl, trivial,
    .position ⟨0, 0, 0⟩ 0, hvertex hzero hzero hzero (by decide +kernel), rfl,
    .position ⟨1, 0, 0⟩ 0, hvertex hone hzero hzero (by decide +kernel), rfl,
    .position ⟨0, 1, 0⟩ 0, hvertex hzero hone hzero (by decide +kernel), rfl,
    .material "a", rfl, trivial, .face ([1, 2, 3].map writtenCorner), rfl, by decide,
    .material "b", rfl, trivial, .face ([3, 2, 1].map writtenCorner), rfl, by decide,
    .nothing, rfl, trivial, trivial⟩

theorem load_corners_eq_of_materials :
    ∃ loaded parsed d', (load Directory.access ⟨"m.obj"⟩ (readFile Directory.access)).run
          materialDirectory = ((.ok loaded, []), d') ∧
      ofText materialText readText = (.ok parsed, []) ∧ loaded.corners = parsed.corners ∧
      parsed.corners.map (Corners.map some) =
        [⟨some ⟨0, 0, 0⟩, some ⟨1, 0, 0⟩, some ⟨0, 1, 0⟩⟩,
          ⟨some ⟨0, 1, 0⟩, some ⟨1, 0, 0⟩, some ⟨0, 0, 0⟩⟩] ∧
      ∀ renderer : Renderer, renderer.render loaded = renderer.render parsed := by
  have hfile : materialDirectory.read ⟨"m.obj"⟩ = .ok materialText.toUTF8.data := by
    decide +kernel
  have hsize : (Reading.ofLines (textLines materialText)).positions.size ≤ 2 ^ 32 :=
    (Reading.size_ofLines_le _).trans (by decide +kernel)
  obtain ⟨library, d', hrun⟩ := exists_readFile_eq hfile
  rw [fileLines_toUTF8] at hrun
  obtain ⟨found, hfound⟩ := exists_submeshes_eq_ok refersBack_materialText library
  obtain ⟨loaded, hloaded, -⟩ :=
    (Reading.cut_of_submeshes hfound hsize).exists_ofSubmeshes_eq .badFile
  obtain ⟨found', hfound'⟩ := exists_submeshes_eq_ok refersBack_materialText fun _ => none
  obtain ⟨parsed, hparsed, hcorners⟩ :=
    (Reading.cut_of_submeshes hfound' hsize).exists_ofSubmeshes_eq .badText
  have hload : (load Directory.access ⟨"m.obj"⟩ (readFile Directory.access)).run
      materialDirectory = ((.ok loaded, []), d') := by rw [load_eq hfile, hrun, hfound, hloaded]
  have hparse : ofText materialText readText = (.ok parsed, []) := by
    rw [ofText, readText, hfound', hparsed]
  obtain ⟨-, hsame, hrender⟩ := load_corners_eq (readAlike_of_size hsize) hfile hload hparse
  exact ⟨loaded, parsed, d', hload, hparse, hsame, hcorners.trans (by decide +kernel), hrender⟩

/-! ## Plain texts -/

def pointOf (items : List Item) (n : ℕ) : Option (Point Float) :=
  pointAt (verticesOf items) (n - 1)

/-- A mesh has the faces of a plain text in order, with their corners where the vertices are. -/
def HasFaces (items : List Item) (mesh : Mesh) : Prop :=
  mesh.corners.map (Corners.map some) = (facesOf items).map (Corners.map (pointOf items))

theorem Cut.exists_hasFaces {items : List Item} {found : List Submesh}
    (h : Cut (verticesOf items) ((facesOf items).map (Corners.map (· - 1))) found)
    (blame : ObjError → MeshError) :
    ∃ mesh : Mesh, ofSubmeshes blame (.ok found) = (.ok mesh, []) ∧ HasFaces items mesh := by
  obtain ⟨mesh, hmesh, hcorners⟩ := h.exists_ofSubmeshes_eq blame
  refine ⟨mesh, hmesh, hcorners.trans ?_⟩
  rw [List.map_map]
  rfl

/-- A plain text gives the mesh of all of its faces, in order and without warnings, when each face
has numbers of vertices that come before the end of its part. Otherwise it gives no mesh: a face
with a number beyond those is not left out with a warning, but spoils the text. -/
theorem ofText_plain {read : TextReader} {text : String} {items : List Item}
    (hread : ChecksBounds read text)
    (hsaid : List.Forall₂ Says (text.toList.splitOn '\n') items) :
    (Resolved 0 items → ∃ mesh : Mesh, ofText text read = (.ok mesh, []) ∧ HasFaces items mesh) ∧
      (¬ Resolved 0 items → ∃ cause, cause.ComesFrom items ∧
        ofText text read = (.error (.badText cause), [])) := by
  obtain ⟨haccepts, hrefuses⟩ := hread items hsaid
  constructor
  · intro hresolved
    obtain ⟨found, hfound, hcut⟩ := haccepts hresolved
    obtain ⟨mesh, hmesh, hfaces⟩ := hcut.exists_hasFaces .badText
    exact ⟨mesh, by rw [ofText, hfound, hmesh], hfaces⟩
  · intro hresolved
    obtain ⟨cause, hcause, herror⟩ := hrefuses hresolved
    exact ⟨cause, hcause, by rw [ofText, herror]; rfl⟩

def triangleText : String := "v 0 0 0\nv 1 0 0\nv 0 1 0\nf 1 2 3\n"

def triangleItems : List Item :=
  [.vertex ⟨0, 0, 0⟩, .vertex ⟨1, 0, 0⟩, .vertex ⟨0, 1, 0⟩, .face ⟨1, 2, 3⟩]

/-- The triangle, and a face with a number beyond its vertices. -/
def beyondText : String := triangleText ++ "f 1 2 9\n"

def beyondItems : List Item := triangleItems ++ [.face ⟨1, 2, 9⟩, .blank]

theorem says_face {line : List Char} {a b c : ℕ}
    (h : Text.words line = [['f'], Nat.toDigits 10 a, Nat.toDigits 10 b, Nat.toDigits 10 c])
    (ha : 0 < a) (hb : 0 < b) (hc : 0 < c) : Says line (.face ⟨a, b, c⟩) := by
  have hnumeral {n : ℕ} (hn : 0 < n) : Numeral (Nat.toDigits 10 n) n :=
    ⟨fun _ => Numeric.Whole.isDigit_of_mem_toDigits, Numeric.Whole.ofDigits_toDigits n, hn⟩
  exact .face h (hnumeral ha) (hnumeral hb) (hnumeral hc)

theorem says_triangle :
    List.Forall₂ Says ["v 0 0 0".toList, "v 1 0 0".toList, "v 0 1 0".toList, "f 1 2 3".toList]
      triangleItems := by
  have hzero : number? ['0'] = some 0 := by decide +kernel
  have hone : number? ['1'] = some 1 := by decide +kernel
  have hface : Says "f 1 2 3".toList (.face ⟨1, 2, 3⟩) :=
    says_face (by decide +kernel) (by decide) (by decide) (by decide)
  refine .cons (.vertex ?_ hzero hzero hzero) <| .cons (.vertex ?_ hone hzero hzero) <|
    .cons (.vertex ?_ hzero hone hzero) <| .cons hface .nil
  all_goals decide +kernel

theorem says_triangleText :
    List.Forall₂ Says (triangleText.toList.splitOn '\n') (triangleItems ++ [.blank]) := by
  have hlines : triangleText.toList.splitOn '\n' =
      ["v 0 0 0".toList, "v 1 0 0".toList, "v 0 1 0".toList, "f 1 2 3".toList] ++ [[]] := by
    decide +kernel
  rw [hlines]
  exact List.rel_append says_triangle (.cons (.blank rfl) .nil)

theorem says_beyondText :
    List.Forall₂ Says (beyondText.toList.splitOn '\n') beyondItems := by
  have hlines : beyondText.toList.splitOn '\n' =
      ["v 0 0 0".toList, "v 1 0 0".toList, "v 0 1 0".toList, "f 1 2 3".toList] ++
        ["f 1 2 9".toList, []] := by
    decide +kernel
  have hface : Says "f 1 2 9".toList (.face ⟨1, 2, 9⟩) :=
    says_face (by decide +kernel) (by decide) (by decide) (by decide)
  rw [hlines]
  exact List.rel_append says_triangle (.cons hface (.cons (.blank rfl) .nil))

theorem ofText_plain_of_triangle :
    (∃ mesh : Mesh, ofText triangleText readText = (.ok mesh, []) ∧
      mesh.corners.map (Corners.map some) =
        [⟨some ⟨0, 0, 0⟩, some ⟨1, 0, 0⟩, some ⟨0, 1, 0⟩⟩]) ∧
      ∃ cause, ofText beyondText readText = (.error (.badText cause), []) := by
  have htriangle : ChecksBounds readText triangleText := checksBounds_readText (by decide +kernel)
  have hbeyond : ChecksBounds readText beyondText := checksBounds_readText (by decide +kernel)
  obtain ⟨mesh, hmesh, hfaces⟩ := (ofText_plain htriangle says_triangleText).1 (by decide)
  obtain ⟨cause, -, hrefused⟩ := (ofText_plain hbeyond says_beyondText).2 (by decide)
  exact ⟨⟨mesh, hmesh, hfaces.trans (by decide +kernel)⟩, cause, hrefused⟩

/-- The face with a number beyond costs the triangle before it too. -/
theorem ofText_beyondText :
    List.Forall₂ Says (beyondText.toList.splitOn '\n') beyondItems ∧
      ChecksBounds readText beyondText ∧
      ∀ read : TextReader, ChecksBounds read beyondText →
        ofText beyondText read = (.error (.badText .vertexOutOfBounds), []) := by
  refine ⟨says_beyondText, checksBounds_readText (by decide +kernel), fun read hread => ?_⟩
  obtain ⟨cause, hcause, herror⟩ := (hread beyondItems says_beyondText).2 (by decide)
  have hsmall : ∀ face ∈ facesOf beyondItems, ∀ n ∈ face.toList, n < 2 ^ 63 := by decide
  rcases hcause with rfl | ⟨-, face, hface, hlarge⟩
  · rw [ofText, herror]
    rfl
  · exact absurd (hsmall face hface) hlarge

end DepthRaster.Mesh
