import DepthRaster.Obj.File
import DepthRaster.Proofs.Obj.Parts
/-!
# Readings

A text says the same however it is cut into parts: it has its vertices, and its faces name some of
them. Parts and materials decide which submeshes the faces come in, and nothing else.
-/

namespace DepthRaster.Obj

open DepthRaster.Geometry (Point)
open Mesh (Corners Cut Submesh)
open Assembly (fan triangles)

/-- The vertices of a text, and the triangles of its faces by the places of their vertices. -/
structure Reading where
  positions : Array (Point Float32) := #[]
  triangles : List (Corners (Option ℤ)) := []

namespace Reading

def step (reading : Reading) : Statement → Reading
  | .position point _ => { reading with positions := reading.positions.push point }
  | .face corners =>
    { reading with
      triangles := reading.triangles ++ (fan corners).map (Corners.map fun corner =>
        placeOf reading.positions.size corner.vertex) }
  | _ => reading

/-- Lines that make no statement say nothing. -/
def stepLine (reading : Reading) (line : Line) : Reading :=
  match Statement.ofLine line with
  | .ok statement => reading.step statement
  | .error _ => reading

def ofLines (lines : List Line) : Reading := lines.foldl stepLine {}

theorem ofLines_concat (lines : List Line) (line : Line) :
    ofLines (lines ++ [line]) = (ofLines lines).stepLine line := by
  rw [ofLines, List.foldl_append]
  rfl

theorem size_stepLine_le (reading : Reading) (line : Line) :
    (reading.stepLine line).positions.size ≤ reading.positions.size + 1 := by
  rw [stepLine]
  cases Statement.ofLine line with
  | error cause => exact Nat.le_succ _
  | ok statement =>
      cases statement with
      | position point channels => exact Nat.le_of_eq (Array.size_push _)
      | _ => exact Nat.le_succ _

theorem size_ofLines_le (lines : List Line) : (ofLines lines).positions.size ≤ lines.length := by
  induction lines using List.reverseRecOn with
  | nil => exact Nat.le_refl 0
  | append_singleton lines line ih =>
      rw [ofLines_concat, List.length_append]
      exact Nat.le_trans (size_stepLine_le _ line) (Nat.add_le_add_right ih 1)

end Reading

/-! ## Triangles and vertices -/

theorem fan_map {α β : Type} (f : α → β) (l : List α) :
    fan (l.map f) = (fan l).map (Corners.map f) := by
  cases l with
  | nil => rfl
  | cons first rest =>
      rw [List.map_cons, fan, fan, ← List.map_tail, List.zip_map, List.map_map, List.map_map]
      rfl

theorem triangles_singleton (assembly : Assembly) (corners : List CornerText) :
    triangles [corners.map assembly.cornerOf] =
      (fan corners).map (Corners.map fun corner =>
        placeOf assembly.positions.size corner.vertex) := by
  rw [triangles, List.flatMap_singleton, fan_map, List.map_map]
  rfl

theorem vertexAt_push {positions : Array (Point Float32)} {place : Option ℤ} {p : Point Float32}
    (h : (vertexAt positions place).isSome = true) :
    vertexAt (positions.push p) place = vertexAt positions place := by
  obtain ⟨q, hq⟩ := Option.isSome_iff_exists.mp h
  obtain ⟨vertex, hvertex, hat⟩ := Option.bind_eq_some_iff.mp hq
  have hlt := (Array.getElem?_eq_some_iff.mp hat).1
  rw [vertexAt, vertexAt, hvertex, Option.bind_some, Option.bind_some, Array.getElem?_push_lt hlt,
    Array.getElem?_eq_getElem hlt]

theorem Shown.push {positions : Array (Point Float32)} {closed : List (Corners (Option ℤ))}
    {found : List Submesh} (h : Shown positions closed found) (p : Point Float32) :
    Shown (positions.push p) closed found := by
  refine ⟨fun c hc place hplace => ?_, fun hsize => ?_⟩
  · have hsome := h.isSome c hc place hplace
    rwa [vertexAt_push hsome]
  · rw [Array.size_push] at hsize
    rw [Array.toList_push]
    exact (h.cut (Nat.le_of_succ_le hsize)).append_vertices [p]

/-! ## Assemblies -/

/-- What an assembly has after a reading: the triangles of its submeshes, and those of the faces
that wait. -/
structure Assembly.Tracks (reading : Reading) (assembly : Assembly) : Prop where
  positions : assembly.positions = reading.positions
  submeshes : ∃ closed, reading.triangles = closed ++ triangles assembly.waiting.toList ∧
    Shown reading.positions closed assembly.submeshes.toList

namespace Assembly.Tracks

variable {reading : Reading} {assembly assembly' : Assembly}

theorem empty : Assembly.Tracks {} {} := ⟨rfl, [], rfl, nofun, fun _ => .nil⟩

theorem close (h : assembly.Tracks reading) (hclose : assembly.close = .ok assembly') :
    assembly'.Tracks reading ∧ assembly'.waiting = #[] := by
  obtain ⟨closed, htriangles, hshown⟩ := h.submeshes
  obtain ⟨s, rfl, hadded⟩ := Assembly.close_eq_ok hclose
  refine ⟨⟨h.positions, reading.triangles, (List.append_nil _).symm, ?_⟩, rfl⟩
  rw [htriangles, Array.toList_push]
  exact hshown.append (h.positions ▸ hadded)

theorem closeFaces (h : assembly.Tracks reading) (hclose : assembly.closeFaces = .ok assembly') :
    assembly'.Tracks reading := by
  rw [Assembly.closeFaces] at hclose
  split_ifs at hclose
  · exact Except.ok.inj hclose ▸ h
  · exact (h.close hclose).1

theorem of_same (h : assembly.Tracks reading)
    (hpositions : assembly'.positions = assembly.positions)
    (hwaiting : assembly'.waiting = assembly.waiting)
    (hsubmeshes : assembly'.submeshes = assembly.submeshes) : assembly'.Tracks reading := by
  obtain ⟨closed, hrest⟩ := h.submeshes
  exact ⟨hpositions.trans h.positions, closed, by rwa [hwaiting, hsubmeshes]⟩

theorem step {library : String → Option (List String)} {statement : Statement}
    (h : assembly.Tracks reading) (hstep : assembly.step library statement = .ok assembly') :
    assembly'.Tracks (reading.step statement) := by
  cases statement with
  | nothing | textureCoordinate | normal =>
      obtain rfl := Except.ok.inj hstep
      exact h.of_same rfl rfl rfl
  | position point channels =>
      obtain rfl := Except.ok.inj hstep
      obtain ⟨closed, htriangles, hshown⟩ := h.submeshes
      exact ⟨congrArg (·.push point) h.positions, closed, htriangles, hshown.push point⟩
  | face corners =>
      obtain rfl := Except.ok.inj hstep
      obtain ⟨closed, htriangles, hshown⟩ := h.submeshes
      refine ⟨h.positions, closed, ?_, hshown⟩
      rw [Array.toList_push, triangles_append, triangles_singleton, ← List.append_assoc,
        ← htriangles, h.positions]
      rfl
  | part name =>
      obtain ⟨closed, hclosed, hname⟩ := bind_eq_ok.mp hstep
      obtain rfl := Except.ok.inj hname
      exact (h.closeFaces hclosed).of_same rfl rfl rfl
  | library name =>
      obtain rfl := Except.ok.inj hstep
      exact List.foldlRecOn _ _ h fun assembly h _ _ => h.of_same rfl rfl rfl
  | material name =>
      simp only [Assembly.step] at hstep
      split_ifs at hstep
      · obtain rfl := Except.ok.inj hstep
        exact h.of_same rfl rfl rfl
      · obtain ⟨closed, hclosed, hmaterial⟩ := bind_eq_ok.mp hstep
        obtain rfl := Except.ok.inj hmaterial
        exact (h.closeFaces hclosed).of_same rfl rfl rfl

theorem stepLine {library : String → Option (List String)} {line : Line}
    (h : assembly.Tracks reading) (hstep : assembly.stepLine library line = .ok assembly') :
    assembly'.Tracks (reading.stepLine line) := by
  obtain ⟨statement, hstatement, hstep⟩ := bind_eq_ok.mp hstep
  rw [Reading.stepLine, hstatement]
  exact h.step hstep

theorem ofLines {library : String → Option (List String)} {lines : List Line}
    (hrun : lines.foldlM (Assembly.stepLine library) {} = .ok assembly) :
    assembly.Tracks (Reading.ofLines lines) := by
  refine foldlM_induction (motive := fun lines assembly => assembly.Tracks (Reading.ofLines lines))
    .empty ?_ hrun
  intro done line assembly assembly' _ h hline
  rw [Reading.ofLines_concat]
  exact h.stepLine hline

end Assembly.Tracks

/-! ## Submeshes of a reading -/

theorem submeshes_eq_ok_iff {library : String → Option (List String)} {lines : List Line}
    {found : List Submesh} :
    submeshes library lines = .ok found ↔
      ∃ assembly closed, lines.foldlM (Assembly.stepLine library) {} = .ok assembly ∧
        assembly.close = .ok closed ∧ closed.submeshes.toList = found := by
  simp only [submeshes, bind_eq_ok]
  constructor
  · rintro ⟨assembly, hrun, closed, hclose, hfound⟩
    exact ⟨assembly, closed, hrun, hclose, Except.ok.inj hfound⟩
  · rintro ⟨assembly, closed, hrun, hclose, rfl⟩
    exact ⟨assembly, hrun, closed, hclose, rfl⟩

/-- The submeshes that were read store the triangles of the reading, whatever the libraries are. -/
theorem Reading.cut_of_submeshes {library : String → Option (List String)} {lines : List Line}
    {found : List Submesh} (h : submeshes library lines = .ok found)
    (hsize : (ofLines lines).positions.size ≤ 2 ^ 32) :
    Cut (ofLines lines).positions.toList ((ofLines lines).triangles.map (Corners.map vertexOf))
      found := by
  obtain ⟨assembly, closed, hrun, hclose, rfl⟩ := submeshes_eq_ok_iff.mp h
  obtain ⟨htracks, hwaiting⟩ := (Assembly.Tracks.ofLines hrun).close hclose
  obtain ⟨all, htriangles, hshown⟩ := htracks.submeshes
  obtain rfl : (ofLines lines).triangles = all := by
    rw [htriangles, hwaiting]
    exact List.append_nil all
  exact hshown.cut hsize

end DepthRaster.Obj
