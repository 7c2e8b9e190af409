import DepthRaster.Obj.File
import DepthRaster.Proofs.Files.Directory
import DepthRaster.Proofs.Obj.Refusals
/-!
# What is asked of readers

Readers of OBJ texts may cut the triangles of a text as they like and number their points in ways of
their own. What is asked of them is stated one text at a time. The readers here do it for texts of
no more than 2³² vertices, since their indices have 32 bits.
-/

namespace DepthRaster.Obj

open Files (Directory)
open Mesh (Corners Cut Submesh)

/-! ## Texts and files -/

/-- A text has its triangles, in one order, whether it is read by itself or from a file with any
libraries beside it. -/
def ReadAlike (readText : TextReader) (readFile : FileReader (StateM Directory)) (text : String) :
    Prop :=
  ∃ vertices triangles,
    (∀ found, readText text = .ok found → Cut vertices triangles found) ∧
    ∀ path d d' found, d.read path = .ok text.toUTF8.data →
      (readFile path).run d = (.ok found, d') → Cut vertices triangles found

theorem fileLines_toUTF8 (text : String) : fileLines text.toUTF8.data = textLines text := by
  rw [fileLines, Files.fromUTF8?_toUTF8]

theorem run_bind_of_run {σ α β : Type} {x : StateM σ α} {f : α → StateM σ β} {s t : σ} {a : α}
    (h : x.run s = (a, t)) : (x >>= f).run s = (f a).run t := by
  rw [StateT.run_bind, h]
  rfl

theorem exists_readFile_eq {d : Directory} {path : Files.Path} {bytes : Files.Bytes}
    (h : d.read path = .ok bytes) :
    ∃ library d', (readFile Directory.access path).run d =
      (submeshes library (fileLines bytes), d') := by
  have hread : (Directory.access.read path).run d = (.ok bytes, d) := by rw [Directory.run_read, h]
  rw [readFile, run_bind_of_run hread]
  exact ⟨_, _, run_bind_of_run rfl⟩

theorem readAlike_of_size {text : String}
    (hsize : (Reading.ofLines (textLines text)).positions.size ≤ 2 ^ 32) :
    ReadAlike readText (readFile Directory.access) text := by
  refine ⟨_, _, fun found hfound => Reading.cut_of_submeshes hfound hsize, ?_⟩
  intro path d d' found hfile hfound
  obtain ⟨library, d'', hrun⟩ := exists_readFile_eq hfile
  rw [fileLines_toUTF8, hfound] at hrun
  exact Reading.cut_of_submeshes (Prod.mk.inj hrun).1.symm hsize

/-! ## Plain texts -/

/-- A plain text is read when every number is that of a vertex before the end of its part, and has
no more than 63 bits. It is refused otherwise. -/
def ChecksBounds (read : TextReader) (text : String) : Prop :=
  ∀ items, List.Forall₂ Says (text.toList.splitOn '\n') items →
    (Resolved 0 items → ∃ found, read text = .ok found ∧
      Cut (verticesOf items) ((facesOf items).map (Corners.map (· - 1))) found) ∧
    (¬ Resolved 0 items → ∃ cause, cause.ComesFrom items ∧ read text = .error cause)

section

variable {library : String → Option (List String)} {lines : List (List Char)} {items : List Item}

theorem exists_submeshes_plain_iff (hsaid : List.Forall₂ Says lines items) :
    (∃ found, submeshes library (lines.map some) = .ok found) ↔ Resolved 0 items := by
  have hstart : Assembly.Awaits [] {} := ⟨rfl, rfl, nofun⟩
  refine Iff.trans ?_ ((finishes_iff library hsaid hstart).trans (and_iff_right nofun))
  constructor
  · rintro ⟨found, hfound⟩
    obtain ⟨last, closed, hrun, hclose, -⟩ := submeshes_eq_ok_iff.mp hfound
    exact ⟨last, closed, hrun, hclose⟩
  · rintro ⟨last, closed, hrun, hclose⟩
    exact ⟨_, submeshes_eq_ok_iff.mpr ⟨last, closed, hrun, hclose, rfl⟩⟩

theorem vertexOf_plainPlace {n : ℕ} (h : 0 < n) : vertexOf (plainPlace n) = n - 1 := by
  obtain ⟨m, rfl⟩ := Nat.exists_eq_succ_of_ne_zero h.ne'
  have hpred : ((m.succ : ℕ) : ℤ) - 1 = m := by omega
  rw [plainPlace, hpred]
  rfl

theorem cut_of_submeshes_plain (hsaid : List.Forall₂ Says lines items)
    (hresolved : Resolved 0 items) (hsize : (verticesOf items).length ≤ 2 ^ 32)
    {found : List Submesh} (h : submeshes library (lines.map some) = .ok found) :
    Cut (verticesOf items) ((facesOf items).map (Corners.map (· - 1))) found := by
  obtain ⟨hvertices, htriangles⟩ := foldl_stepLine_plain hsaid {}
  have hplaces : (Reading.ofLines (lines.map some)).triangles.map (Corners.map vertexOf) =
      (facesOf items).map (Corners.map (· - 1)) := by
    rw [Reading.ofLines,
      htriangles fun face hface n hn => number_lt_of_resolved hresolved hface hn]
    refine (List.map_map ..).trans (List.map_congr_left fun face hface => ?_)
    rw [Function.comp_apply, Corners.map_map]
    exact Corners.map_congr fun n hn => vertexOf_plainPlace (pos_of_mem_facesOf hsaid hface hn)
  have hpositions : (Reading.ofLines (lines.map some)).positions.toList = verticesOf items :=
    hvertices
  rw [← hplaces, ← hpositions]
  refine Reading.cut_of_submeshes h ?_
  rwa [← Array.length_toList, hpositions]

end

theorem checksBounds_readText {text : String}
    (hsize : (text.toList.splitOn '\n').length ≤ 2 ^ 32) : ChecksBounds readText text := by
  intro items hsaid
  have hvertices : (verticesOf items).length ≤ 2 ^ 32 :=
    (List.length_filterMap_le _ items).trans (hsaid.length_eq ▸ hsize)
  constructor
  · intro hresolved
    obtain ⟨found, hfound⟩ := (exists_submeshes_plain_iff hsaid).mpr hresolved
    exact ⟨found, hfound, cut_of_submeshes_plain hsaid hresolved hvertices hfound⟩
  · intro hresolved
    cases hfound : readText text with
    | ok found => exact absurd ((exists_submeshes_plain_iff hsaid).mp ⟨found, hfound⟩) hresolved
    | error cause => exact ⟨cause, submeshes_error hsaid hfound, rfl⟩

end DepthRaster.Obj
