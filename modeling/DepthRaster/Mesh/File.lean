import DepthRaster.Obj.File
/-!
# Meshes of texts and files

The submeshes of an OBJ text or of an OBJ file are merged into one mesh.
-/

namespace DepthRaster.Mesh

open Files (Access Path)
open Obj (FileReader ObjError TextReader)

inductive MeshError where
  | notFound (path : Path)
  | badFile (cause : ObjError)
  | badText (cause : ObjError)
  | notMerged (cause : FaceError)

def MeshError.message : MeshError → String
  | notFound path => s!"错误：输入的 OBJ 文件未找到：{path.text}"
  | badFile cause => s!"加载 OBJ 失败: {cause.message}"
  | badText cause => s!"解析 OBJ 失败: {cause.message}"
  | notMerged cause => s!"合并模型失败: {cause.message}"

abbrev Outcome := Except MeshError Mesh × List MergeWarning

def ofSubmeshes (blame : ObjError → MeshError) : Except ObjError (List Submesh) → Outcome
  | .error cause => (.error (blame cause), [])
  | .ok submeshes =>
    match merge submeshes with
    | (mesh, warnings) => (mesh.mapError .notMerged, warnings)

def ofText (text : String) (read : TextReader := Obj.readText) : Outcome :=
  ofSubmeshes .badText (read text)

variable {m : Type → Type} [Monad m]

def load (access : Access m) (path : Path) (read : FileReader m := Obj.readFile access) :
    m Outcome := do
  if !(← access.exists? path) then return (.error (.notFound path), [])
  return ofSubmeshes .badFile (← read path)

end DepthRaster.Mesh
