import DepthRaster.CommandLine.Override
import DepthRaster.Mesh.File
import DepthRaster.Render.Renderer
import DepthRaster.Render.Save
/-!
# The program

A run reads its command line and its settings, reads the mesh, draws it and saves the images. The
formats of the files are its parameters.
-/

namespace DepthRaster.Program

open CommandLine (Options OptionsError UsageError)
open Files (Access)
open Mesh (MeshError)
open Render (Renderer SaveFailure)

/-- How the files of a run are read and written. -/
structure Formats (m : Type → Type) where
  settings : Toml.Parser
  models : Obj.FileReader m
  pictures : Image.Codec

inductive Failure where
  | options (cause : OptionsError)
  | mesh (cause : MeshError)
  | settings (cause : SettingsFault)
  | save (cause : SaveFailure)

def Failure.message : Failure → String
  | options cause => cause.message
  | mesh cause => cause.message
  | settings cause => cause.message
  | save cause => cause.message

def Failure.report (failure : Failure) : String :=
  "Error: " ++ Text.Quoted.ofText failure.message

inductive Outcome where
  | done
  | failed (failure : Failure)
  | usage (cause : UsageError)

def Outcome.exitCode : Outcome → UInt32
  | done => 0
  | failed _ => 1
  | usage (.asked _) => 0
  | usage _ => 2

variable {m : Type → Type} [Monad m]

def Formats.standard (access : Access m) : Formats m where
  settings := Toml.parse
  models := Obj.readFile access
  pictures := Image.tgaAndPng

abbrev Run (m : Type → Type) := ExceptT Failure (StateT (List String) m)

def warn (texts : List String) : Run m Unit := modify (· ++ texts)

def check {ε α : Type} (blame : ε → Failure) : Except ε α → Run m α
  | .ok a => return a
  | .error cause => throw (blame cause)

def runOptions (access : Access m) (o : Options) (formats : Formats m := .standard access) :
    Run m Unit := do
  let (settings, settingsWarnings) ← (o.settings access formats.settings : m _)
  warn (settingsWarnings.map (·.message))
  let s ← check .options settings
  let (mesh, mergeWarnings) ← (Mesh.load access ⟨o.model⟩ formats.models : m _)
  warn (mergeWarnings.map (·.message))
  let mesh ← check .mesh mesh
  let (renderer, fallbacks) ← check .settings (Renderer.ofSettings s)
  warn (fallbacks.map (·.message))
  let rendering := renderer.render mesh
  warn (rendering.rejections.map (·.message (·.message)))
  check .save (← (rendering.save access s formats.pictures).run)

def run (access : Access m) (words : List String) (formats : Formats m := .standard access) :
    m (Outcome × List String) := do
  match Options.ofWords words with
  | .error cause => return (.usage cause, [])
  | .ok o =>
    match ← (runOptions access o formats).run.run [] with
    | (.ok (), warnings) => return (.done, warnings)
    | (.error failure, warnings) => return (.failed failure, warnings)

end DepthRaster.Program
