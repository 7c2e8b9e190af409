import DepthRaster.CommandLine.Options
import DepthRaster.Settings.Reader
/-!
# Settings of a command line

The settings of a run are those of the settings file, or the defaults without one, except where the
command line says otherwise. They are checked after that.
-/

namespace DepthRaster.CommandLine

open Files (Access)

inductive OptionsError where
  | badConfig (cause : SettingsError)
  | badSettings (cause : SettingsFault)

def OptionsError.message : OptionsError → String
  | badConfig cause => s!"配置文件加载失败: {cause.message}"
  | badSettings cause => cause.message

namespace Options

/-- Settings with what the command line says. A seed asks for a colour for each face. -/
def override (o : Options) (s : Settings) : Settings :=
  { s with
    model := some o.model
    width := o.width.getD s.width
    height := o.height.getD s.height
    outputDir := o.outputDir.getD s.outputDir
    projection := if o.orthographic then "orthographic" else s.projection
    wireframe := o.wireframe || s.wireframe
    seed := o.seed.getD s.seed
    colorize := o.seed.isSome || s.colorize
    multithreaded := !o.singleThreaded && s.multithreaded }

/-- Settings with what the command line says, if they are valid. -/
def overrideValid (o : Options) (s : Settings) : Except OptionsError Settings :=
  let s := o.override s
  (s.validate.map fun _ => s).mapError .badSettings

variable {m : Type → Type} [Monad m]

def settings (access : Access m) (o : Options) (parse : Toml.Parser := Toml.parse) :
    m (Except OptionsError Settings × List SettingsWarning) := do
  match o.config with
  | none => return (o.overrideValid {}, [])
  | some path =>
    match ← Settings.load access ⟨path⟩ parse with
    | (.error cause, warnings) => return (.error (.badConfig cause), warnings)
    | (.ok s, warnings) => return (o.overrideValid s, warnings)

end Options

end DepthRaster.CommandLine
