import DepthRaster.Settings.Reader
/-!
# Keys of settings

Every choice has a key of its own, in one of four sections. A key asks for a kind of value and
decides what becomes of one: it is the choice, or it does not fit and leaves the default with a
warning, or it is refused. What a document says is read off its keys, one by one.
-/

namespace DepthRaster

open Toml (Entries Value)

/-! ## Kinds of values -/

namespace ValueKind

abbrev type : ValueKind → Type
  | string => String
  | boolean => Bool
  | integer => Int64
  | number => Float

/-- What a value holds if it is of a kind. Whole numbers count as numbers too. -/
def read : (kind : ValueKind) → Value → Option kind.type
  | string, .string text => some text
  | boolean, .boolean b => some b
  | integer, .integer n => some n
  | number, .float x => some x
  | number, .integer n => some (Float.ofInt n.toInt)
  | _, _ => none

end ValueKind

namespace Settings

open Color (readRgb)

/-! ## Values at keys -/

/-- What is said about a document: a warning, or a fault, after which it is not read on. -/
inductive Remark where
  | warning (w : SettingsWarning)
  | fault (e : SettingsError)

/-- What becomes of a value at a key. -/
inductive Verdict (α : Type) where
  | chosen (a : α)
  | unfit (w : SettingsWarning)
  | refused (e : SettingsError)

namespace Verdict

variable {α : Type}

def getD : Verdict α → α → α
  | chosen a, _ => a
  | _, default => default

def remarks : Verdict α → List Remark
  | chosen _ => []
  | unfit w => [.warning w]
  | refused e => [.fault e]

end Verdict

/-- A key, the choice without it, and what becomes of values of the kind that it asks for. -/
structure Key (α : Type) where
  name : String
  kind : ValueKind
  default : α
  judge : kind.type → Verdict α

namespace Key

variable {α : Type}

def verdict (key : Key α) (value : Value) : Verdict α :=
  match key.kind.read value with
  | some b => key.judge b
  | none => .refused (.wrongKind key.name key.kind)

def choice (key : Key α) (table : Entries) : α :=
  match table.lookup key.name with
  | some value => (key.verdict value).getD key.default
  | none => key.default

def remarks (key : Key α) (table : Entries) : List Remark :=
  match table.lookup key.name with
  | some value => (key.verdict value).remarks
  | none => []

def plain (name : String) (kind : ValueKind) (default : kind.type) : Key kind.type where
  name := name
  kind := kind
  default := default
  judge := .chosen

def ranged (name : String) (kind : ValueKind) (default : α) (fits : kind.type → Prop)
    [DecidablePred fits] (value : kind.type → α) (warning : kind.type → SettingsWarning) :
    Key α where
  name := name
  kind := kind
  default := default
  judge b := if fits b then .chosen (value b) else .unfit (warning b)

def colored (name default : String) : Key String where
  name := name
  kind := .string
  default := default
  judge text := match readRgb text with
    | .ok _ => .chosen text
    | .error cause => .refused (.badColor name cause)

end Key

/-! ## The keys -/

namespace Key

def model : Key (Option String) where
  name := "obj"
  kind := .string
  default := ({} : Settings).model
  judge text := .chosen (some text)

def outputDir : Key String := plain "output_dir" .string ({} : Settings).outputDir

def colorName : Key String := plain "output" .string ({} : Settings).colorName

def depthName : Key String := plain "depth_output" .string ({} : Settings).depthName

def format : Key String :=
  ranged "format" .string ({} : Settings).format
    (fun text => outputFormats.contains (Text.lowercase text) = true) Text.lowercase
    fun text => .format (Text.lowercase text) ({} : Settings).format

def width : Key UInt64 :=
  ranged "width" .integer ({} : Settings).width (0 < ·) Int64.toUInt64
    (.width · ({} : Settings).width)

def height : Key UInt64 :=
  ranged "height" .integer ({} : Settings).height (0 < ·) Int64.toUInt64
    (.height · ({} : Settings).height)

def projection : Key String where
  name := "projection"
  kind := .string
  default := ({} : Settings).projection
  judge name :=
    if name = "perspective" ∨ name = "orthographic" then .chosen name
    else .refused (.unknownProjection name)

def depthLevels : Key UInt8 :=
  ranged "depth_levels" .integer ({} : Settings).depthLevels (fun n => 1 ≤ n ∧ n ≤ 255)
    (·.toUInt64.toUInt8) (.depthLevels · ({} : Settings).depthLevels)

def multithreaded : Key Bool := plain "use_multithreading" .boolean ({} : Settings).multithreaded

def wireframe : Key Bool := plain "wireframe" .boolean ({} : Settings).wireframe

def saveDepth : Key Bool := plain "save_depth" .boolean ({} : Settings).saveDepth

def rotationDegrees : Key Float :=
  ranged "rotation_degrees" .number ({} : Settings).rotationDegrees (·.isFinite = true) id .rotation

def focalDistance : Key Float :=
  ranged "focal_distance" .number ({} : Settings).focalDistance
    (fun x => (x.isFinite && decide (0 < x)) = true) id
    (.focalDistance · ({} : Settings).focalDistance)

def colorize : Key Bool := plain "colorize" .boolean ({} : Settings).colorize

def seed : Key UInt64 :=
  ranged "seed" .integer ({} : Settings).seed (0 ≤ ·) Int64.toUInt64 (.seed · ({} : Settings).seed)

def solidColor : Key String := colored "solid" ({} : Settings).solidColor

def wireColor : Key String := colored "wireframe" ({} : Settings).wireColor

end Key

abbrev AnyKey := (α : Type) × Key α

/-- The sections and their keys, in the order in which they are read. -/
def sections : List (String × List AnyKey) := [
  ("files", [⟨_, .model⟩, ⟨_, .outputDir⟩, ⟨_, .colorName⟩, ⟨_, .depthName⟩, ⟨_, .format⟩]),
  ("render", [⟨_, .width⟩, ⟨_, .height⟩, ⟨_, .projection⟩, ⟨_, .depthLevels⟩,
    ⟨_, .multithreaded⟩, ⟨_, .wireframe⟩, ⟨_, .saveDepth⟩]),
  ("camera", [⟨_, .rotationDegrees⟩, ⟨_, .focalDistance⟩]),
  ("color", [⟨_, .colorize⟩, ⟨_, .seed⟩, ⟨_, .solidColor⟩, ⟨_, .wireColor⟩])]

/-! ## Documents -/

def tableAt (document : Entries) (title : String) : Entries :=
  ((document.lookup title).bind Value.entries?).getD []

def isMisplaced (document : Entries) (title : String) : Bool :=
  (document.lookup title).any (·.entries?.isNone)

/-- What is said about a document, if all of it is looked at. -/
def remarks (document : Entries) : List Remark :=
  sections.flatMap fun (title, keys) =>
    (if isMisplaced document title then [.fault (.notATable title)] else []) ++
      keys.flatMap (·.2.remarks (tableAt document title))

/-- What is wrong with a document. -/
inductive IsFault (document : Entries) : SettingsError → Prop where
  | misplaced {part : String × List AnyKey} :
      part ∈ sections → isMisplaced document part.1 = true → IsFault document (.notATable part.1)
  | wrongKind {part : String × List AnyKey} {key : AnyKey} {value : Value} :
      part ∈ sections → key ∈ part.2 →
      (tableAt document part.1).lookup key.2.name = some value → key.2.kind.read value = none →
      IsFault document (.wrongKind key.2.name key.2.kind)
  | unknownProjection {name : String} :
      (tableAt document "render").lookup "projection" = some (.string name) →
      ¬ (name = "perspective" ∨ name = "orthographic") →
      IsFault document (.unknownProjection name)
  | badColor {name text : String} {cause : Color.ColorError} :
      name ∈ ["solid", "wireframe"] →
      (tableAt document "color").lookup name = some (.string text) →
      readRgb text = .error cause → IsFault document (.badColor name cause)

/-- The same stands in the place of each section, and at each of its keys. -/
structure SaysSame (a b : Entries) : Prop where
  misplaced : ∀ part ∈ sections, isMisplaced a part.1 = isMisplaced b part.1
  value : ∀ part ∈ sections, ∀ key ∈ part.2,
    (tableAt a part.1).lookup key.2.name = (tableAt b part.1).lookup key.2.name

/-- The settings whose every choice is the one at its own key. -/
def choices (document : Entries) : Settings where
  model := Key.model.choice (tableAt document "files")
  outputDir := Key.outputDir.choice (tableAt document "files")
  colorName := Key.colorName.choice (tableAt document "files")
  depthName := Key.depthName.choice (tableAt document "files")
  format := Key.format.choice (tableAt document "files")
  width := Key.width.choice (tableAt document "render")
  height := Key.height.choice (tableAt document "render")
  projection := Key.projection.choice (tableAt document "render")
  depthLevels := Key.depthLevels.choice (tableAt document "render")
  multithreaded := Key.multithreaded.choice (tableAt document "render")
  wireframe := Key.wireframe.choice (tableAt document "render")
  saveDepth := Key.saveDepth.choice (tableAt document "render")
  rotationDegrees := Key.rotationDegrees.choice (tableAt document "camera")
  focalDistance := Key.focalDistance.choice (tableAt document "camera")
  colorize := Key.colorize.choice (tableAt document "color")
  seed := Key.seed.choice (tableAt document "color")
  solidColor := Key.solidColor.choice (tableAt document "color")
  wireColor := Key.wireColor.choice (tableAt document "color")

end Settings

end DepthRaster
