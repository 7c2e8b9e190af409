import DepthRaster.Settings.Basic
import DepthRaster.Text.Lowercase
import DepthRaster.Toml.Document
import DepthRaster.Files.Access
/-!
# Reading settings

A settings file has the sections `files`, `render`, `camera` and `color`. Values of a wrong kind are
errors, as are unknown projections and colours that cannot be read. Values out of range leave the
default and give a warning. Unknown keys and sections are left alone.
-/

namespace DepthRaster

open Color (ColorError readRgb)
open Numeric.Written (inMessage)
open Toml (Value Entries)

inductive ValueKind where
  | string
  | boolean
  | integer
  | number
deriving DecidableEq, Repr

def ValueKind.name : ValueKind → String
  | string => "字符串"
  | boolean => "布尔值"
  | integer => "整数"
  | number => "数字"

inductive SettingsError where
  | unreadable (cause : Files.OsError)
  | notUtf8
  /-- The text is no TOML. -/
  | malformed
  | notATable (title : String)
  | wrongKind (key : String) (expected : ValueKind)
  | unknownProjection (name : String)
  | badColor (key : String) (cause : ColorError)

def SettingsError.message : SettingsError → String
  | unreadable cause => s!"读取配置文件失败: {cause.message}"
  | notUtf8 => "读取配置文件失败: stream did not contain valid UTF-8"
  | malformed => "解析TOML失败"
  | notATable title => s!"[{title}] 必须是一个表"
  | wrongKind key expected => s!"配置项 '{key}' 应为{expected.name}"
  | unknownProjection name => s!"未知的投影类型: {name}"
  | badColor key cause => s!"[color] {key}: {cause.message}"

inductive SettingsWarning where
  | format (given used : String)
  | width (given : Int64) (used : UInt64)
  | height (given : Int64) (used : UInt64)
  | depthLevels (given : Int64) (used : UInt8)
  | rotation (given : Float)
  | focalDistance (given used : Float)
  | seed (given : Int64) (used : UInt64)

def SettingsWarning.message : SettingsWarning → String
  | format given used => s!"不支持的输出格式 '{given}', 使用默认值 {used}"
  | width given used => s!"无效的宽度 {given}, 使用默认值 {used.toNat}"
  | height given used => s!"无效的高度 {given}, 使用默认值 {used.toNat}"
  | depthLevels given used => s!"无效的深度量化级别 {given}, 使用默认值 {used.toNat}"
  | rotation given => s!"无效的旋转角 {inMessage given}, 使用默认值"
  | focalDistance given used => s!"无效的焦距 {inMessage given}, 使用默认值 {inMessage used}"
  | seed given used => s!"颜色种子不能为负数: {given}, 使用默认值 {used.toNat}"

namespace Settings

/-- Reading with warnings, which errors leave standing. -/
abbrev Reading := ExceptT SettingsError (StateM (List SettingsWarning))

def warn (w : SettingsWarning) : Reading Unit := modify (· ++ [w])

/-! ## Values of keys -/

def get? {α : Type} (expected : ValueKind) (rule : Value → Option α) (table : Entries)
    (key : String) : Reading (Option α) :=
  match table.lookup key with
  | none => return none
  | some value => match rule value with
    | some a => return some a
    | none => throw (.wrongKind key expected)

def getString : Entries → String → Reading (Option String) :=
  get? .string fun
    | .string text => some text
    | _ => none

def getBoolean : Entries → String → Reading (Option Bool) :=
  get? .boolean fun
    | .boolean b => some b
    | _ => none

def getInteger : Entries → String → Reading (Option Int64) :=
  get? .integer fun
    | .integer n => some n
    | _ => none

/-- Whole numbers count as numbers too. -/
def getNumber : Entries → String → Reading (Option Float) :=
  get? .number fun
    | .float x => some x
    | .integer n => some (Float.ofInt n.toInt)
    | _ => none

def withKey {α : Type} (get : Entries → String → Reading (Option α)) (table : Entries)
    (key : String) (change : Settings → α → Reading Settings) (s : Settings) :
    Reading Settings := do
  match ← get table key with
  | none => return s
  | some a => change s a

/-! ## Sections -/

def readFiles (table : Entries) (s : Settings) : Reading Settings := do
  let s ← withKey getString table "obj" (fun s text => return { s with model := some text }) s
  let s ← withKey getString table "output_dir" (fun s text => return { s with outputDir := text }) s
  let s ← withKey getString table "output" (fun s text => return { s with colorName := text }) s
  let s ← withKey getString table "depth_output"
    (fun s text => return { s with depthName := text }) s
  withKey getString table "format" (fun s text => do
    let format := Text.lowercase text
    if outputFormats.contains format then return { s with format }
    warn (.format format s.format)
    return s) s

def readRender (table : Entries) (s : Settings) : Reading Settings := do
  let s ← withKey getInteger table "width" (fun s n => do
    if 0 < n then return { s with width := n.toUInt64 }
    warn (.width n s.width)
    return s) s
  let s ← withKey getInteger table "height" (fun s n => do
    if 0 < n then return { s with height := n.toUInt64 }
    warn (.height n s.height)
    return s) s
  let s ← withKey getString table "projection" (fun s name => do
    if name = "perspective" ∨ name = "orthographic" then return { s with projection := name }
    throw (.unknownProjection name)) s
  let s ← withKey getInteger table "depth_levels" (fun s n => do
    if 1 ≤ n ∧ n ≤ 255 then return { s with depthLevels := n.toUInt64.toUInt8 }
    warn (.depthLevels n s.depthLevels)
    return s) s
  let s ← withKey getBoolean table "use_multithreading"
    (fun s b => return { s with multithreaded := b }) s
  let s ← withKey getBoolean table "wireframe" (fun s b => return { s with wireframe := b }) s
  withKey getBoolean table "save_depth" (fun s b => return { s with saveDepth := b }) s

def readCamera (table : Entries) (s : Settings) : Reading Settings := do
  let s ← withKey getNumber table "rotation_degrees" (fun s x => do
    if x.isFinite then return { s with rotationDegrees := x }
    warn (.rotation x)
    return s) s
  withKey getNumber table "focal_distance" (fun s x => do
    if x.isFinite && decide (0 < x) then return { s with focalDistance := x }
    warn (.focalDistance x s.focalDistance)
    return s) s

def checkColor (key text : String) : Reading Unit :=
  match readRgb text with
  | .ok _ => return ()
  | .error cause => throw (.badColor key cause)

def readColor (table : Entries) (s : Settings) : Reading Settings := do
  let s ← withKey getBoolean table "colorize" (fun s b => return { s with colorize := b }) s
  let s ← withKey getInteger table "seed" (fun s n => do
    if 0 ≤ n then return { s with seed := n.toUInt64 }
    warn (.seed n s.seed)
    return s) s
  let s ← withKey getString table "solid" (fun s text => do
    checkColor "solid" text
    return { s with solidColor := text }) s
  withKey getString table "wireframe" (fun s text => do
    checkColor "wireframe" text
    return { s with wireColor := text }) s

def withSection (document : Entries) (name : String)
    (read : Entries → Settings → Reading Settings) (s : Settings) : Reading Settings :=
  match document.lookup name with
  | none => return s
  | some value => match value.entries? with
    | none => throw (.notATable name)
    | some table => read table s

/-- Reads the sections one after the other, over the defaults. -/
def readDocument (document : Entries) : Reading Settings := do
  let s ← withSection document "files" readFiles {}
  let s ← withSection document "render" readRender s
  let s ← withSection document "camera" readCamera s
  withSection document "color" readColor s

/-- Reads a text. A document that is no table has no sections. -/
def readText (text : String) (parse : Toml.Parser := Toml.parse) : Reading Settings :=
  match parse text with
  | none => throw .malformed
  | some document => readDocument (document.entries?.getD [])

def Reading.outcome {α : Type} (r : Reading α) : Except SettingsError α × List SettingsWarning :=
  r.run.run []

abbrev Outcome := Except SettingsError Settings × List SettingsWarning

def ofText (text : String) (parse : Toml.Parser := Toml.parse) : Outcome :=
  (readText text parse).outcome

def ofBytes (bytes : Files.Bytes) (parse : Toml.Parser := Toml.parse) : Outcome :=
  match String.fromUTF8? ⟨bytes⟩ with
  | none => (.error .notUtf8, [])
  | some text => ofText text parse

def load {m : Type → Type} [Monad m] (access : Files.Access m) (path : Files.Path)
    (parse : Toml.Parser := Toml.parse) : m Outcome := do
  match ← access.read path with
  | .error cause => return (.error (.unreadable cause), [])
  | .ok bytes => return ofBytes bytes parse

end Settings

end DepthRaster
