import DepthRaster.Proofs.Numeric.Comparison
import DepthRaster.Proofs.Settings.Valid
import DepthRaster.Proofs.Toml.Strings
import DepthRaster.Settings.Writer
/-!
# The text of settings as a document

The text of settings is a document of four tables when each of its lines has a value, which the
lines of truth values always have.
-/

namespace DepthRaster.Settings

open Numeric.Written (asLiteral)
open Text.Quoted (IsPlain encode)
open Toml (Block Denotes IsBareKey Line Value)

/-! ## Lines and blocks -/

def textLine (key text : String) : Line := .pair key.toList (encode text.toList) (.string text)

def wordLine (key : String) (n : Nat) : Line :=
  .pair key.toList (Nat.toDigits 10 n) (.integer (Int64.ofInt n))

def flagLine (key : String) (b : Bool) : Line :=
  .pair key.toList (booleanText b).toList (.boolean b)

def numberLine (key : String) (x : Float) : Line :=
  .pair key.toList (asLiteral x).toList (.float x)

def modelLines : Option String → Line
  | some path => textLine "obj" path
  | none => .comment " obj = \"path/to/your/model.obj\"".toList

def filesBlock (s : Settings) : Block where
  title := "files"
  lines := [modelLines s.model, textLine "output_dir" s.outputDir, textLine "output" s.colorName,
    textLine "depth_output" s.depthName, textLine "format" s.format, .blank]

def renderBlock (s : Settings) : Block where
  title := "render"
  lines := [wordLine "width" s.width.toNat, wordLine "height" s.height.toNat,
    textLine "projection" s.projection, wordLine "depth_levels" s.depthLevels.toNat,
    flagLine "use_multithreading" s.multithreaded, flagLine "wireframe" s.wireframe,
    flagLine "save_depth" s.saveDepth, .blank]

def cameraBlock (s : Settings) : Block where
  title := "camera"
  lines := [numberLine "rotation_degrees" s.rotationDegrees,
    numberLine "focal_distance" s.focalDistance, .blank]

def colorBlock (s : Settings) : Block where
  title := "color"
  lines := [flagLine "colorize" s.colorize, wordLine "seed" s.seed.toNat,
    textLine "solid" s.solidColor, textLine "wireframe" s.wireColor]

def preamble : List Line := [.comment " 光栅化渲染器配置文件".toList, .blank]

def blocks (s : Settings) : List Block :=
  [s.filesBlock, s.renderBlock, s.cameraBlock, s.colorBlock]

def document (s : Settings) : Toml.Document := ⟨preamble, s.blocks⟩

/-! ## Characters -/

theorem toList_pairLine (key value : String) :
    (pairLine key value).toList = key.toList ++ " = ".toList ++ value.toList ++ ['\n'] := by
  simp [pairLine]

theorem toList_pairLine_ofText (key text : String) :
    (pairLine key (Text.Quoted.ofText text)).toList = (textLine key text).chars := by
  have htext : (Text.Quoted.ofText text).toList = encode text.toList := String.toList_ofList
  rw [toList_pairLine, htext]
  rfl

theorem toList_pairLine_toString (key : String) (n : Nat) :
    (pairLine key (toString n)).toList = (wordLine key n).chars := by
  have htext : (toString n).toList = Nat.toDigits 10 n := Nat.toList_repr
  rw [toList_pairLine, htext]
  rfl

theorem toList_pairLine_booleanText (key : String) (b : Bool) :
    (pairLine key (booleanText b)).toList = (flagLine key b).chars :=
  toList_pairLine key (booleanText b)

theorem toList_pairLine_asLiteral (key : String) (x : Float) :
    (pairLine key (asLiteral x)).toList = (numberLine key x).chars :=
  toList_pairLine key (asLiteral x)

theorem toList_modelLine (model : Option String) :
    (modelLine model).toList = (modelLines model).chars := by
  cases model with
  | none => rfl
  | some path => exact toList_pairLine_ofText "obj" path

section

variable (s : Settings)

theorem toList_filesSection :
    (s.filesSection ++ ["\n"]).flatMap String.toList = s.filesBlock.toLines.flatMap Line.chars := by
  simp only [filesSection, filesBlock, Block.toLines, List.cons_append, List.nil_append,
    List.flatMap_cons, toList_pairLine_ofText, toList_modelLine]
  rfl

theorem toList_renderSection :
    (s.renderSection ++ ["\n"]).flatMap String.toList =
      s.renderBlock.toLines.flatMap Line.chars := by
  simp only [renderSection, renderBlock, Block.toLines, List.cons_append, List.nil_append,
    List.flatMap_cons, toList_pairLine_ofText, toList_pairLine_toString,
    toList_pairLine_booleanText]
  rfl

theorem toList_cameraSection :
    (s.cameraSection ++ ["\n"]).flatMap String.toList =
      s.cameraBlock.toLines.flatMap Line.chars := by
  simp only [cameraSection, cameraBlock, Block.toLines, List.cons_append, List.nil_append,
    List.flatMap_cons, toList_pairLine_asLiteral]
  rfl

theorem toList_colorSection :
    s.colorSection.flatMap String.toList = s.colorBlock.toLines.flatMap Line.chars := by
  simp only [colorSection, colorBlock, Block.toLines, List.flatMap_cons, toList_pairLine_ofText,
    toList_pairLine_toString, toList_pairLine_booleanText]
  rfl

theorem toList_toText : s.toText.toList = s.document.lines.flatMap Line.chars := by
  have hpreamble : (["# 光栅化渲染器配置文件\n", "\n"]).flatMap String.toList =
      preamble.flatMap Line.chars := by decide +kernel
  have hblocks : s.blocks.flatMap Block.toLines = s.filesBlock.toLines ++
      (s.renderBlock.toLines ++ (s.cameraBlock.toLines ++ s.colorBlock.toLines)) := by
    simp only [blocks, List.flatMap_cons, List.flatMap_nil, List.append_nil]
  rw [Toml.Document.lines, document, hblocks, List.flatMap_append, List.flatMap_append,
    List.flatMap_append, List.flatMap_append, ← hpreamble, ← toList_filesSection,
    ← toList_renderSection, ← toList_cameraSection, ← toList_colorSection, toText,
    String.toList_join]
  simp only [List.flatMap_append, List.append_assoc]

end

/-! ## Entries -/

@[simp] theorem toEntry_textLine (key text : String) :
    (textLine key text).toEntry = some (key, .string text) := by
  rw [textLine, Line.toEntry, String.ofList_toList]

@[simp] theorem toEntry_wordLine (key : String) (n : Nat) :
    (wordLine key n).toEntry = some (key, .integer (Int64.ofInt n)) := by
  rw [wordLine, Line.toEntry, String.ofList_toList]

@[simp] theorem toEntry_flagLine (key : String) (b : Bool) :
    (flagLine key b).toEntry = some (key, .boolean b) := by
  rw [flagLine, Line.toEntry, String.ofList_toList]

@[simp] theorem toEntry_numberLine (key : String) (x : Float) :
    (numberLine key x).toEntry = some (key, .float x) := by
  rw [numberLine, Line.toEntry, String.ofList_toList]

@[simp] theorem toEntry_blank : Line.blank.toEntry = none := rfl

@[simp] theorem toEntry_modelLines (model : Option String) :
    (modelLines model).toEntry = model.map fun path => ("obj", .string path) := by
  cases model with
  | none => rfl
  | some path => exact toEntry_textLine "obj" path

theorem entries_filesBlock (s : Settings) :
    s.filesBlock.entries = (s.model.map fun path => ("obj", Value.string path)).toList ++
      [("output_dir", .string s.outputDir), ("output", .string s.colorName),
        ("depth_output", .string s.depthName), ("format", .string s.format)] := by
  simp only [Block.entries, filesBlock, List.filterMap_cons, toEntry_modelLines, toEntry_textLine,
    toEntry_blank, List.filterMap_nil]
  cases s.model with
  | none => rfl
  | some path => rfl

theorem entries_renderBlock (s : Settings) :
    s.renderBlock.entries = [("width", .integer (Int64.ofInt s.width.toNat)),
      ("height", .integer (Int64.ofInt s.height.toNat)), ("projection", .string s.projection),
      ("depth_levels", .integer (Int64.ofInt s.depthLevels.toNat)),
      ("use_multithreading", .boolean s.multithreaded), ("wireframe", .boolean s.wireframe),
      ("save_depth", .boolean s.saveDepth)] := by
  simp only [Block.entries, renderBlock, List.filterMap_cons, toEntry_wordLine, toEntry_textLine,
    toEntry_flagLine, toEntry_blank, List.filterMap_nil]

theorem entries_cameraBlock (s : Settings) :
    s.cameraBlock.entries = [("rotation_degrees", .float s.rotationDegrees),
      ("focal_distance", .float s.focalDistance)] := by
  simp only [Block.entries, cameraBlock, List.filterMap_cons, toEntry_numberLine, toEntry_blank,
    List.filterMap_nil]

theorem entries_colorBlock (s : Settings) :
    s.colorBlock.entries = [("colorize", .boolean s.colorize),
      ("seed", .integer (Int64.ofInt s.seed.toNat)), ("solid", .string s.solidColor),
      ("wireframe", .string s.wireColor)] := by
  simp only [Block.entries, colorBlock, List.filterMap_cons, toEntry_flagLine, toEntry_wordLine,
    toEntry_textLine, List.filterMap_nil]

/-! ## Well-formed blocks -/

def texts (s : Settings) : List String :=
  s.model.toList ++ [s.outputDir, s.colorName, s.depthName, s.format, s.projection, s.solidColor,
    s.wireColor]

/-- Settings whose text says all there is to them: they are valid, their numbers are in the range of
what they are written as, and their texts need no characters given by number. -/
structure Storable (s : Settings) : Prop where
  valid : s.validate = .ok ()
  width : s.width.toNat < 2 ^ 63
  height : s.height.toNat < 2 ^ 63
  seed : s.seed.toNat < 2 ^ 63
  focalDistance : s.focalDistance.isFinite = true ∧ 0 < s.focalDistance
  texts : ∀ text ∈ s.texts, ∀ c ∈ text.toList, IsPlain c

/-- Settings whose text is a document: their whole numbers are in the range of what they are written
as, the others are numbers, and their texts need no characters given by number. -/
structure Legible (s : Settings) : Prop where
  width : s.width.toNat < 2 ^ 63
  height : s.height.toNat < 2 ^ 63
  seed : s.seed.toNat < 2 ^ 63
  rotationDegrees : s.rotationDegrees.isNaN = false
  focalDistance : s.focalDistance.isNaN = false
  texts : ∀ text ∈ s.texts, ∀ c ∈ text.toList, IsPlain c

theorem Storable.legible {s : Settings} (h : s.Storable) : s.Legible where
  width := h.width
  height := h.height
  seed := h.seed
  rotationDegrees :=
    Numeric.isNaN_eq_false_of_isFinite ((validate_eq_ok_iff s).mp h.valid).rotation
  focalDistance := Numeric.isNaN_eq_false_of_isFinite h.focalDistance.1
  texts := h.texts

section

variable {key : String} (hkey : IsBareKey key.toList)

include hkey

theorem isWellFormed_textLine {text : String} (h : ∀ c ∈ text.toList, IsPlain c) :
    (textLine key text).IsWellFormed := by
  have hdenotes := Denotes.string (Toml.spells_flatMap_escape h)
  rw [String.ofList_toList] at hdenotes
  exact ⟨hkey, hdenotes⟩

theorem isWellFormed_wordLine {n : Nat} (h : n < 2 ^ 63) : (wordLine key n).IsWellFormed :=
  ⟨hkey, .integer h⟩

theorem isWellFormed_flagLine (b : Bool) : (flagLine key b).IsWellFormed := by
  cases b with
  | false => exact ⟨hkey, .no⟩
  | true => exact ⟨hkey, .yes⟩

theorem isWellFormed_numberLine {x : Float} (hx : x.isNaN = false) :
    (numberLine key x).IsWellFormed :=
  ⟨hkey, .float hx⟩

end

theorem isWellFormed_modelLines {model : Option String}
    (h : ∀ text ∈ model.toList, ∀ c ∈ text.toList, IsPlain c) :
    (modelLines model).IsWellFormed := by
  cases model with
  | none => exact List.all_eq_true.mp rfl
  | some path => exact isWellFormed_textLine (by decide) (h path List.mem_cons_self)

theorem isHeader_modelLines (model : Option String) : (modelLines model).isHeader = false := by
  cases model with
  | none => rfl
  | some path => rfl

section

variable {s : Settings}

theorem isWellFormed_filesBlock (h : s.Legible) : s.filesBlock.IsWellFormed := by
  have htexts := h.texts
  simp only [texts, List.forall_mem_append, List.forall_mem_cons] at htexts
  obtain ⟨hmodel, hdir, hcolor, hdepth, hformat, -⟩ := htexts
  have hkey : IsBareKey "files".toList := by decide
  refine ⟨hkey, ?_, ?_, ?_⟩
  · simp only [filesBlock, List.forall_mem_cons]
    exact ⟨isWellFormed_modelLines hmodel, isWellFormed_textLine (by decide) hdir,
      isWellFormed_textLine (by decide) hcolor, isWellFormed_textLine (by decide) hdepth,
      isWellFormed_textLine (by decide) hformat, trivial, nofun⟩
  · simp only [filesBlock, List.forall_mem_cons]
    exact ⟨isHeader_modelLines s.model, rfl, rfl, rfl, rfl, rfl, nofun⟩
  · rw [entries_filesBlock]
    cases s.model with
    | none => simp
    | some path => simp

theorem isWellFormed_renderBlock (h : s.Legible) : s.renderBlock.IsWellFormed := by
  have htexts := h.texts
  simp only [texts, List.forall_mem_append, List.forall_mem_cons] at htexts
  obtain ⟨-, -, -, -, -, hprojection, -⟩ := htexts
  have hlevels : s.depthLevels.toNat < 2 ^ 63 :=
    Nat.lt_trans s.depthLevels.toNat_lt (by decide)
  have hkey : IsBareKey "render".toList := by decide
  refine ⟨hkey, ?_, ?_, ?_⟩
  · simp only [renderBlock, List.forall_mem_cons]
    exact ⟨isWellFormed_wordLine (by decide) h.width, isWellFormed_wordLine (by decide) h.height,
      isWellFormed_textLine (by decide) hprojection, isWellFormed_wordLine (by decide) hlevels,
      isWellFormed_flagLine (by decide) s.multithreaded,
      isWellFormed_flagLine (by decide) s.wireframe, isWellFormed_flagLine (by decide) s.saveDepth,
      trivial, nofun⟩
  · simp only [renderBlock, List.forall_mem_cons]
    exact ⟨rfl, rfl, rfl, rfl, rfl, rfl, rfl, rfl, nofun⟩
  · rw [entries_renderBlock]
    simp

theorem isWellFormed_cameraBlock (h : s.Legible) : s.cameraBlock.IsWellFormed := by
  have hkey : IsBareKey "camera".toList := by decide
  refine ⟨hkey, ?_, ?_, ?_⟩
  · simp only [cameraBlock, List.forall_mem_cons]
    exact ⟨isWellFormed_numberLine (by decide) h.rotationDegrees,
      isWellFormed_numberLine (by decide) h.focalDistance, trivial, nofun⟩
  · simp only [cameraBlock, List.forall_mem_cons]
    exact ⟨rfl, rfl, rfl, nofun⟩
  · rw [entries_cameraBlock]
    simp

theorem isWellFormed_colorBlock (h : s.Legible) : s.colorBlock.IsWellFormed := by
  have htexts := h.texts
  simp only [texts, List.forall_mem_append, List.forall_mem_cons] at htexts
  obtain ⟨-, -, -, -, -, -, hsolid, hwire, -⟩ := htexts
  have hkey : IsBareKey "color".toList := by decide
  refine ⟨hkey, ?_, ?_, ?_⟩
  · simp only [colorBlock, List.forall_mem_cons]
    exact ⟨isWellFormed_flagLine (by decide) s.colorize, isWellFormed_wordLine (by decide) h.seed,
      isWellFormed_textLine (by decide) hsolid, isWellFormed_textLine (by decide) hwire, nofun⟩
  · simp only [colorBlock, List.forall_mem_cons]
    exact ⟨rfl, rfl, rfl, rfl, nofun⟩
  · rw [entries_colorBlock]
    simp

theorem preamble_isWellFormed :
    ∀ line ∈ preamble, line.IsWellFormed ∧ line.isFiller = true := by
  have htext : ∀ c ∈ " 光栅化渲染器配置文件".toList, Toml.isTextChar c = true :=
    List.all_eq_true.mp (by decide +kernel)
  rw [preamble, List.forall_mem_cons, List.forall_mem_singleton]
  exact ⟨⟨htext, rfl⟩, trivial, rfl⟩

theorem isWellFormed_document (h : s.Legible) : s.document.IsWellFormed where
  preamble := preamble_isWellFormed
  blocks := by
    simp only [document, blocks, List.forall_mem_cons]
    exact ⟨isWellFormed_filesBlock h, isWellFormed_renderBlock h, isWellFormed_cameraBlock h,
      isWellFormed_colorBlock h, nofun⟩
  titles := by
    have htitles : s.document.blocks.map Block.title = ["files", "render", "camera", "color"] := rfl
    rw [htitles]
    decide

end

end DepthRaster.Settings
