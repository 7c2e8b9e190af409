import DepthRaster.Proofs.Files.Directory
import DepthRaster.Proofs.Numeric.Comparison
import DepthRaster.Proofs.Settings.RoundTrip
import DepthRaster.Proofs.Toml.Refusals
import DepthRaster.Render.Renderer
/-!
# Saved settings loaded again

The text of valid settings is a document exactly when all in it can be said there. A parser that
accepts documents, and refuses a text in which a key has no value, gives back just those settings.
They draw the same pictures to the same paths: only the focal distance may change, and only where no
projection looks at it.
-/

namespace DepthRaster.Settings

open Files (Directory Path)
open Numeric.Written (asLiteral)
open Render (Renderer)
open Text.Quoted (IsPlain)
open Toml (IsBareKey Line)

/-! ## Legible settings -/

def HasFocus (s : Settings) : Prop := s.focalDistance.isFinite = true ∧ 0 < s.focalDistance

instance (s : Settings) : Decidable s.HasFocus :=
  inferInstanceAs (Decidable (s.focalDistance.isFinite = true ∧ 0 < s.focalDistance))

/-- What settings come back as, and what is said about them. -/
def reloaded (s : Settings) : Settings × List SettingsWarning :=
  let default := ({} : Settings).focalDistance
  if s.HasFocus then (s, [])
  else ({ s with focalDistance := default }, [.focalDistance s.focalDistance default])

section

variable {s : Settings}

theorem readCamera_entries_of_not_hasFocus (hvalid : s.Valid) (hfocus : ¬ s.HasFocus)
    (t : Settings) : readCamera s.cameraBlock.entries t =
      (warn (.focalDistance s.focalDistance t.focalDistance) >>= fun _ =>
        pure { t with rotationDegrees := s.rotationDegrees }) := by
  have hunfit (hfinite : s.focalDistance.isFinite = true) : ¬ 0 < s.focalDistance :=
    fun hpos => hfocus ⟨hfinite, hpos⟩
  rw [entries_cameraBlock]
  simp +contextual [readCamera, withKey, getNumber, get?, List.lookup_cons, hvalid.rotation, hunfit]

theorem readDocument_tablesOf_of_not_hasFocus (hvalid : s.Valid) (h : s.Legible)
    (hfocus : ¬ s.HasFocus) : readDocument (Toml.tablesOf s.blocks) =
      (warn (.focalDistance s.focalDistance ({} : Settings).focalDistance) >>= fun _ =>
        pure { s with focalDistance := ({} : Settings).focalDistance }) := by
  rw [readDocument, withSection_files, readFiles_entries hvalid, pure_bind, withSection_render,
    readRender_entries hvalid h.width h.height, pure_bind, withSection_camera,
    readCamera_entries_of_not_hasFocus hvalid hfocus, bind_assoc]
  congr 1
  funext u
  rw [pure_bind, withSection_color, readColor_entries hvalid h.seed]

/-- Valid settings whose text is a document come back, and their focal distance gives way to the
default if it is no positive number. -/
theorem ofText_toText_of_legible {parse : Toml.Parser} (hparse : Toml.Accepts parse)
    (h : s.validate = .ok ()) (hlegible : s.Legible) :
    ofText s.toText parse = (.ok s.reloaded.1, s.reloaded.2) := by
  have hvalid := (validate_eq_ok_iff s).mp h
  rw [ofText_toText_eq hparse hlegible]
  by_cases hfocus : s.HasFocus
  · have hstorable : s.Storable :=
      ⟨h, hlegible.width, hlegible.height, hlegible.seed, hfocus, hlegible.texts⟩
    rw [reloaded, if_pos hfocus, readDocument_tablesOf hstorable]
    rfl
  · rw [reloaded, if_neg hfocus, readDocument_tablesOf_of_not_hasFocus hvalid hlegible hfocus]
    rfl

end

/-! ## Illegible settings -/

theorem isBroken_textLine {key text : String} (hkey : IsBareKey key.toList)
    (h : ¬ ∀ c ∈ text.toList, IsPlain c) : (textLine key text).IsBroken :=
  ⟨hkey, .string (Toml.misspells_flatMap_escape (by simpa using h))⟩

theorem isBroken_wordLine {key : String} {n : Nat} (hkey : IsBareKey key.toList)
    (h : ¬ n < 2 ^ 63) : (wordLine key n).IsBroken :=
  ⟨hkey, .integer (Nat.le_of_not_lt h)⟩

theorem isBroken_numberLine {key : String} {x : Float} (hkey : IsBareKey key.toList)
    (h : ¬ x.isNaN = false) : (numberLine key x).IsBroken := by
  have htext : asLiteral x = "NaN" := Toml.asLiteral_of_isNaN (Bool.eq_true_of_not_eq_false h)
  have hword : Toml.DenotesNothing "NaN".toList :=
    .word (by decide) (List.all_eq_true.mp (by decide)) (by decide)
  exact ⟨hkey, htext ▸ hword⟩

theorem textLine_or {key : String} (hkey : IsBareKey key.toList) (text : String) :
    (textLine key text).IsWellFormed ∨ (textLine key text).IsBroken := by
  by_cases h : ∀ c ∈ text.toList, IsPlain c
  · exact .inl (isWellFormed_textLine hkey h)
  · exact .inr (isBroken_textLine hkey h)

theorem wordLine_or {key : String} (hkey : IsBareKey key.toList) (n : Nat) :
    (wordLine key n).IsWellFormed ∨ (wordLine key n).IsBroken := by
  by_cases h : n < 2 ^ 63
  · exact .inl (isWellFormed_wordLine hkey h)
  · exact .inr (isBroken_wordLine hkey h)

theorem numberLine_or {key : String} (hkey : IsBareKey key.toList) (x : Float) :
    (numberLine key x).IsWellFormed ∨ (numberLine key x).IsBroken := by
  by_cases h : x.isNaN = false
  · exact .inl (isWellFormed_numberLine hkey h)
  · exact .inr (isBroken_numberLine hkey h)

theorem modelLines_or (model : Option String) :
    (modelLines model).IsWellFormed ∨ (modelLines model).IsBroken := by
  cases model with
  | none => exact .inl (isWellFormed_modelLines nofun)
  | some path => exact textLine_or (by decide) path

section

variable {s : Settings}

theorem lines_or : ∀ line ∈ s.document.lines, line.IsWellFormed ∨ line.IsBroken := by
  have htitle (title : String) (h : IsBareKey title.toList) :
      (Line.header title.toList).IsWellFormed ∨ (Line.header title.toList).IsBroken := .inl h
  have hflag {key : String} (h : IsBareKey key.toList) (b : Bool) :
      (flagLine key b).IsWellFormed ∨ (flagLine key b).IsBroken :=
    .inl (isWellFormed_flagLine h b)
  have hblank : Line.blank.IsWellFormed ∨ Line.blank.IsBroken := .inl trivial
  rw [Toml.Document.lines, List.forall_mem_append]
  refine ⟨fun line hline => .inl (preamble_isWellFormed line hline).1, ?_⟩
  simp only [document, blocks, List.flatMap_cons, List.flatMap_nil, List.append_nil,
    Toml.Block.toLines, filesBlock, renderBlock, cameraBlock, colorBlock, List.cons_append,
    List.nil_append, List.forall_mem_cons]
  exact ⟨htitle _ (by decide), modelLines_or s.model, textLine_or (by decide) _,
    textLine_or (by decide) _, textLine_or (by decide) _, textLine_or (by decide) _, hblank,
    htitle _ (by decide), wordLine_or (by decide) _, wordLine_or (by decide) _,
    textLine_or (by decide) _, wordLine_or (by decide) _, hflag (by decide) _,
    hflag (by decide) _, hflag (by decide) _, hblank,
    htitle _ (by decide), numberLine_or (by decide) _, numberLine_or (by decide) _, hblank,
    htitle _ (by decide), hflag (by decide) _, wordLine_or (by decide) _,
    textLine_or (by decide) _, textLine_or (by decide) _, List.forall_mem_nil _⟩

theorem mem_lines_of_mem_block {block : Toml.Block} {line : Line} (hblock : block ∈ s.blocks)
    (hline : line ∈ block.lines) : line ∈ s.document.lines :=
  List.mem_append_right _ (List.mem_flatMap.mpr ⟨block, hblock, List.mem_cons_of_mem _ hline⟩)

theorem exists_textLine_mem {text : String} (h : text ∈ s.texts) :
    ∃ key, IsBareKey key.toList ∧ textLine key text ∈ s.document.lines := by
  have hfiles {line : Line} : line ∈ s.filesBlock.lines → line ∈ s.document.lines :=
    mem_lines_of_mem_block (by simp [blocks])
  have hrender {line : Line} : line ∈ s.renderBlock.lines → line ∈ s.document.lines :=
    mem_lines_of_mem_block (by simp [blocks])
  have hcolor {line : Line} : line ∈ s.colorBlock.lines → line ∈ s.document.lines :=
    mem_lines_of_mem_block (by simp [blocks])
  simp only [texts, List.mem_append, Option.mem_toList, List.mem_cons, List.not_mem_nil,
    or_false] at h
  rcases h with hmodel | rfl | rfl | rfl | rfl | rfl | rfl | rfl
  · refine ⟨"obj", by decide, hfiles ?_⟩
    simp [filesBlock, modelLines, Option.mem_def.mp hmodel]
  · exact ⟨"output_dir", by decide, hfiles (by simp [filesBlock])⟩
  · exact ⟨"output", by decide, hfiles (by simp [filesBlock])⟩
  · exact ⟨"depth_output", by decide, hfiles (by simp [filesBlock])⟩
  · exact ⟨"format", by decide, hfiles (by simp [filesBlock])⟩
  · exact ⟨"projection", by decide, hrender (by simp [renderBlock])⟩
  · exact ⟨"solid", by decide, hcolor (by simp [colorBlock])⟩
  · exact ⟨"wireframe", by decide, hcolor (by simp [colorBlock])⟩

/-- What cannot be said in a document breaks the line that says it. -/
theorem exists_isBroken (h : ¬ s.Legible) : ∃ line ∈ s.document.lines, line.IsBroken := by
  by_contra hno
  have hword {key : String} {n : ℕ} (hkey : IsBareKey key.toList)
      (hline : wordLine key n ∈ s.document.lines) : n < 2 ^ 63 := by
    by_contra hlarge
    exact hno ⟨_, hline, isBroken_wordLine hkey hlarge⟩
  have hnumber {key : String} {x : Float} (hkey : IsBareKey key.toList)
      (hline : numberLine key x ∈ s.document.lines) : x.isNaN = false := by
    by_contra hnan
    exact hno ⟨_, hline, isBroken_numberLine hkey hnan⟩
  have hrender : s.renderBlock ∈ s.blocks := by simp [blocks]
  have hcamera : s.cameraBlock ∈ s.blocks := by simp [blocks]
  have hcolor : s.colorBlock ∈ s.blocks := by simp [blocks]
  have hwidth : wordLine "width" s.width.toNat ∈ s.document.lines :=
    mem_lines_of_mem_block hrender (by simp [renderBlock])
  have hheight : wordLine "height" s.height.toNat ∈ s.document.lines :=
    mem_lines_of_mem_block hrender (by simp [renderBlock])
  have hseed : wordLine "seed" s.seed.toNat ∈ s.document.lines :=
    mem_lines_of_mem_block hcolor (by simp [colorBlock])
  have hrotation : numberLine "rotation_degrees" s.rotationDegrees ∈ s.document.lines :=
    mem_lines_of_mem_block hcamera (by simp [cameraBlock])
  have hfocal : numberLine "focal_distance" s.focalDistance ∈ s.document.lines :=
    mem_lines_of_mem_block hcamera (by simp [cameraBlock])
  refine h ⟨hword (by decide) hwidth, hword (by decide) hheight, hword (by decide) hseed,
    hnumber (by decide) hrotation, hnumber (by decide) hfocal, fun text htext => ?_⟩
  by_contra hplain
  obtain ⟨key, hkey, hline⟩ := exists_textLine_mem htext
  exact hno ⟨_, hline, isBroken_textLine hkey hplain⟩

theorem ofText_toText_of_not_legible {parse : Toml.Parser} (hparse : Toml.Refuses parse)
    (h : ¬ s.Legible) : ofText s.toText parse = (.error .malformed, []) := by
  have hnone : parse s.toText = none :=
    hparse s.toText s.document.lines s.toList_toText lines_or (exists_isBroken h)
  rw [ofText, readText, hnone]
  rfl

end

/-! ## The same pictures -/

/-- Settings by which the same pictures of the same model go to the same paths. -/
structure SameRun (s t : Settings) : Prop where
  renderer : Renderer.ofSettings t = Renderer.ofSettings s
  model : t.model = s.model
  saveDepth : t.saveDepth = s.saveDepth
  colorPath : t.colorPath = s.colorPath
  depthPath : t.depthPath = s.depthPath

theorem ofSettings_focalDistance {s : Settings} (h : s.projection ≠ "perspective") (x : Float) :
    Renderer.ofSettings { s with focalDistance := x } = Renderer.ofSettings s := by
  have hno : (s.projection == "perspective") = false := beq_eq_false_iff_ne.mpr h
  simp only [Renderer.ofSettings, validate, h, if_false, camera, projectionMode, isPerspective, hno,
    Bool.false_eq_true]
  rfl

theorem sameRun_reloaded {s : Settings} (h : s.Valid) : s.SameRun s.reloaded.1 := by
  rw [reloaded]
  split_ifs with hfocus
  · exact ⟨rfl, rfl, rfl, rfl, rfl⟩
  · have horthographic : s.projection ≠ "perspective" := by
      intro hperspective
      obtain ⟨hfinite, hpos⟩ := h.focalDistance hperspective
      exact hfocus ⟨hfinite, Numeric.pos_of_not_le_zero hfinite hpos⟩
    exact ⟨ofSettings_focalDistance horthographic _, rfl, rfl, rfl, rfl⟩

/-! ## Files -/

theorem ofBytes_toUTF8 (text : String) (parse : Toml.Parser) :
    ofBytes text.toUTF8.data parse = ofText text parse := by
  rw [ofBytes, Files.fromUTF8?_toUTF8]

theorem load_of_save {s : Settings} {path : Path} {d d' : Directory}
    (h : (s.save Directory.access path).run d = (.ok (), d')) (parse : Toml.Parser) :
    (load Directory.access path parse).run d' = (ofText s.toText parse, d') := by
  have hwritten : d.write path s.toText.toUTF8.data = .ok d' := by
    rw [save, StateT.run_bind] at h
    generalize hwrite : (Directory.access.write path s.toText.toUTF8.data).run d = result at h
    obtain ⟨outcome, made⟩ := result
    rcases Directory.write_of_run hwrite with ⟨cause, rfl, -⟩ | ⟨rfl, hmade⟩
    · exact absurd (Prod.mk.inj h).1 nofun
    · obtain ⟨-, rfl⟩ := Prod.mk.inj h
      exact hmade
  rw [load, StateT.run_bind, Directory.run_read, Directory.read_write_self hwritten]
  change (ofBytes s.toText.toUTF8.data parse, d') = _
  rw [ofBytes_toUTF8]

/-- Valid settings that were saved can be loaded exactly when their text says all of them, and what
is loaded makes the same run. This holds for every parser that accepts documents and refuses a text
in which a key has no value. -/
theorem load_of_save_iff {parse : Toml.Parser} (haccepts : Toml.Accepts parse)
    (hrefuses : Toml.Refuses parse) {s : Settings} (hvalid : s.validate = .ok ()) {path : Path}
    {d d' : Directory} (h : (s.save Directory.access path).run d = (.ok (), d')) :
    ((∃ t, ((load Directory.access path parse).run d').1.1 = .ok t) ↔ s.Legible) ∧
      ∀ t, ((load Directory.access path parse).run d').1.1 = .ok t → s.SameRun t := by
  have hmade := sameRun_reloaded ((validate_eq_ok_iff s).mp hvalid)
  rw [load_of_save h]
  by_cases hlegible : s.Legible
  · rw [ofText_toText_of_legible haccepts hvalid hlegible]
    refine ⟨⟨fun _ => hlegible, fun _ => ⟨_, rfl⟩⟩, fun t ht => ?_⟩
    obtain rfl := Except.ok.inj ht
    exact hmade
  · rw [ofText_toText_of_not_legible hrefuses hlegible]
    refine ⟨⟨fun ⟨t, ht⟩ => absurd ht nofun, fun h => absurd h hlegible⟩, fun t ht => ?_⟩
    exact absurd ht nofun

def unfocused : Settings := { projection := "orthographic", focalDistance := -1 }

def savedAlone (s : Settings) : Directory := ((s.save Directory.access ⟨"saved.toml"⟩).run {}).2

theorem load_of_save_iff_of_unfocused :
    ∃ t, ((load Directory.access ⟨"saved.toml"⟩ Toml.parse).run unfocused.savedAlone).1.1 = .ok t ∧
      unfocused.SameRun t := by
  have htexts : ∀ text ∈ unfocused.texts, text.toList.all (IsPlain ·) = true :=
    List.all_eq_true.mp (by decide +kernel)
  simp only [List.all_eq_true, decide_eq_true_eq] at htexts
  have hvalid : unfocused.validate = .ok () := rfl
  have hsaved : (unfocused.save Directory.access ⟨"saved.toml"⟩).run {} =
      (.ok (), unfocused.savedAlone) := Prod.ext (by decide +kernel) rfl
  obtain ⟨hok, hsame⟩ := load_of_save_iff Toml.accepts_parse Toml.refuses_parse hvalid hsaved
  obtain ⟨t, ht⟩ := hok.mpr
    ⟨by decide, by decide, by decide, by decide +kernel, by decide +kernel, htexts⟩
  exact ⟨t, ht, hsame t ht⟩

def largeSeed : Settings := { seed := 9223372036854775808 }

/-- The large seed is valid and can be saved, but no parser that refuses a key without a value loads
it again. There is such a parser. -/
theorem load_of_large_seed :
    largeSeed.validate = .ok () ∧
      (largeSeed.save Directory.access ⟨"saved.toml"⟩).run {} = (.ok (), largeSeed.savedAlone) ∧
      Toml.Refuses Toml.parse ∧
      ∀ parse, Toml.Refuses parse →
        (load Directory.access ⟨"saved.toml"⟩ parse).run largeSeed.savedAlone =
          ((.error .malformed, []), largeSeed.savedAlone) := by
  have hsaved : (largeSeed.save Directory.access ⟨"saved.toml"⟩).run {} =
      (.ok (), largeSeed.savedAlone) := Prod.ext (by decide +kernel) rfl
  refine ⟨rfl, hsaved, Toml.refuses_parse, fun parse hparse => ?_⟩
  rw [load_of_save hsaved,
    ofText_toText_of_not_legible hparse fun h => absurd h.seed (by decide)]

end DepthRaster.Settings
