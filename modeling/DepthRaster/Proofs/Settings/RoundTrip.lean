import DepthRaster.Proofs.Settings.Document
import DepthRaster.Proofs.Settings.Fieldwise
import DepthRaster.Proofs.Toml.Blocks
/-!
# Settings that were written read back

The text of settings is a document of four tables. Whatever parser accepts documents, reading it
sets each choice to what it was, so valid settings come back as they were, without a warning.
-/

namespace DepthRaster.Settings

open Text.Quoted (IsPlain)
open Toml (Entries Value)

/-! ## Whole numbers -/

theorem toInt_word {w : UInt64} (h : w.toNat < 2 ^ 63) : (Int64.ofInt w.toNat).toInt = w.toNat :=
  Int64.toInt_ofInt_of_le (by omega) (by omega)

theorem toUInt64_word (w : UInt64) : (Int64.ofInt w.toNat).toUInt64 = w := by
  rw [Int64.ofInt_eq_ofNat, Int64.toUInt64_ofNat', UInt64.ofNat_toNat]

theorem zero_le_word {w : UInt64} (h : w.toNat < 2 ^ 63) : 0 ≤ Int64.ofInt w.toNat := by
  rw [Int64.le_iff_toInt_le, toInt_word h]
  exact Int.natCast_nonneg _

theorem zero_lt_word {w : UInt64} (h : w.toNat < 2 ^ 63) (hne : w ≠ 0) :
    0 < Int64.ofInt w.toNat := by
  have hpos : w.toNat ≠ 0 := fun heq => hne (UInt64.toNat_inj.mp heq)
  rw [Int64.lt_iff_toInt_lt, toInt_word h]
  exact Int.natCast_pos.mpr (Nat.pos_of_ne_zero hpos)

theorem word_of_depthLevels {n : UInt8} (h : n ≠ 0) :
    (1 ≤ Int64.ofInt n.toNat ∧ Int64.ofInt n.toNat ≤ 255) ∧
      (Int64.ofInt n.toNat).toUInt64.toUInt8 = n := by
  have hpos : n.toNat ≠ 0 := fun heq => h (UInt8.toNat_inj.mp heq)
  have hlt := n.toNat_lt
  have hsmall : n.toUInt64.toNat < 2 ^ 63 := by
    rw [UInt8.toNat_toUInt64]
    omega
  have hint := toInt_word hsmall
  have hword := toUInt64_word n.toUInt64
  rw [UInt8.toNat_toUInt64] at hint hword
  rw [Int64.le_iff_toInt_le, Int64.le_iff_toInt_le, hint, hword]
  refine ⟨⟨?_, ?_⟩, UInt8.toUInt8_toUInt64 n⟩
  · exact Int.ofNat_le.mpr (Nat.one_le_iff_ne_zero.mpr hpos)
  · exact Int.ofNat_le.mpr (Nat.le_of_lt_succ hlt)

/-! ## The document read back -/

theorem withSection_of_lookup {document table : Entries} {name : String}
    (hlookup : document.lookup name = some (.table .header table))
    (read : Entries → Settings → Reading Settings) (s : Settings) :
    withSection document name read s = read table s := by
  rw [withSection, hlookup]
  rfl

section

variable (s : Settings) (read : Entries → Settings → Reading Settings) (t : Settings)

theorem withSection_files :
    withSection (Toml.tablesOf s.blocks) "files" read t = read s.filesBlock.entries t :=
  withSection_of_lookup rfl read t

theorem withSection_render :
    withSection (Toml.tablesOf s.blocks) "render" read t = read s.renderBlock.entries t :=
  withSection_of_lookup rfl read t

theorem withSection_camera :
    withSection (Toml.tablesOf s.blocks) "camera" read t = read s.cameraBlock.entries t :=
  withSection_of_lookup rfl read t

theorem withSection_color :
    withSection (Toml.tablesOf s.blocks) "color" read t = read s.colorBlock.entries t :=
  withSection_of_lookup rfl read t

end

/-! ## Each section -/

theorem lowercase_of_mem {format : String} (h : format ∈ outputFormats) :
    Text.lowercase format = format := by
  revert format
  decide +kernel

section

variable {s : Settings}

theorem readFiles_entries (hvalid : s.Valid) :
    readFiles s.filesBlock.entries {} = pure { ({} : Settings) with
      model := s.model, outputDir := s.outputDir, colorName := s.colorName,
      depthName := s.depthName, format := s.format } := by
  rw [entries_filesBlock]
  cases s.model with
  | none =>
      simp [readFiles, withKey, getString, get?, List.lookup_cons, lowercase_of_mem hvalid.format,
        hvalid.format]
  | some path =>
      simp [readFiles, withKey, getString, get?, List.lookup_cons, lowercase_of_mem hvalid.format,
        hvalid.format]

theorem readRender_entries (hvalid : s.Valid) (hwidth : s.width.toNat < 2 ^ 63)
    (hheight : s.height.toNat < 2 ^ 63) (t : Settings) :
    readRender s.renderBlock.entries t = pure { t with
      width := s.width, height := s.height, projection := s.projection,
      depthLevels := s.depthLevels, multithreaded := s.multithreaded, wireframe := s.wireframe,
      saveDepth := s.saveDepth } := by
  obtain ⟨hlevels, hword⟩ := word_of_depthLevels hvalid.depthLevels
  rw [entries_renderBlock]
  simp [readRender, withKey, getString, getInteger, getBoolean, get?, List.lookup_cons,
    zero_lt_word hwidth hvalid.width, zero_lt_word hheight hvalid.height, toUInt64_word,
    hvalid.projection, hlevels, hword]

theorem readCamera_entries (hvalid : s.Valid)
    (hfocal : s.focalDistance.isFinite = true ∧ 0 < s.focalDistance) (t : Settings) :
    readCamera s.cameraBlock.entries t = pure { t with
      rotationDegrees := s.rotationDegrees, focalDistance := s.focalDistance } := by
  rw [entries_cameraBlock]
  simp [readCamera, withKey, getNumber, get?, List.lookup_cons, hvalid.rotation, hfocal]

theorem readColor_entries (hvalid : s.Valid) (hseed : s.seed.toNat < 2 ^ 63) (t : Settings) :
    readColor s.colorBlock.entries t = pure { t with
      colorize := s.colorize, seed := s.seed, solidColor := s.solidColor,
      wireColor := s.wireColor } := by
  obtain ⟨solid, hsolid⟩ := hvalid.solidColor
  obtain ⟨wire, hwire⟩ := hvalid.wireColor
  rw [entries_colorBlock]
  simp [readColor, withKey, getString, getInteger, getBoolean, get?, List.lookup_cons, checkColor,
    zero_le_word hseed, toUInt64_word, hsolid, hwire]

end

theorem readDocument_tablesOf {s : Settings} (h : s.Storable) :
    readDocument (Toml.tablesOf s.blocks) = pure s := by
  have hvalid := (validate_eq_ok_iff s).mp h.valid
  rw [readDocument, withSection_files, readFiles_entries hvalid, pure_bind, withSection_render,
    readRender_entries hvalid h.width h.height, pure_bind, withSection_camera,
    readCamera_entries hvalid h.focalDistance, pure_bind, withSection_color,
    readColor_entries hvalid h.seed]

/-! ## Any parser -/

theorem section_of_lookup {entries inner : Entries} {title : String} {table : Value}
    (htable : entries.lookup title = some table) (hinner : table.entries? = some inner) :
    isMisplaced entries title = false ∧ tableAt entries title = inner := by
  simp [isMisplaced, tableAt, htable, hinner]

theorem exists_saysSame {s : Settings} {value : Value} (h : value.Holds s.document) :
    ∃ entries, value.entries? = some entries ∧ SaysSame entries (Toml.tablesOf s.blocks) := by
  obtain ⟨entries, hentries, htables⟩ := h
  have htitles : s.blocks.map Toml.Block.title = sections.map Prod.fst := rfl
  have hnodup : (s.blocks.map Toml.Block.title).Nodup := by
    rw [htitles]
    decide
  have hsection (part : String × List AnyKey) (hpart : part ∈ sections) :
      isMisplaced entries part.1 = isMisplaced (Toml.tablesOf s.blocks) part.1 ∧
        ∀ key, (tableAt entries part.1).lookup key =
          (tableAt (Toml.tablesOf s.blocks) part.1).lookup key := by
    obtain ⟨block, hblock, htitle⟩ := List.mem_map.mp (htitles ▸ List.mem_map_of_mem hpart)
    obtain ⟨table, inner, htable, hinner, hkeys⟩ := htables block hblock
    rw [← htitle]
    obtain ⟨hplaced, hat⟩ := section_of_lookup htable hinner
    obtain ⟨hplaced', hat'⟩ := section_of_lookup (Toml.lookup_tablesOf hnodup hblock) rfl
    rw [hplaced, hplaced', hat, hat']
    exact ⟨rfl, hkeys⟩
  exact ⟨entries, hentries, fun part hpart => (hsection part hpart).1,
    fun part hpart key _ => (hsection part hpart).2 key.2.name⟩

/-- A parser that accepts documents reads the text of settings as their tables. -/
theorem ofText_toText_eq {parse : Toml.Parser} (hparse : Toml.Accepts parse) {s : Settings}
    (h : s.Legible) :
    ofText s.toText parse = (readDocument (Toml.tablesOf s.blocks)).outcome := by
  obtain ⟨value, hvalue, hholds⟩ :=
    hparse s.toText s.document s.toList_toText (isWellFormed_document h)
  obtain ⟨entries, hentries, hsame⟩ := exists_saysSame hholds
  rw [ofText_eq, entriesOf?, hvalue, Option.map_some, hentries]
  exact outcome_congr hsame

/-- Settings that were written come back in all their choices, and nothing is said about them,
whatever parser reads them that accepts documents. -/
theorem ofText_toText {parse : Toml.Parser} (hparse : Toml.Accepts parse) {s : Settings}
    (h : s.Storable) : ofText s.toText parse = (.ok s, []) := by
  rw [ofText_toText_eq hparse h.legible, readDocument_tablesOf h]
  rfl

theorem ofText_toText_of_quoted_model :
    ofText ({ model := some "a \"b\".obj", width := 1 } : Settings).toText Toml.parse =
      (.ok { model := some "a \"b\".obj", width := 1 }, []) := by
  have htexts : ∀ text ∈ ({ model := some "a \"b\".obj", width := 1 } : Settings).texts,
      text.toList.all (IsPlain ·) = true := List.all_eq_true.mp (by decide +kernel)
  simp only [List.all_eq_true, decide_eq_true_eq] at htexts
  refine ofText_toText Toml.accepts_parse ⟨?_, by decide, by decide, by decide, ?_, htexts⟩
  · rfl
  · decide +kernel

end DepthRaster.Settings
