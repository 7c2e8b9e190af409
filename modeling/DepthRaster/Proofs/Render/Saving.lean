import DepthRaster.Proofs.Files.Directory
import DepthRaster.Proofs.Files.Path
import DepthRaster.Proofs.Image.File
import DepthRaster.Proofs.Settings.Valid
import DepthRaster.Render.Save
/-!
# Pictures that were saved

After a rendering was saved the path of the depth picture shows the depth image, if that was wanted.
The path of the colour picture shows the colour image, unless it leads to the same place: then the
depth image, which was written later, has taken its place. Of the encoders no more is asked than
that pictures of the formats in use are read as they were written.
-/

namespace DepthRaster

open Files (Directory Path)
open Image (Codec Encoder)

/-! ## Runs on a directory -/

section

variable {σ ε α β : Type} {s t : σ}

theorem run_bind_eq_ok {x : ExceptT ε (StateM σ) α} {f : α → ExceptT ε (StateM σ) β} {b : β} :
    (x >>= f).run.run s = (.ok b, t) ↔
      ∃ a r, x.run.run s = (.ok a, r) ∧ (f a).run.run r = (.ok b, t) := by
  change (ExceptT.bindCont f (x.run.run s).1).run (x.run.run s).2 = _ ↔ _
  obtain ⟨outcome, r⟩ := x.run.run s
  cases outcome with
  | error e =>
      constructor
      · intro h
        exact absurd (Prod.mk.inj h).1 nofun
      · rintro ⟨a, r', h, -⟩
        exact absurd (Prod.mk.inj h).1 nofun
  | ok a =>
      constructor
      · exact fun h => ⟨a, r, rfl, h⟩
      · rintro ⟨a', r', h, hf⟩
        obtain ⟨ha, rfl⟩ := Prod.mk.inj h
        obtain rfl := Except.ok.inj ha
        exact hf

theorem run_lift_eq_ok {x : StateM σ α} {a : α} :
    (liftM x : ExceptT ε (StateM σ) α).run.run s = (.ok a, t) ↔ x.run s = (a, t) := by
  change ((Except.ok (x.run s).1 : Except ε α), (x.run s).2) = (.ok a, t) ↔ _
  rw [Prod.mk.injEq, Except.ok.injEq, Prod.ext_iff]

theorem run_throw_ne_ok {e : ε} {a : α} :
    (throw e : ExceptT ε (StateM σ) α).run.run s ≠ (.ok a, t) :=
  fun h => absurd (Prod.mk.inj h).1 nofun

end

/-- What the picture file at a path shows, as a codec reads files of its extension. -/
def Files.Directory.picture? (d : Directory) (codec : Codec) (p : Path) : Option Image :=
  p.extension?.bind fun extension => (d.read p).toOption.bind (codec.decode extension)

/-- The picture file at a path shows an image, as files do: from the top row down. -/
def Files.Directory.Shows (d : Directory) (codec : Codec) (p : Path) (image : Image) : Prop :=
  ∃ shown, d.picture? codec p = some shown ∧ shown.IsUpsideDown image

/-! ## One picture -/

namespace Image

variable {d d' : Directory} {codec : Codec} {image : Image} {path : Path}

theorem encoderOf_eq_ok {encoder : Encoder} (h : encoderOf codec path = .ok encoder) :
    ∃ extension, path.extension? = some extension ∧ codec.encoder? extension = some encoder := by
  unfold encoderOf at h
  cases hextension : path.extension? with
  | none => rw [hextension] at h; exact absurd h nofun
  | some extension =>
      simp only [hextension] at h
      cases hencoder : codec.encoder? extension with
      | none => rw [hencoder] at h; exact absurd h nofun
      | some made =>
          rw [hencoder] at h
          exact ⟨extension, rfl, by rw [hencoder, Except.ok.inj h]⟩

/-- An image is written as an empty file first, and then as what it is encoded to. -/
theorem write_of_writeFile
    (h : (image.writeFile Directory.access path codec).run.run d = (.ok (), d')) :
    ∃ extension encoder file made, path.extension? = some extension ∧
      codec.encoder? extension = some encoder ∧ image.encodeWith encoder = .ok file ∧
      d.write path #[] = .ok made ∧ made.write path file = .ok d' := by
  unfold writeFile at h
  cases hencoder : encoderOf codec path with
  | error cause => rw [hencoder] at h; exact absurd h run_throw_ne_ok
  | ok encoder =>
      obtain ⟨extension, hextension, hknown⟩ := encoderOf_eq_ok hencoder
      rw [hencoder] at h
      obtain ⟨first, made, hfirst, h⟩ := run_bind_eq_ok.mp h
      rcases Directory.write_of_run (run_lift_eq_ok.mp hfirst) with
        ⟨cause, rfl, -⟩ | ⟨rfl, hmade⟩
      · exact absurd h run_throw_ne_ok
      · cases hencode : image.encodeWith encoder with
        | error cause => simp only [hencode] at h; exact absurd h run_throw_ne_ok
        | ok file =>
            simp only [hencode] at h
            obtain ⟨second, written, hsecond, h⟩ := run_bind_eq_ok.mp h
            rcases Directory.write_of_run (run_lift_eq_ok.mp hsecond) with
              ⟨cause, rfl, -⟩ | ⟨rfl, hwritten⟩
            · exact absurd h run_throw_ne_ok
            · obtain ⟨-, rfl⟩ := Prod.mk.inj h
              exact ⟨extension, encoder, file, made, hextension, hknown, hencode, hmade, hwritten⟩

/-- A picture that was written is shown at its path, and whatever else was shown before is still
there, but for what is at the same place. -/
theorem picture?_of_writeFile
    (hlossless : ∀ extension, path.extension? = some extension → codec.Lossless extension)
    (hsides : image.KeepsSides)
    (h : (image.writeFile Directory.access path codec).run.run d = (.ok (), d')) :
    d'.picture? codec path = some image.flipped ∧
      ∀ other old, other.extension? = path.extension? → d.picture? codec other = some old →
        d'.picture? codec other =
          some (if d'.placeOf? other = d'.placeOf? path then image.flipped else old) := by
  obtain ⟨extension, encoder, file, made, hextension, hencoder, hencode, hmade, hwritten⟩ :=
    write_of_writeFile h
  have hdecode := decode_encodeWith (hlossless extension hextension) hencoder hsides hencode
  have hpath := Directory.read_write_self hmade
  have hself := Directory.read_write_self hwritten
  refine ⟨by rw [Directory.picture?, hextension, hself]; exact hdecode,
    fun other old hsuffix hold => ?_⟩
  rw [Directory.picture?, hsuffix, hextension, Option.bind_some] at hold ⊢
  obtain ⟨held, hheld, hold⟩ := Option.bind_eq_some_iff.mp hold
  cases hread : d.read other with
  | error cause => rw [hread] at hheld; exact absurd hheld nofun
  | ok contents =>
      rw [hread] at hheld
      obtain rfl : contents = held := Option.some.inj hheld
      have hfirst := Directory.read_write hmade hread
      have hsecond := Directory.read_write hwritten hfirst
      have hplaceOther :=
        Directory.placeOf?_write hwritten (Directory.isSome_placeOf?_of_read hfirst)
      have hplacePath := Directory.placeOf?_write hwritten (Directory.isSome_placeOf?_of_read hpath)
      rw [hsecond, hplaceOther, hplacePath]
      by_cases hsame : made.placeOf? other = made.placeOf? path
      · rw [if_pos hsame.symm, if_pos hsame]
        exact hdecode
      · rw [if_neg (Ne.symm hsame), if_neg (Ne.symm hsame), if_neg hsame]
        exact hold

end Image

/-! ## Both pictures -/

theorem Settings.extension?_picturePath {s : Settings} (hformat : s.format ∈ outputFormats)
    (name : String) {extension : String}
    (h : (s.picturePath name).extension? = some extension) : extension = s.format := by
  obtain ⟨start, htext⟩ :
      ∃ start, (s.picturePath name).text.toList = start ++ '.' :: s.format.toList := by
    unfold picturePath Path.join
    split_ifs
    · exact ⟨name.toList, by simp⟩
    · exact ⟨s.outputDir.toList ++ name.toList, by simp⟩
    · exact ⟨s.outputDir.toList ++ '/' :: name.toList, by simp⟩
  have hplain : s.format.toList ≠ [] ∧ Path.separator ∉ s.format.toList ∧
      '.' ∉ s.format.toList := by
    revert hformat
    generalize s.format = format
    revert format
    decide
  rw [Path.extension?_eq htext hplain.1 hplain.2.1 hplain.2.2 h, String.ofList_toList]

namespace Render

variable {d d' : Directory} {codec : Codec}

theorem writeFile_of_saveImage {image : Image} {path : Path}
    (h : (saveImage Directory.access image path codec).run.run d = (.ok (), d')) :
    (image.writeFile Directory.access path codec).run.run d = (.ok (), d') := by
  obtain ⟨outcome, written, hwrite, h⟩ := run_bind_eq_ok.mp h
  have hrun := run_lift_eq_ok.mp hwrite
  cases outcome with
  | error cause => exact absurd h run_throw_ne_ok
  | ok u =>
      obtain ⟨-, rfl⟩ := Prod.mk.inj h
      exact hrun

theorem picture?_of_save {ε : Type} {rendering : Rendering ε} {s : Settings}
    (hlossless : ∀ extension ∈ outputFormats, codec.Lossless extension)
    (hformat : s.format ∈ outputFormats) (hcolor : rendering.color.KeepsSides)
    (hdepth : rendering.depth.KeepsSides)
    (h : (rendering.save Directory.access s codec).run.run d = (.ok (), d')) :
    (s.saveDepth = true → d'.picture? codec s.depthPath = some rendering.depth.flipped) ∧
      d'.picture? codec s.colorPath =
        some (if s.saveDepth = true ∧ d'.placeOf? s.colorPath = d'.placeOf? s.depthPath then
          rendering.depth.flipped else rendering.color.flipped) := by
  have hpath (name : String) (p : Path) (hp : p = s.picturePath name) :
      ∀ extension, p.extension? = some extension → codec.Lossless extension := by
    subst hp
    intro extension hextension
    rw [Settings.extension?_picturePath hformat name hextension]
    exact hlossless s.format hformat
  unfold Rendering.save at h
  obtain ⟨u, made, -, h⟩ := run_bind_eq_ok.mp h
  obtain ⟨v, colored, hsaved, h⟩ := run_bind_eq_ok.mp h
  have hwritten := writeFile_of_saveImage hsaved
  obtain ⟨hshown, -⟩ :=
    Image.picture?_of_writeFile (hpath s.colorName s.colorPath rfl) hcolor hwritten
  cases hwanted : s.saveDepth with
  | false =>
      rw [hwanted] at h
      obtain ⟨-, rfl⟩ := Prod.mk.inj h
      exact ⟨nofun, by simpa using hshown⟩
  | true =>
      rw [hwanted] at h
      have hlast := writeFile_of_saveImage h
      obtain ⟨hself, hother⟩ :=
        Image.picture?_of_writeFile (hpath s.depthName s.depthPath rfl) hdepth hlast
      -- Both paths have the format for their extension, so one codec reads both.
      have hsame : s.colorPath.extension? = s.depthPath.extension? := by
        obtain ⟨extension, _, _, _, hextension, -⟩ := Image.write_of_writeFile hwritten
        obtain ⟨extension', _, _, _, hextension', -⟩ := Image.write_of_writeFile hlast
        have hkept := Settings.extension?_picturePath hformat s.colorName hextension
        have hkept' := Settings.extension?_picturePath hformat s.depthName hextension'
        rw [hextension, hextension', hkept, hkept']
      exact ⟨fun _ => hself, by simpa using hother _ _ hsame hshown⟩

/-- A rendering that was saved is shown where the settings want it: the depth image at its path, and
the colour image at its own unless the depth image came to the same place. -/
theorem shows_of_save {ε : Type} {rendering : Rendering ε} {s : Settings}
    (hlossless : ∀ extension ∈ outputFormats, codec.Lossless extension)
    (hvalid : s.validate = .ok ())
    (hcolor : 0 < rendering.color.width ∧ 0 < rendering.color.height)
    (hdepth : 0 < rendering.depth.width ∧ 0 < rendering.depth.height)
    (h : (rendering.save Directory.access s codec).run.run d = (.ok (), d')) :
    (s.saveDepth = true → d'.Shows codec s.depthPath rendering.depth) ∧
      d'.Shows codec s.colorPath
        (if s.saveDepth = true ∧ d'.placeOf? s.colorPath = d'.placeOf? s.depthPath then
          rendering.depth else rendering.color) := by
  have hformat := ((Settings.validate_eq_ok_iff s).mp hvalid).format
  obtain ⟨hlast, hfirst⟩ := picture?_of_save hlossless hformat (.inr hcolor) (.inr hdepth) h
  refine ⟨fun hwanted => ⟨_, hlast hwanted, rendering.depth.isUpsideDown_flipped⟩, _, hfirst, ?_⟩
  split_ifs
  · exact rendering.depth.isUpsideDown_flipped
  · exact rendering.color.isUpsideDown_flipped

def whitePixel : Rendering Unit where
  color := ((Image.blank 1 1 .rgb).setPixel 0 0 [255, 255, 255]).1
  depth := ((Image.blank 1 1 .gray).setPixel 0 0 [7]).1
  stats := ⟨1, 0, 0, 1, 1, 1⟩
  rejections := []

def savedAlone (s : Settings) : Directory :=
  ((whitePixel.save Directory.access s Image.tgaAndPng).run.run {}).2

theorem shows_of_save_of_two_names :
    (savedAlone {}).Shows Image.tgaAndPng ({} : Settings).depthPath whitePixel.depth ∧
      (savedAlone {}).Shows Image.tgaAndPng ({} : Settings).colorPath whitePixel.color := by
  have hsaved : (whitePixel.save Directory.access {} Image.tgaAndPng).run.run {} =
      (.ok (), savedAlone {}) := Prod.ext (by decide +kernel) rfl
  have happart : ¬ ((savedAlone {}).placeOf? ({} : Settings).colorPath =
      (savedAlone {}).placeOf? ({} : Settings).depthPath) := by decide +kernel
  obtain ⟨hdepth, hcolor⟩ :=
    shows_of_save (fun extension _ => Image.lossless_tgaAndPng extension) (by rfl) (by decide)
      (by decide) hsaved
  rw [if_neg fun h => happart h.2] at hcolor
  exact ⟨hdepth rfl, hcolor⟩

/-- One name for both pictures, which the check lets pass. -/
def oneName : Settings := { colorName := "x", depthName := "x" }

theorem not_shows_of_one_name :
    oneName.validate = .ok () ∧
      (whitePixel.save Directory.access oneName Image.tgaAndPng).run.run {} =
        (.ok (), savedAlone oneName) ∧
      (∀ extension, Image.tgaAndPng.Lossless extension) ∧
      ∀ codec : Codec, (∀ extension ∈ outputFormats, codec.Lossless extension) →
        ∀ d, (whitePixel.save Directory.access oneName codec).run.run {} = (.ok (), d) →
          ¬ d.Shows codec oneName.colorPath whitePixel.color := by
  refine ⟨rfl, Prod.ext (by decide +kernel) rfl, Image.lossless_tgaAndPng, ?_⟩
  rintro codec hlossless d hsaved ⟨shown, hpicture, hupside⟩
  obtain ⟨hlast, -⟩ := picture?_of_save hlossless (by decide) (.inl (by decide)) (.inl (by decide))
    hsaved
  -- The two paths are one.
  have hdepth : d.picture? codec oneName.colorPath = some whitePixel.depth.flipped := hlast rfl
  obtain rfl : whitePixel.depth.flipped = shown := Option.some.inj (hdepth.symm.trans hpicture)
  exact absurd hupside.format (by decide)

end Render

end DepthRaster
