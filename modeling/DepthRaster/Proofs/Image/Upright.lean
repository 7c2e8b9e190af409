import DepthRaster.Proofs.Render.Saving
/-!
# Files that show the whole image upright

What is handed to an encoder is all of the image, from the top row down. So turning the rows of a
file made without loss once more gives the bytes of the image, whatever the format.
-/

namespace DepthRaster.Image

open Files (Directory Path)

variable (image : Image)

/-- A buffer that holds all of an image from the top row down. -/
structure HoldsTopDown (buffer : Array UInt8) (image : Image) : Prop where
  size : buffer.size = image.width * image.height * image.format.channels
  /-- The bytes of the image fall into its rows, with none left over. -/
  rows : ∃ rows : List (List UInt8), rows.length = image.height ∧
    (∀ row ∈ rows, row.length = image.width * image.format.channels) ∧
    rows.flatten = image.bytes.toList ∧ rows.reverse.flatten = buffer.toList
  pixel : ∀ r < image.height, ∀ c < image.width,
    image.getPixel c (image.height - 1 - r) =
      some (buffer.extract ((r * image.width + c) * image.format.channels)
        ((r * image.width + c) * image.format.channels + image.format.channels)).toList

theorem holdsTopDown_topDown : HoldsTopDown image.topDown image where
  size := image.size_topDown.trans image.size_bytes
  rows := by
    have hsize := image.size_bytes_eq
    refine ⟨(List.range image.height).map image.row, by simp, ?_, ?_, ?_⟩
    · intro row hrow
      obtain ⟨y, hy, rfl⟩ := List.mem_map.mp hrow
      exact length_extract_mul hsize (List.mem_range.mp hy)
    · have hflatten : ((List.range image.height).map image.row).flatten = _ :=
        flatten_extracts image.bytes image.rowSize image.height
      rw [hflatten, ← hsize, ← Array.length_toList, List.take_length]
    · rw [toList_topDown, List.map_reverse]
  pixel r hr c hc := by
    -- The buffer is the bytes of the flipped image, in which this is an ordinary pixel.
    have hin : image.flipped.Has c r := has_of_lt hc hr
    rw [← getPixel_flipped, getPixel_eq_extract hin]
    rfl

theorem flipped_flipped : image.flipped.flipped = image := by
  refine ext_getPixel rfl rfl rfl fun x y _ => ?_
  rw [getPixel_flipped, getPixel_flipped]
  congr 1
  exact Int.sub_sub_self _ y

theorem topDown_flipped : image.flipped.topDown = image.bytes :=
  congrArg Image.bytes image.flipped_flipped

/-! ## Writing -/

/-- Sides of 32 bits reach the encoder as they are, with a buffer of the size they ask for. A file
that was written holds what its encoder made, and if nothing is lost in that it shows rows that,
turned once more, are the bytes of the image. -/
theorem writeFile_upright (image : Image) (hwidth : image.width < 2 ^ 32)
    (hheight : image.height < 2 ^ 32) (codec : Codec) :
    HoldsTopDown image.topDown image ∧
    (∀ encoder : Encoder, ∃ width height : UInt32, width.toNat = image.width ∧
      height.toNat = image.height ∧
      image.encodeWith encoder = encoder width height image.format image.topDown) ∧
    ∀ (d d' : Directory) (path : Path),
      (image.writeFile Directory.access path codec).run.run d = (.ok (), d') →
        ∃ extension encoder file, path.extension? = some extension ∧
          codec.encoder? extension = some encoder ∧ image.encodeWith encoder = .ok file ∧
          d'.read path = .ok file ∧
          (codec.Lossless extension → ∃ shown, codec.decode extension file = some shown ∧
            shown.width = image.width ∧ shown.height = image.height ∧
            shown.format = image.format ∧ shown.topDown = image.bytes) := by
  refine ⟨image.holdsTopDown_topDown, fun encoder => ?_, fun d d' path hwrite => ?_⟩
  · refine ⟨.ofNatLT _ (statedSide_lt image.width), .ofNatLT _ (statedSide_lt image.height),
      ?_, ?_, rfl⟩
    · exact Nat.mod_eq_of_lt hwidth
    · exact Nat.mod_eq_of_lt hheight
  · obtain ⟨extension, encoder, file, made, hextension, hencoder, hencode, -, hwritten⟩ :=
      write_of_writeFile hwrite
    have hread := Directory.read_write_self hwritten
    refine ⟨extension, encoder, file, hextension, hencoder, hencode, hread, fun hlossless => ?_⟩
    have hdecode := decode_encodeWith hlossless hencoder (.inl ⟨hwidth, hheight⟩) hencode
    exact ⟨image.flipped, hdecode, rfl, rfl, rfl, image.topDown_flipped⟩

def redCorner : Image := ((blank 3 2 .rgb).setPixel 0 0 [255, 0, 0]).1

def redCornerWritten : Directory :=
  ((redCorner.writeFile Directory.access ⟨"corner.png"⟩ tgaAndPng).run.run {}).2

theorem writeFile_upright_of_redCorner :
    redCorner.width < 2 ^ 32 ∧ redCorner.height < 2 ^ 32 ∧
      HoldsTopDown redCorner.topDown redCorner ∧
      redCorner.topDown.extract 9 12 = #[255, 0, 0] ∧
      ∃ file, redCornerWritten.read ⟨"corner.png"⟩ = .ok file ∧
        ∃ shown, tgaAndPng.decode "png" file = some shown ∧ shown.width = 3 ∧ shown.height = 2 ∧
          shown.topDown = redCorner.bytes := by
  have hwidth : redCorner.width < 2 ^ 32 := by decide
  have hheight : redCorner.height < 2 ^ 32 := by decide
  have hwritten : (redCorner.writeFile Directory.access ⟨"corner.png"⟩ tgaAndPng).run.run {} =
      (.ok (), redCornerWritten) := Prod.ext (by decide +kernel) rfl
  obtain ⟨hholds, -, hread⟩ := writeFile_upright redCorner hwidth hheight tgaAndPng
  obtain ⟨extension, _, file, hextension, -, -, hfile, hkept⟩ :=
    hread {} redCornerWritten ⟨"corner.png"⟩ hwritten
  obtain rfl : "png" = extension := by
    have hpng : (⟨"corner.png"⟩ : Path).extension? = some "png" := by decide +kernel
    exact Option.some.inj (hpng.symm.trans hextension)
  obtain ⟨shown, hshown, hw, hh, -, hbytes⟩ := hkept (lossless_tgaAndPng "png")
  exact ⟨hwidth, hheight, hholds, by decide +kernel, file, hfile, shown, hshown, hw, hh, hbytes⟩

end DepthRaster.Image
