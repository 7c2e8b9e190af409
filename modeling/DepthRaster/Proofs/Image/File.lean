import DepthRaster.Image.File
import DepthRaster.Proofs.Control.Outcomes
import DepthRaster.Proofs.Image.Items
import DepthRaster.Proofs.Image.Pixel
import DepthRaster.Proofs.Image.Png
import DepthRaster.Proofs.Image.Tga
/-!
# Image files that read back

The file of an image, of either format, reads as the image with its rows from the top down.
-/

namespace DepthRaster.Image

open Files

/-! ## Rows -/

variable (image : Image)

def rowSize : Nat := image.width * image.format.channels

def row (y : Nat) : List UInt8 :=
  (image.bytes.extract (y * image.rowSize) ((y + 1) * image.rowSize)).toList

theorem size_bytes_eq : image.bytes.size = image.height * image.rowSize := by
  rw [image.size_bytes, rowSize, Nat.mul_comm image.width, Nat.mul_assoc]

theorem toList_topDown :
    image.topDown.toList = ((List.range image.height).reverse.map image.row).flatten := by
  have hfold (ys : List Nat) (rows : Array UInt8) :
      (ys.foldl (fun rows y => rows ++ image.bytes.extract (y * image.rowSize)
        ((y + 1) * image.rowSize)) rows).toList = rows.toList ++ (ys.map image.row).flatten := by
    induction ys generalizing rows with
    | nil => exact (List.append_nil _).symm
    | cons y ys ih => rw [List.foldl_cons, ih, Array.toList_append, List.append_assoc]; rfl
  exact hfold _ #[]

theorem row_flipped {y : Nat} (hy : y < image.height) :
    image.flipped.row y = image.row (image.height - 1 - y) := by
  have hruns : ∀ run ∈ (List.range image.height).reverse.map image.row,
      run.length = image.rowSize := by
    intro run hrun
    obtain ⟨z, hz, rfl⟩ := List.mem_map.mp hrun
    exact length_extract_mul image.size_bytes_eq (List.mem_range.mp (List.mem_reverse.mp hz))
  have hlength : y < ((List.range image.height).reverse.map image.row).length := by
    rwa [List.length_map, List.length_reverse, List.length_range]
  have hrow : image.flipped.row y =
      (image.topDown.toList.drop (y * image.rowSize)).take image.rowSize :=
    toList_extract_mul image.topDown image.rowSize y
  rw [hrow, toList_topDown, take_drop_flatten hruns, List.getElem?_eq_getElem hlength]
  simp

theorem getPixel_eq_row {x y : Int} (h : image.Has x y) :
    image.getPixel x y = some (((image.row y.toNat).drop (x.toNat * image.format.channels)).take
      image.format.channels) := by
  have hin := h
  obtain ⟨hx, -, hxw, -⟩ := hin
  have hcolumn : (x.toNat + 1) * image.format.channels ≤ image.width * image.format.channels :=
    Nat.mul_le_mul_right _ (by omega)
  have hstart : image.start x y =
      y.toNat * image.rowSize + x.toNat * image.format.channels := by
    rw [start, rowSize, Nat.add_mul, Nat.mul_assoc]
  rw [getPixel_eq_extract h, hstart, row, toList_extract_mul, Array.toList_extract, List.extract,
    Nat.add_sub_cancel_left, List.drop_take, List.drop_drop, List.take_take, Nat.min_eq_left]
  rw [Nat.succ_mul] at hcolumn
  rw [rowSize]
  omega

theorem getPixel_flipped (x y : Int) :
    image.flipped.getPixel x y = image.getPixel x (image.height - 1 - y) := by
  by_cases h : image.Has x y
  · have hmirrored : image.Has x (image.height - 1 - y) := by
      obtain ⟨hx, hy, hxw, hyh⟩ := h
      exact ⟨hx, by omega, hxw, by omega⟩
    have hrow : (image.height - 1 - y : Int).toNat = image.height - 1 - y.toNat := by
      obtain ⟨-, hy, -, hyh⟩ := h
      omega
    rw [getPixel_eq_row image.flipped h, getPixel_eq_row image hmirrored, hrow,
      row_flipped image (by obtain ⟨-, hy, -, hyh⟩ := h; omega)]
    rfl
  · have hmirrored : ¬ image.Has x (image.height - 1 - y) := by
      rintro ⟨hx, hy, hxw, hyh⟩
      exact h ⟨hx, by omega, hxw, by omega⟩
    rw [getPixel_eq_none hmirrored]
    exact getPixel_eq_none h

/-- The first image is the second one upside down. -/
structure IsUpsideDown (shown image : Image) : Prop where
  width : shown.width = image.width
  height : shown.height = image.height
  format : shown.format = image.format
  pixel : ∀ x y : Int, shown.getPixel x y = image.getPixel x (image.height - 1 - y)

theorem isUpsideDown_flipped : image.flipped.IsUpsideDown image where
  width := rfl
  height := rfl
  format := rfl
  pixel := image.getPixel_flipped

/-! ## Pixels in a row -/

section

variable {format : PixelFormat} {bytes : Array UInt8} {count : Nat}
  (h : bytes.size = count * format.channels)

include h

theorem pixelsOf_eq : pixelsOf format bytes = (List.range count).map fun i =>
    (bytes.extract (i * format.channels) ((i + 1) * format.channels)).toList := by
  have hchannels : 0 < format.channels := by cases format <;> decide
  rw [pixelsOf, h, Nat.mul_div_cancel count hchannels]

theorem length_pixelsOf : (pixelsOf format bytes).length = count := by
  rw [pixelsOf_eq h, List.length_map, List.length_range]

theorem length_of_mem_pixelsOf {pixel : List UInt8} (hpixel : pixel ∈ pixelsOf format bytes) :
    pixel.length = format.channels := by
  rw [pixelsOf_eq h] at hpixel
  obtain ⟨i, hi, rfl⟩ := List.mem_map.mp hpixel
  exact length_extract_mul h (List.mem_range.mp hi)

theorem flatten_pixelsOf : (pixelsOf format bytes).flatten = bytes.toList := by
  rw [pixelsOf_eq h, flatten_extracts, ← h, ← Array.length_toList, List.take_length]

end

/-! ## Encoders and readers -/

/-- Whatever the encoder of an extension makes is read as a picture of the rows it was given. -/
def Codec.Lossless (codec : Codec) (extension : String) : Prop :=
  ∀ encoder, codec.encoder? extension = some encoder →
    ∀ width height format rows file, encoder width height format rows = .ok file →
      ∃ picture, codec.decode extension file = some picture ∧
        picture.width = width.toNat ∧ picture.height = height.toNat ∧
        picture.format = format ∧ picture.bytes = rows

theorem FileFormat.decode_encode {fileFormat : FileFormat} {width height : UInt32}
    {format : PixelFormat} {rows file : Bytes}
    (h : fileFormat.encode width height format rows = .ok file) :
    ∃ picture, fileFormat.decode file = some picture ∧ picture.width = width.toNat ∧
      picture.height = height.toNat ∧ picture.format = format ∧ picture.bytes = rows := by
  simp only [encode] at h
  split_ifs at h with hsize
  have hpicture : ofBytes? width.toNat height.toNat format rows =
      some ⟨width.toNat, height.toNat, format, rows, hsize⟩ := dif_pos hsize
  refine ⟨⟨width.toNat, height.toNat, format, rows, hsize⟩, ?_, rfl, rfl, rfl, rfl⟩
  cases fileFormat with
  | tga =>
      have hread := Tga.decode_encode (length_pixelsOf hsize)
        (fun pixel => length_of_mem_pixelsOf hsize) (mapError_eq_ok.mp h)
      rw [decode, hread, Option.bind_some]
      simp only [flatten_pixelsOf hsize, Array.toArray_toList]
      exact hpicture
  | png =>
      have hread :=
        Png.decode_encode width.toNat_lt height.toNat_lt hsize (mapError_eq_ok.mp h)
      rw [decode, hread, Option.bind_some]
      exact hpicture

theorem lossless_tgaAndPng (extension : String) : tgaAndPng.Lossless extension := by
  intro encoder hencoder width height format rows file hfile
  obtain ⟨fileFormat, hformat, rfl⟩ := Option.map_eq_some_iff.mp hencoder
  obtain ⟨picture, hpicture, hkept⟩ := FileFormat.decode_encode hfile
  refine ⟨picture, ?_, hkept⟩
  change (FileFormat.ofExtension? extension).bind (·.decode file) = some picture
  rw [hformat]
  exact hpicture

/-! ## Pictures of an image -/

theorem eq_of_mul_eq_mul_of_le {a b c d : Nat} (hac : a ≤ c) (hbd : b ≤ d) (ha : a ≠ 0) (hb : b ≠ 0)
    (h : a * b = c * d) : a = c ∧ b = d := by
  have hleft : a * b ≤ a * d := Nat.mul_le_mul_left a hbd
  have hright : a * d ≤ c * d := Nat.mul_le_mul_right d hac
  have hd : 0 < d := Nat.lt_of_lt_of_le (Nat.pos_of_ne_zero hb) hbd
  exact ⟨Nat.eq_of_mul_eq_mul_right hd (by omega),
    Nat.eq_of_mul_eq_mul_left (Nat.pos_of_ne_zero ha) (by omega)⟩

/-- Sides of 32 bits are stated as they are. Others lose their upper bits, which shows in the number
of bytes if there are any. -/
def KeepsSides : Prop :=
  (image.width < 2 ^ 32 ∧ image.height < 2 ^ 32) ∨ (0 < image.width ∧ 0 < image.height)

variable {image}

theorem sides_eq_of_bytes {picture : Image} (hsides : image.KeepsSides)
    (hwidth : picture.width = statedSide image.width)
    (hheight : picture.height = statedSide image.height)
    (hformat : picture.format = image.format) (hbytes : picture.bytes = image.topDown) :
    picture.width = image.width ∧ picture.height = image.height := by
  rcases hsides with ⟨hw, hh⟩ | ⟨hw, hh⟩
  · exact ⟨hwidth.trans (Nat.mod_eq_of_lt hw), hheight.trans (Nat.mod_eq_of_lt hh)⟩
  · have hchannels : 0 < image.format.channels := by cases image.format <;> decide
    have hsize := picture.size_bytes
    rw [hbytes, size_topDown, image.size_bytes, hformat] at hsize
    have harea := (Nat.eq_of_mul_eq_mul_right hchannels hsize).symm
    have hpos : 0 < picture.width * picture.height := harea ▸ Nat.mul_pos hw hh
    exact eq_of_mul_eq_mul_of_le (hwidth ▸ Nat.mod_le _ _) (hheight ▸ Nat.mod_le _ _)
      (Nat.pos_of_mul_pos_right hpos).ne' (Nat.pos_of_mul_pos_left hpos).ne' harea

/-- A file made without loss reads as the image with its rows from the top down. -/
theorem decode_encodeWith {codec : Codec} {extension : String} {encoder : Encoder} {file : Bytes}
    (hlossless : codec.Lossless extension) (hencoder : codec.encoder? extension = some encoder)
    (hsides : image.KeepsSides) (h : image.encodeWith encoder = .ok file) :
    codec.decode extension file = some image.flipped := by
  obtain ⟨picture, hpicture, hwidth, hheight, hformat, hbytes⟩ :=
    hlossless encoder hencoder _ _ _ _ _ h
  obtain ⟨hwidth, hheight⟩ := sides_eq_of_bytes hsides hwidth hheight hformat hbytes
  obtain ⟨width, height, format, bytes, hsize⟩ := picture
  subst hwidth hheight hformat hbytes
  exact hpicture

end DepthRaster.Image
