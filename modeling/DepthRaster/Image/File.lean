import DepthRaster.Image.Tga
import DepthRaster.Image.Png
import DepthRaster.Files.Access
import DepthRaster.Text.Quoted
/-!
# Image files

The extension of a path decides how an image is encoded. The file is made before that, so an image
that has no encoding leaves an empty file. Here are encoders for two formats; others can be put in
their place.
-/

namespace DepthRaster.Image

open Files

/-! ## Encoders -/

inductive EncodeError where
  /-- There are not as many bytes as the stated sides ask for. -/
  | length (width height : UInt32) (expected actual : Nat)
  | tga (cause : Tga.SizeError)
  | png (cause : Png.SizeError)
  /-- Any other refusal, with its text. -/
  | other (text : String)
deriving DecidableEq, Repr

def EncodeError.message : EncodeError → String
  | length width height expected actual =>
    s!"Invalid buffer length: expected {expected} got {actual} for {width}x{height} image"
  | tga cause => cause.message
  | png cause => cause.message
  | other text => text

/-- What makes a file of rows that are given from the top down. -/
abbrev Encoder :=
  (width height : UInt32) → PixelFormat → (rows : Bytes) → Except EncodeError Bytes

/-- How the files of each extension are written and read. Not all need to have an encoder. -/
structure Codec where
  encoder? : (extension : String) → Option Encoder
  /-- The image of a file, with its rows in their order there. -/
  decode : (extension : String) → (file : Bytes) → Option Image

/-! ## Two formats -/

inductive FileFormat where
  | tga
  | png
deriving DecidableEq, Repr

namespace FileFormat

def ofExtension? (extension : String) : Option FileFormat :=
  match String.ofList (extension.toList.map Char.toLower) with
  | "tga" => some tga
  | "png" => some png
  | "apng" => some png
  | _ => none

def encode (format : FileFormat) : Encoder := fun width height pixels rows =>
  let expected := width.toNat * height.toNat * pixels.channels
  if rows.size = expected then
    match format with
    | tga => (Tga.encode width.toNat height.toNat pixels rows).mapError .tga
    | png => (Png.encode width.toNat height.toNat pixels rows).mapError .png
  else .error (.length width height expected rows.size)

def ofBytes? (width height : Nat) (pixels : PixelFormat) (bytes : Bytes) : Option Image :=
  if h : bytes.size = width * height * pixels.channels then
    some ⟨width, height, pixels, bytes, h⟩
  else none

def decode (format : FileFormat) (file : Bytes) : Option Image :=
  match format with
  | tga => (Tga.decode file.toList).bind fun tga =>
    ofBytes? tga.width tga.height tga.format tga.pixels.flatten.toArray
  | png => (Png.decode file).bind fun png => ofBytes? png.width png.height png.format png.rows

end FileFormat

def tgaAndPng : Codec where
  encoder? extension := (FileFormat.ofExtension? extension).map FileFormat.encode
  decode extension file := (FileFormat.ofExtension? extension).bind (·.decode file)

/-! ## Writing -/

inductive WriteCause where
  | noExtension
  | unknownExtension (extension : String)
  | refused (cause : OsError)
  | notEncoded (cause : EncodeError)
deriving DecidableEq, Repr

def WriteCause.message : WriteCause → String
  | noExtension => "The image format could not be determined"
  | unknownExtension extension =>
    s!"The file extension `.{Text.Quoted.ofText extension}` was not recognized as an image format"
  | refused cause => cause.message
  | notEncoded cause => cause.message

structure WriteError where
  path : Path
  cause : WriteCause
deriving DecidableEq, Repr

def WriteError.message (e : WriteError) : String :=
  s!"保存图像到 {e.path.text} 时出错: {e.cause.message}"

def encoderOf (codec : Codec) (path : Path) : Except WriteCause Encoder :=
  match path.extension? with
  | none => .error .noExtension
  | some extension =>
    match codec.encoder? extension with
    | none => .error (.unknownExtension extension)
    | some encoder => .ok encoder

/-- The number of pixels of a side as a file states it, in 32 bits. -/
def statedSide (side : Nat) : Nat := side % UInt32.size

theorem statedSide_lt (side : Nat) : statedSide side < UInt32.size := Nat.mod_lt side (by decide)

def encodeWith (image : Image) (encoder : Encoder) : Except EncodeError Bytes :=
  encoder (.ofNatLT (statedSide image.width) (statedSide_lt image.width))
    (.ofNatLT (statedSide image.height) (statedSide_lt image.height)) image.format image.topDown

variable {m : Type → Type} [Monad m]

def writeFile (access : Access m) (image : Image) (path : Path) (codec : Codec := tgaAndPng) :
    ExceptT WriteError m Unit := do
  let fail {α : Type} (cause : WriteCause) : ExceptT WriteError m α := throw ⟨path, cause⟩
  match encoderOf codec path with
  | .error cause => fail cause
  | .ok encoder =>
    match ← access.write path #[] with
    | .error cause => fail (.refused cause)
    | .ok () =>
      match image.encodeWith encoder with
      | .error cause => fail (.notEncoded cause)
      | .ok bytes =>
        match ← access.write path bytes with
        | .error cause => fail (.refused cause)
        | .ok () => return ()

end DepthRaster.Image
