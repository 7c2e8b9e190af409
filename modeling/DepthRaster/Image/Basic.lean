/-!
# Images

An image is a grid of pixels of one or three bytes. Its origin is the lower left corner, so rows
count upward; pictures in files begin with the top row.
-/

namespace DepthRaster

inductive PixelFormat where
  | gray
  | rgb
deriving DecidableEq, Repr

def PixelFormat.channels : PixelFormat → Nat
  | gray => 1
  | rgb => 3

structure Image where
  width : Nat
  height : Nat
  format : PixelFormat
  bytes : Array UInt8
  size_bytes : bytes.size = width * height * format.channels
deriving DecidableEq

namespace Image

def blank (width height : Nat) (format : PixelFormat) : Image where
  width := width
  height := height
  format := format
  bytes := Array.replicate (width * height * format.channels) 0
  size_bytes := Array.size_replicate

def offset? (width height channels : Nat) (x y : Int) : Option Nat :=
  if 0 ≤ x ∧ 0 ≤ y ∧ x < width ∧ y < height then
    some ((y.toNat * width + x.toNat) * channels)
  else
    none

def overwrite (bytes : Array UInt8) (start : Nat) : List UInt8 → Array UInt8
  | [] => bytes
  | value :: rest => overwrite (bytes.setIfInBounds start value) (start + 1) rest

theorem size_overwrite (values : List UInt8) (bytes : Array UInt8) (start : Nat) :
    (overwrite bytes start values).size = bytes.size := by
  induction values generalizing bytes start with
  | nil => rfl
  | cons value rest ih => rw [overwrite, ih, Array.size_setIfInBounds]

/-- Sets a pixel to the first bytes of a colour, and says whether it did. Positions outside the
image and colours of too few bytes change nothing. -/
def setPixel (image : Image) (x y : Int) (color : List UInt8) : Image × Bool :=
  match image with
  | ⟨width, height, format, bytes, size_bytes⟩ =>
    if color.length < format.channels then
      (⟨width, height, format, bytes, size_bytes⟩, false)
    else
      match offset? width height format.channels x y with
      | none => (⟨width, height, format, bytes, size_bytes⟩, false)
      | some start =>
        let values := color.take format.channels
        (⟨width, height, format, overwrite bytes start values,
          (size_overwrite values bytes start).trans size_bytes⟩, true)

def getPixel (image : Image) (x y : Int) : Option (List UInt8) :=
  (offset? image.width image.height image.format.channels x y).map fun start =>
    (image.bytes.extract start (start + image.format.channels)).toList

def topDown (image : Image) : Array UInt8 :=
  let rowSize := image.width * image.format.channels
  (List.range image.height).reverse.foldl
    (fun rows y => rows ++ image.bytes.extract (y * rowSize) ((y + 1) * rowSize)) #[]

theorem size_foldl_extract (bytes : Array UInt8) {rowSize height : Nat}
    (h : bytes.size = height * rowSize) {ys : List Nat} (hys : ∀ y ∈ ys, y < height)
    (rows : Array UInt8) :
    (ys.foldl (fun rows y => rows ++ bytes.extract (y * rowSize) ((y + 1) * rowSize)) rows).size =
      rows.size + ys.length * rowSize := by
  induction ys generalizing rows with
  | nil => rw [List.foldl_nil, List.length_nil, Nat.zero_mul, Nat.add_zero]
  | cons y ys ih =>
      have hy := hys y List.mem_cons_self
      have hend : (y + 1) * rowSize ≤ bytes.size := h ▸ Nat.mul_le_mul_right rowSize hy
      rw [List.foldl_cons, ih fun z hz => hys z (List.mem_cons_of_mem y hz), Array.size_append,
        Array.size_extract, Nat.min_eq_left hend, List.length_cons, Nat.succ_mul, Nat.succ_mul]
      omega

theorem size_topDown (image : Image) : image.topDown.size = image.bytes.size := by
  have hrows : image.bytes.size = image.height * (image.width * image.format.channels) := by
    rw [image.size_bytes, Nat.mul_comm image.width, Nat.mul_assoc]
  rw [topDown, size_foldl_extract _ hrows fun y hy => List.mem_range.mp (List.mem_reverse.mp hy),
    List.length_reverse, List.length_range, hrows, Array.size_empty, Nat.zero_add]

def flipped (image : Image) : Image :=
  { image with bytes := image.topDown, size_bytes := image.size_topDown.trans image.size_bytes }

def pixelsOf (format : PixelFormat) (bytes : Array UInt8) : List (List UInt8) :=
  (List.range (bytes.size / format.channels)).map fun i =>
    (bytes.extract (i * format.channels) ((i + 1) * format.channels)).toList

def takeAll {α : Type} (take : List UInt8 → Option (α × List UInt8)) :
    Nat → List UInt8 → Option (List α)
  | _, [] => some []
  | 0, _ :: _ => none
  | fuel + 1, byte :: bytes => do
    let (item, rest) ← take (byte :: bytes)
    let items ← takeAll take fuel rest
    return item :: items

end Image

end DepthRaster
