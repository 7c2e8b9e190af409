import DepthRaster.Image.Basic
import DepthRaster.Image.Checksum
/-!
# PNG files

A PNG file is a signature and a sequence of checked chunks: the header, the pixels and an end mark.
Pixels are stored top row first, each row after a byte that names its filter. The files written here
use no filter and stored blocks only. Files with anything else in them are not read.
-/

namespace DepthRaster.Png

open Checksum (crc32 adler32)

def signature : List UInt8 := [0x89, 0x50, 0x4E, 0x47, 0x0D, 0x0A, 0x1A, 0x0A]

/-- A number in four bytes, the high one first. -/
def word (n : Nat) : List UInt8 :=
  [UInt8.ofNat (n / 16777216), UInt8.ofNat (n / 65536), UInt8.ofNat (n / 256), UInt8.ofNat n]

/-- A number in two bytes, the low one first. -/
def shortWord (n : Nat) : List UInt8 := [UInt8.ofNat n, UInt8.ofNat (n / 256)]

def pieces (size : Nat) : Nat → List UInt8 → List (List UInt8)
  | 0, _ => []
  | count + 1, data => data.take size :: pieces size count (data.drop size)

/-- A list in as many pieces of up to a size as it takes. An empty list is one empty piece. -/
def split (size : Nat) (data : List UInt8) : List (List UInt8) :=
  pieces size ((data.length - 1) / size + 1) data

/-! ## Chunks -/

structure Chunk where
  kind : List UInt8
  data : List UInt8
deriving DecidableEq

def headKind : List UInt8 := "IHDR".toUTF8.data.toList

def dataKind : List UInt8 := "IDAT".toUTF8.data.toList

def endKind : List UInt8 := "IEND".toUTF8.data.toList

def Chunk.toBytes (chunk : Chunk) : List UInt8 :=
  let body := chunk.kind ++ chunk.data
  word chunk.data.length ++ body ++ word (crc32 body).toNat

def maxChunkSize : Nat := 2147483647

/-! ## Pixels -/

def maxBlockSize : Nat := 65535

def storedBlocks : List (List UInt8) → List UInt8
  | [] => []
  | block :: more =>
    let last : UInt8 := if more.isEmpty then 1 else 0
    last :: (shortWord block.length ++ shortWord (65535 - block.length)) ++
      (block ++ storedBlocks more)

def zlibStream (data : List UInt8) : List UInt8 :=
  [0x78, 0x01] ++ storedBlocks (split maxBlockSize data) ++ word (adler32 data).toNat

def unfilteredRows (rowSize height : Nat) (rows : List UInt8) : List UInt8 :=
  (pieces rowSize height rows).flatMap (0 :: ·)

/-- What the header says of the pixels: eight bits a channel, and the kind of colour. -/
def pixelData : PixelFormat → List UInt8
  | .rgb => [8, 2, 0, 0, 0]
  | .gray => [8, 0, 0, 0, 0]

def headerData (width height : Nat) (format : PixelFormat) : List UInt8 :=
  word width ++ word height ++ pixelData format

inductive SizeError where
  | zeroWidth
  | zeroHeight
deriving DecidableEq, Repr

def SizeError.message : SizeError → String
  | zeroWidth => "Zero width not allowed"
  | zeroHeight => "Zero height not allowed"

def chunksOf (width height : Nat) (format : PixelFormat) (rows : List UInt8) : List Chunk :=
  let stream := zlibStream (unfilteredRows (width * format.channels) height rows)
  ⟨headKind, headerData width height format⟩ ::
    ((split maxChunkSize stream).map (Chunk.mk dataKind) ++ [⟨endKind, []⟩])

def encode (width height : Nat) (format : PixelFormat) (rows : Array UInt8) :
    Except SizeError (Array UInt8) :=
  if width = 0 then .error .zeroWidth
  else if height = 0 then .error .zeroHeight
  else
    let chunks := chunksOf width height format rows.toList
    .ok (signature ++ chunks.flatMap Chunk.toBytes).toArray

/-! ## Reading -/

def takeWord : List UInt8 → Option (Nat × List UInt8)
  | a :: b :: c :: d :: rest =>
    some (((a.toNat * 256 + b.toNat) * 256 + c.toNat) * 256 + d.toNat, rest)
  | _ => none

def takeChunk (bytes : List UInt8) : Option (Chunk × List UInt8) := do
  let (size, rest) ← takeWord bytes
  let body := rest.take (4 + size)
  let (check, rest) ← takeWord (rest.drop (4 + size))
  if check = (crc32 body).toNat then some (⟨body.take 4, body.drop 4⟩, rest) else none

def takeBlocks : Nat → List UInt8 → Option (List UInt8 × List UInt8)
  | fuel + 1, last :: low :: high :: _ :: _ :: rest =>
    let size := low.toNat + 256 * high.toNat
    if last = 1 then some (rest.take size, rest.drop size)
    else if last = 0 then do
      let (data, after) ← takeBlocks fuel (rest.drop size)
      return (rest.take size ++ data, after)
    else none
  | _, _ => none

structure Contents where
  width : Nat
  height : Nat
  format : PixelFormat
  rows : Array UInt8
deriving DecidableEq, Repr

def ofZlibStream (stream : List UInt8) : Option (List UInt8) := do
  let (data, rest) ← takeBlocks stream.length (stream.drop 2)
  let (check, _) ← takeWord rest
  if check = (adler32 data).toNat then some data else none

def formatOf? (data : List UInt8) : Option PixelFormat :=
  if data = pixelData .rgb then some .rgb
  else if data = pixelData .gray then some .gray
  else none

def unfiltered? : List UInt8 → Option (List UInt8)
  | 0 :: row => some row
  | _ => none

def ofChunks : List Chunk → Option Contents
  | [] => none
  | head :: chunks => do
    if head.kind ≠ headKind then none
    let (width, rest) ← takeWord head.data
    let (height, rest) ← takeWord rest
    let format ← formatOf? rest
    let data ← ofZlibStream ((chunks.filter (·.kind = dataKind)).flatMap Chunk.data)
    let rows ← (pieces (width * format.channels + 1) height data).mapM unfiltered?
    return ⟨width, height, format, rows.flatten.toArray⟩

/-- Reads a file of the kind that `encode` writes. -/
def decode (bytes : Array UInt8) : Option Contents :=
  if bytes.toList.take 8 = signature then
    (Image.takeAll takeChunk bytes.size (bytes.toList.drop 8)).bind ofChunks
  else none

end DepthRaster.Png
