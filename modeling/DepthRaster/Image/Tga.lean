import DepthRaster.Image.Basic
/-!
# TGA files

A TGA file is a header and the pixels, top row first, in packets: a run is one pixel with a count, a
raw packet lists its pixels. Packets pay no heed to the ends of rows and hold at most 128 pixels.
Channels are stored from blue to red.
-/

namespace DepthRaster.Tga

abbrev Pixel := List UInt8

inductive Packet where
  | run (length : Nat) (pixel : Pixel)
  | raw (pixels : List Pixel)
deriving DecidableEq, Repr

namespace Packet

def expand : Packet → List Pixel
  | run length pixel => List.replicate length pixel
  | raw pixels => pixels

/-- The bytes of a packet: a head with the count less one, marked for runs, and the pixels. -/
def toBytes : Packet → List UInt8
  | run length pixel => (0x80 ||| UInt8.ofNat (length - 1)) :: pixel.reverse
  | raw pixels => UInt8.ofNat (pixels.length - 1) :: pixels.flatMap List.reverse

end Packet

def maxPacketLength : Nat := 128

structure Packer where
  packets : Array Packet := #[]
  /-- Pixels of the packet in the making. -/
  pending : Array Pixel := #[]
  inRun : Bool := true
  previous : Option Pixel := none

namespace Packer

def close (s : Packer) : Packer :=
  if s.pending.isEmpty then s
  else
    let packet :=
      if s.inRun then .run s.pending.size (s.previous.getD []) else .raw s.pending.toList
    { s with packets := s.packets.push packet, pending := #[] }

def turn (s : Packer) (pixel : Pixel) : Packer :=
  match s.previous with
  | none => s
  | some previous =>
    if pixel = previous then { (if s.inRun then s else s.close) with inRun := true }
    else if s.inRun && !s.pending.isEmpty then { s.close with inRun := false }
    else s

def push (s : Packer) (pixel : Pixel) : Packer :=
  let turned := s.turn pixel
  let taken := { turned with pending := turned.pending.push pixel, previous := some pixel }
  if taken.pending.size = maxPacketLength then { taken.close with inRun := true } else taken

end Packer

def packetsOf (pixels : List Pixel) : List Packet :=
  (pixels.foldl Packer.push {}).close.packets.toList

/-- A number in two bytes, the low one first. -/
def word (n : Nat) : List UInt8 := [UInt8.ofNat n, UInt8.ofNat (n / 256)]

def header (width height : Nat) (format : PixelFormat) : List UInt8 :=
  let kind : UInt8 := match format with
    | .rgb => 10
    | .gray => 11
  [0, 0, kind, 0, 0, 0, 0, 0, 0, 0, 0, 0] ++ word width ++ word height ++
    [UInt8.ofNat (8 * format.channels), 0x20]

inductive SizeError where
  | empty (width height : Nat)
  | tooWide (width : Nat)
  | tooHigh (height : Nat)
deriving DecidableEq, Repr

def SizeError.message : SizeError → String
  | empty width height => s!"Format error encoding Tga:\nInvalid TGA size: {width}x{height}"
  | tooWide width => s!"Format error encoding Tga:\nInvalid TGA width: {width}"
  | tooHigh height => s!"Format error encoding Tga:\nInvalid TGA height: {height}"

def encode (width height : Nat) (format : PixelFormat) (rows : Array UInt8) :
    Except SizeError (Array UInt8) :=
  if width = 0 ∨ height = 0 then .error (.empty width height)
  else if 65536 ≤ width then .error (.tooWide width)
  else if 65536 ≤ height then .error (.tooHigh height)
  else
    let packets := packetsOf (Image.pixelsOf format rows)
    .ok (header width height format ++ packets.flatMap Packet.toBytes).toArray

/-! ## Reading -/

def takePixel (channels : Nat) (bytes : List UInt8) : Option (Pixel × List UInt8) :=
  if bytes.length < channels then none
  else some ((bytes.take channels).reverse, bytes.drop channels)

def takePixels (channels : Nat) : Nat → List UInt8 → Option (List Pixel × List UInt8)
  | 0, bytes => some ([], bytes)
  | n + 1, bytes => do
    let (pixel, bytes) ← takePixel channels bytes
    let (pixels, bytes) ← takePixels channels n bytes
    return (pixel :: pixels, bytes)

def takePacket (channels : Nat) : List UInt8 → Option (Packet × List UInt8)
  | [] => none
  | head :: bytes =>
    let length := (head &&& 0x7F).toNat + 1
    if head &&& 0x80 = 0 then do
      let (pixels, bytes) ← takePixels channels length bytes
      return (.raw pixels, bytes)
    else do
      let (pixel, bytes) ← takePixel channels bytes
      return (.run length pixel, bytes)

structure Contents where
  width : Nat
  height : Nat
  format : PixelFormat
  pixels : List Pixel
deriving DecidableEq, Repr

/-- Reads a file of the kind that `encode` writes. -/
def decode (bytes : List UInt8) : Option Contents := do
  let head := bytes.take 18
  let number (i : Nat) : Nat := (head.getD i 0).toNat + 256 * (head.getD (i + 1) 0).toNat
  let format : PixelFormat := if head.getD 2 0 = 10 then .rgb else .gray
  let (width, height) := (number 12, number 14)
  if head ≠ header width height format then none
  else
    let body := bytes.drop 18
    let packets ← Image.takeAll (takePacket format.channels) body.length body
    let pixels := packets.flatMap Packet.expand
    if pixels.length = width * height then some ⟨width, height, format, pixels⟩ else none

end DepthRaster.Tga
