/-!
# Checksums

The two checksums of PNG files: a cyclic redundancy check over chunks, and the pair of sums over the
data.
-/

namespace DepthRaster.Checksum

/-- One step of division by the CRC polynomial, on the remainder with its bits reversed. -/
def crcShift (c : UInt32) : UInt32 :=
  if c &&& 1 = 1 then (c >>> 1) ^^^ (0xEDB88320 : UInt32) else c >>> 1

def crcTable : Array UInt32 :=
  (Array.range 256).map fun n => Nat.repeat crcShift 8 (UInt32.ofNat n)

def crcStep (c : UInt32) (byte : UInt8) : UInt32 :=
  crcTable.getD ((c ^^^ byte.toUInt32) &&& 0xFF).toNat 0 ^^^ (c >>> 8)

def crc32 (bytes : List UInt8) : UInt32 :=
  bytes.foldl crcStep 0xFFFFFFFF ^^^ 0xFFFFFFFF

def adlerModulus : UInt32 := 65521

def adlerStep : UInt32 × UInt32 → UInt8 → UInt32 × UInt32
  | (a, b), byte =>
    let a := (a + byte.toUInt32) % adlerModulus
    (a, (b + a) % adlerModulus)

def adler32 (bytes : List UInt8) : UInt32 :=
  let (a, b) := bytes.foldl adlerStep (1, 0)
  (b <<< 16) ||| a

end DepthRaster.Checksum
