import DepthRaster.Text.Ranges
/-!
# Blanks

Blanks are the characters with the property of white space. Words are what stands between them.
-/

namespace DepthRaster.Text

def blankRanges : Ranges := [
  (0x9, 0xD), (0x20, 0x20), (0x85, 0x85), (0xA0, 0xA0), (0x1680, 0x1680), (0x2000, 0x200A),
  (0x2028, 0x2029), (0x202F, 0x202F), (0x205F, 0x205F), (0x3000, 0x3000)]

def isBlank (c : Char) : Bool := blankRanges.contains c

def trim (cs : List Char) : List Char :=
  ((cs.dropWhile isBlank).reverse.dropWhile isBlank).reverse

def words (cs : List Char) : List (List Char) := (cs.splitOnP isBlank).filter (· ≠ [])

end DepthRaster.Text
