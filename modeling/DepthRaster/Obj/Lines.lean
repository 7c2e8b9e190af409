import DepthRaster.Files.Access
import DepthRaster.Text.Blank
/-!
# Lines of a file

A file is read line by line. Bytes that are no text spoil the line they are in, and no other.
-/

namespace DepthRaster.Obj

/-- A line, or nothing for bytes that are no text. -/
abbrev Line := Option (List Char)

def textLines (text : String) : List Line := (text.toList.splitOn '\n').map some

def lineEnd : UInt8 := 10

def lineOfBytes (bytes : List UInt8) : Line :=
  (String.fromUTF8? ⟨bytes.toArray⟩).map String.toList

def fileLines (bytes : Files.Bytes) : List Line :=
  match String.fromUTF8? ⟨bytes⟩ with
  | some text => textLines text
  | none => (bytes.toList.splitOn lineEnd).map lineOfBytes

def afterBlank (line : List Char) : String :=
  String.ofList (Text.trim ((line.dropWhile (· ≠ ' ')).drop 1))

end DepthRaster.Obj
