import DepthRaster.Text.Printable
/-!
# Quoted texts

A quoted text stands between quotation marks. Marks and backslashes in it follow a backslash, line
ends, tabs and zeros have a letter each, and other characters that do not show are given by number.
-/

namespace DepthRaster.Text.Quoted

def hexDigits (c : Char) : List Char := Nat.toDigits 16 c.toNat

def escape (c : Char) : List Char :=
  match c with
  | '"' => ['\\', '"']
  | '\\' => ['\\', '\\']
  | '\n' => ['\\', 'n']
  | '\r' => ['\\', 'r']
  | '\t' => ['\\', 't']
  | '\x00' => ['\\', '0']
  | c => if isPrintable c then [c] else ['\\', 'u', '\x7b'] ++ hexDigits c ++ ['\x7d']

def encode (text : List Char) : List Char := '"' :: (text.flatMap escape ++ ['"'])

def ofText (text : String) : String := String.ofList (encode text.toList)

end DepthRaster.Text.Quoted
