import DepthRaster.Obj.Lines
import DepthRaster.Numeric.Scientific
/-!
# Libraries of materials

A library defines materials by name. Their properties do not matter for meshes, but a library in
which any of them is malformed defines nothing.
-/

namespace DepthRaster.Obj

open Numeric

inductive Property where
  /-- So many numbers at the front. -/
  | numbers (count : Nat)
  /-- A whole number of eight bits. -/
  | byte
  /-- Any text but an empty one. -/
  | text
  /-- Anything at all. -/
  | anything
deriving DecidableEq, Repr

def Property.ofName : String → Property
  | "Ka" => numbers 3
  | "Kd" => numbers 3
  | "Ks" => numbers 3
  | "Ke" => numbers 3
  | "Ns" => numbers 1
  | "Ni" => numbers 1
  | "d" => numbers 1
  | "illum" => byte
  | "map_Ka" => text
  | "map_Kd" => text
  | "map_Ks" => text
  | "map_Bump" => text
  | "map_bump" => text
  | "map_Ns" => text
  | "map_ns" => text
  | "map_NS" => text
  | "bump" => text
  | "map_d" => text
  | _ => anything

def Property.accepts (words : List (List Char)) : Property → Bool
  | numbers count =>
    decide (count ≤ words.length) &&
      (words.take count).all fun word => (Scientific.readSingle word).isSome
  | byte => match words with
    | [] => false
    | word :: _ => (Whole.readUnsigned 255 word).isOk
  | text => !words.isEmpty
  | anything => true

/-- The names after one more line of a library: what follows the word `newmtl` is a new name. -/
def readMaterial (names : List String) (line : List Char) : Option (List String) :=
  match Text.words line with
  | [] => some names
  | first :: rest =>
    match String.ofList first with
    | "newmtl" =>
      if rest.isEmpty then none
      else
        let name := Text.trim ((Text.trim line).drop first.length)
        some (names ++ [String.ofList name])
    | property => if (Property.ofName property).accepts rest then some names else none

def materialNames (lines : List Line) : Option (List String) :=
  lines.foldlM (fun names line => line.bind (readMaterial names)) []

end DepthRaster.Obj
