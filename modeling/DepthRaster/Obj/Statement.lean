import DepthRaster.Obj.Lines
import DepthRaster.Numeric.Scientific
import DepthRaster.Geometry.Point
/-!
# Statements of OBJ files

A line of an OBJ file makes one statement; its first word says which. Lines that begin with another
word are left alone.
-/

namespace DepthRaster.Obj

open DepthRaster.Geometry (Point)
open Numeric

inductive ObjError where
  | unreadable
  | position
  | zeroScale
  | colors
  | textureCoordinate
  | normal
  | face
  | material
  | emptyFace
  | vertexOutOfBounds
  | colorOutOfBounds
  | textureOutOfBounds
  | normalOutOfBounds
  /-- Any other refusal, with its text. -/
  | other (text : String)
deriving DecidableEq, Repr

def ObjError.message : ObjError → String
  | unreadable => "read error"
  | position => "position parse error"
  | zeroScale => "scaling (w) by zero"
  | colors => "color parse error (too many or too few components)"
  | textureCoordinate => "texcoord parse error"
  | normal => "normal parse error"
  | face => "face parse error"
  | material => "material parse error"
  | emptyFace => "invalid polygon"
  | vertexOutOfBounds => "face vertex index out of bounds"
  | colorOutOfBounds => "face vertex color index out of bounds"
  | textureOutOfBounds => "face texcoord index out of bounds"
  | normalOutOfBounds => "face normal index out of bounds"
  | other text => text

/-- A corner as it is written: numbers of a vertex, a texture coordinate and a normal. Numbers count
from one on, or backward from the latest when they are negative. -/
structure CornerText where
  vertex : Option Int := none
  texture : Option Int := none
  normal : Option Int := none
deriving DecidableEq, Repr

inductive Statement where
  | nothing
  /-- A vertex, and the number of colour channels that came with it. -/
  | position (point : Point Float32) (channels : Nat)
  | textureCoordinate
  | normal
  /-- A face; with two corners a line, with one a point. -/
  | face (corners : List CornerText)
  | part (name : String)
  | library (name : String)
  /-- The material from here on. -/
  | material (name : String)

def number? (word : List Char) : Option Float32 := Scientific.readSingle word

def startsWithNumbers (count : Nat) (words : List (List Char)) : Bool :=
  decide (count ≤ words.length) && (words.take count).all fun word => (number? word).isSome

/-- What follows the three coordinates of a vertex: nothing, a number that scales them, or three
colour channels, which are counted up to the first that is no number. -/
def readExtras (point : Point Float32) : List (List Char) → Except ObjError Statement
  | [] => .ok (.position point 0)
  | [word] =>
    match number? word with
    | none => .error .position
    | some w =>
      if w == 0 then .error .zeroScale
      else .ok (.position ⟨point.x / w, point.y / w, point.z / w⟩ 0)
  | [red, green, blue] =>
    let channels := [red, green, blue].takeWhile fun word => (number? word).isSome
    .ok (.position point channels.length)
  | _ => .error .colors

def readPosition : List (List Char) → Except ObjError Statement
  | x :: y :: z :: extras =>
    match number? x, number? y, number? z with
    | some x, some y, some z => readExtras ⟨x, y, z⟩ extras
    | _, _, _ => .error .position
  | _ => .error .position

def readNumber : List Char → Except ObjError (Option Int)
  | [] => .ok none
  | cs => match Whole.readSigned cs with
    | .ok n => .ok (some n)
    | .error _ => .error .face

def readCorner (word : List Char) : Except ObjError CornerText := do
  match ← (word.splitOn '/').mapM readNumber with
  | [] => return {}
  | [vertex] => return { vertex }
  | [vertex, texture] => return { vertex, texture }
  | vertex :: texture :: normal :: rest =>
    if rest.all Option.isNone then return { vertex, texture, normal } else throw .face

def Statement.read (line : List Char) : Except ObjError Statement :=
  match Text.words line with
  | [] => .ok .nothing
  | first :: rest =>
    match String.ofList first with
    | "v" => readPosition rest
    | "vt" => if startsWithNumbers 2 rest then .ok .textureCoordinate else .error .textureCoordinate
    | "vn" => if startsWithNumbers 3 rest then .ok .normal else .error .normal
    | "f" => .face <$> rest.mapM readCorner
    | "l" => .face <$> rest.mapM readCorner
    | "o" => .ok (.part (String.ofList (Text.trim (line.drop 1))))
    | "g" => .ok (.part (String.ofList (Text.trim (line.drop 1))))
    | "mtllib" => .ok (.library (afterBlank line))
    | "usemtl" =>
      let name := afterBlank line
      if name.isEmpty then .error .material else .ok (.material name)
    | _ => .ok .nothing

def Statement.ofLine : Line → Except ObjError Statement
  | none => .error .unreadable
  | some line => read line

end DepthRaster.Obj
