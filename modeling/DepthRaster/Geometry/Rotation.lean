import DepthRaster.Geometry.Point
/-!
# Rotations

A rotation about an axis through the origin, as a matrix, and its action on points.
-/

namespace DepthRaster.Geometry

open Numeric (Scalar)

structure Matrix (α : Type) where
  row₁ : Point α
  row₂ : Point α
  row₃ : Point α
deriving Repr

namespace Matrix

variable {α : Type} [Scalar α]

def identity : Matrix α :=
  let zero : α := Scalar.ofInt 0
  let one : α := Scalar.ofInt 1
  ⟨⟨one, zero, zero⟩, ⟨zero, one, zero⟩, ⟨zero, zero, one⟩⟩

/-- The rotation about the unit vector `u` by the angle of the given sine and cosine. -/
def aboutAxis (u : Point α) (sine cosine : α) : Matrix α :=
  let one : α := Scalar.ofInt 1
  let versine := one - cosine
  let diagonal (t : α) : α := t * t + (one - t * t) * cosine
  ⟨⟨diagonal u.x, u.x * u.y * versine - u.z * sine, u.x * u.z * versine + u.y * sine⟩,
   ⟨u.x * u.y * versine + u.z * sine, diagonal u.y, u.y * u.z * versine - u.x * sine⟩,
   ⟨u.x * u.z * versine - u.y * sine, u.y * u.z * versine + u.x * sine, diagonal u.z⟩⟩

def vertical : Point α := ⟨Scalar.ofInt 0, Scalar.ofInt 1, Scalar.ofInt 0⟩

def dot (row p : Point α) : α := row.z * p.z + (row.y * p.y + row.x * p.x)

def apply (m : Matrix α) (p : Point α) : Point α := ⟨dot m.row₁ p, dot m.row₂ p, dot m.row₃ p⟩

/-- The rotation about the vertical axis by an angle in radians. The angle zero leaves every point
as it is. -/
def turn (radians : Float) : Matrix Float :=
  if radians == 0 then identity else aboutAxis vertical radians.sin radians.cos

end Matrix

/-- The double-precision number nearest to one degree in radians. -/
def radiansPerDegree : Float := Float.ofBits 0x3F91DF46A2529D39

def radiansOfDegrees (degrees : Float) : Float := degrees * radiansPerDegree

end DepthRaster.Geometry
