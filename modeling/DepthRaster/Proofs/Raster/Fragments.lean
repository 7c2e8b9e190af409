import DepthRaster.Raster.Fill
/-!
# Fragments row by row

Sharing out the rows of a triangle finds the fragments that going through its pixels finds, so a
triangle is filled by the same writes either way.
-/

namespace DepthRaster.Raster.Triangle

open Numeric (Scalar)
open Color (Rgb)

theorem fragmentsByRow_eq_fragments (α : Type) [Scalar α] (t : Triangle) (width height : Nat) :
    t.fragmentsByRow α width height = t.fragments α width height := by
  unfold fragmentsByRow fragments
  cases t.coverage α width height with
  | none => rfl
  | some covered =>
      obtain ⟨box, total⟩ := covered
      simp only [Box.pixels, List.filterMap_flatMap, List.filterMap_map]
      rfl

theorem writes_eq (t : Triangle) (order : UInt32) (color : Rgb) (width height : Nat)
    (shared : Bool) :
    t.writes order color width height shared =
      (t.fragments Float width height).map (·.write order color) := by
  simp only [writes, fragmentsByRow_eq_fragments, ite_self]

end DepthRaster.Raster.Triangle
