import DepthRaster.Numeric.Binary
/-!
# Scalars

The geometry of the rasterizer is written once, over any type of scalars. Two readings matter:
double-precision numbers, which programs compute with, and rational numbers, which say what those
computations approximate.
-/

namespace DepthRaster.Numeric

/-- Numbers that geometry is computed with. The four operations need not obey the laws of a field;
floating-point numbers do not. -/
class Scalar (α : Type) extends Add α, Sub α, Mul α, Div α, LE α, LT α where
  ofInt : Int → α
  decidableLE : DecidableLE α
  decidableLT : DecidableLT α
  isFinite : α → Bool
  /-- The nearest whole number between two bounds, halves going away from zero; zero for what is no
  number. -/
  roundWithin : (low high : Int) → α → Int

instance instDecidableLe {α : Type} [Scalar α] (a b : α) : Decidable (a ≤ b) :=
  Scalar.decidableLE a b

instance instDecidableLt {α : Type} [Scalar α] (a b : α) : Decidable (a < b) :=
  Scalar.decidableLT a b

@[inline] instance : Scalar Float where
  ofInt := Float.ofInt
  decidableLE := Float.decLe
  decidableLT := Float.decLt
  isFinite := Float.isFinite
  roundWithin low high x := (Binary.ofFloat x).roundWithin low high

def roundRational (q : Rat) : Int :=
  if q < 0 then -(-q + 1 / 2).floor else (q + 1 / 2).floor

instance : Scalar Rat where
  ofInt n := n
  decidableLE := inferInstance
  decidableLT := inferInstance
  isFinite _ := true
  roundWithin low high q := max low (min high (roundRational q))

end DepthRaster.Numeric
