/-
# Exact numbers

Fractions have no roots, so what needs one is stated over the real numbers.  There every operation
is the exact one: nothing overflows, all quantities are comparable, and a power of a positive number
is a number.

Real numbers are used where the cooling of a simulation is looked at: the decay of its heat is a
root of the least heat, and the floating point number that stands for it is no such root.  Other
results are over fractions, which can be computed with.
-/
import Mathlib.Analysis.SpecialFunctions.Pow.Real
import Mathlib.Analysis.SpecialFunctions.Trigonometric.Basic
import PathAtlas.Scalar

namespace PathAtlas

noncomputable instance : Scalar ℝ where
  ltDecidable := inferInstance
  ofInt := fun n => (n : ℝ)
  quotient := fun n d => some ((n : ℝ) / (d : ℝ))
  floorDiv := fun a b => (⌊a / b⌋ : ℝ)

noncomputable instance : Planar ℝ where
  sqrt := Real.sqrt
  cos := Real.cos
  sin := Real.sin
  power := fun x y => x ^ y
  hypot := fun x y => Real.sqrt (x ^ 2 + y ^ 2)
  pi := Real.pi

namespace Scalar

theorem ofInt_real (n : Int) : (ofInt n : ℝ) = n := rfl

theorem zero_real : (zero : ℝ) = 0 := Int.cast_zero

theorem fraction_real (n d : Int) : (fraction n d : ℝ) = n / d := rfl

end Scalar

end PathAtlas
