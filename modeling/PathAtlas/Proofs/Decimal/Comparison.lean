/-
# Which floating point number is less

Floating point numbers other than NaN stand in a row: the infinities at its ends, both noughts at
one place, and between them the numbers by sign, exponent and mantissa (`rank`).  Comparing two of
them is comparing their places (`lt_iff_place_lt`), so below NaN all the laws of an order hold for
numbers as the program has them, with ties between numbers that are written in two ways.

The place is a triple in lexicographic order, and the order of triples is a linear one.  So a sort
by floating point keys is a sort by places as soon as no key is NaN, and the results about stable
sorts apply to it (`Order.ranks_of_lt_iff`).  NaN has no place: no comparison with it comes
out true, not even with itself.
-/
import Mathlib
import PathAtlas.Scalar

namespace PathAtlas.Decimal

open Float.Model (UnpackedFloat)
open Float.Model.UnpackedFloat

/-! ## 1. Places -/

/-- The place of a number among all; what is not a number is put with nought. -/
def rank : UnpackedFloat → ℤ ×ₗ ℤ ×ₗ ℤ
  | .infinity .negative => toLex (-2, toLex (0, 0))
  | .finite .negative mantissa exponent _ => toLex (-1, toLex (-exponent, -mantissa))
  | .zero _ | .notANumber => toLex (0, toLex (0, 0))
  | .finite .positive mantissa exponent _ => toLex (1, toLex (exponent, mantissa))
  | .infinity .positive => toLex (2, toLex (0, 0))

/-- Comparing by exponent and then by mantissa. -/
theorem then_compare_eq_lt_iff (e e' : ℤ) (m m' : ℕ) :
    (compare e e').then (compare m m') = .lt ↔ e < e' ∨ e = e' ∧ m < m' := by
  rw [Ordering.then_eq_lt, compare_lt_iff_lt, compare_eq_iff_eq, compare_lt_iff_lt]

theorem then_compare_eq_gt_iff (e e' : ℤ) (m m' : ℕ) :
    (compare e e').then (compare m m') = .gt ↔ e' < e ∨ e = e' ∧ m' < m := by
  rw [Ordering.then_eq_gt, compare_gt_iff_gt, compare_eq_iff_eq, compare_gt_iff_gt]

theorem compare_eq_lt_iff {x y : UnpackedFloat} (hx : x.isNaN = false) (hy : y.isNaN = false) :
    x.compare y = some .lt ↔ rank x < rank y := by
  rcases x with (_ | _) | _ | _ | ⟨_ | _, m, e, hm⟩ <;>
    rcases y with (_ | _) | _ | _ | ⟨_ | _, m', e', hm'⟩ <;>
    simp [UnpackedFloat.compare, rank, Prod.Lex.toLex_lt_toLex, isNaN] at *
  case infinity.negative.infinity.positive => rfl
  case finite.negative.finite.negative => exact then_compare_eq_gt_iff e e' m m'
  case finite.positive.finite.positive => exact then_compare_eq_lt_iff e e' m m'

theorem compare_eq_eq_iff {x y : UnpackedFloat} (hx : x.isNaN = false) (hy : y.isNaN = false) :
    x.compare y = some .eq ↔ rank x = rank y := by
  rcases x with (_ | _) | _ | _ | ⟨_ | _, m, e, hm⟩ <;>
    rcases y with (_ | _) | _ | _ | ⟨_ | _, m', e', hm'⟩ <;>
    simp [UnpackedFloat.compare, rank, isNaN, Ordering.then_eq_eq] at *
  case infinity.negative.infinity.negative => rfl
  case infinity.positive.infinity.positive => rfl

theorem compare_self {x : UnpackedFloat} (hx : x.isNaN = false) : x.compare x = some .eq := by
  cases x with
  | notANumber => cases hx
  | infinity sign => cases sign <;> rfl
  | zero sign => rfl
  | finite sign mantissa exponent hpos => cases sign <;> simp [UnpackedFloat.compare, Ordering.then]

/-! ## 2. Numbers -/

/-- The place of a number. -/
def place (x : Float) : ℤ ×ₗ ℤ ×ₗ ℤ := rank x.toModel.unpack

/-- **The lesser number** is the one that stands first. -/
theorem lt_iff_place_lt {x y : Float} (hx : x.isNaN = false) (hy : y.isNaN = false) :
    x < y ↔ place x < place y := by
  have hlt : x < y ↔ x.toModel.unpack.compare y.toModel.unpack = some .lt :=
    decide_eq_true_iff.trans beq_iff_eq
  exact hlt.trans (compare_eq_lt_iff hx hy)

/-- Numbers are the same when they stand at one place. -/
theorem beq_iff_place_eq {x y : Float} (hx : x.isNaN = false) (hy : y.isNaN = false) :
    (x == y) = true ↔ place x = place y := by
  have hequal : (x == y) = (x.toModel.unpack.compare y.toModel.unpack == some .eq) := rfl
  rw [hequal, beq_iff_eq]
  exact compare_eq_eq_iff hx hy

/-- A number is the same as itself unless it is none. -/
theorem beq_self_of_not_nan {x : Float} (hx : x.isNaN = false) : (x == x) = true := by
  have hx : x.toModel.unpack.isNaN = false := hx
  have hself : (x == x) = (x.toModel.unpack.compare x.toModel.unpack == some .eq) := rfl
  rw [hself, compare_self hx]
  rfl

end PathAtlas.Decimal
