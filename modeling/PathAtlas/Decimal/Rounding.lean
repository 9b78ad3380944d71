/-
# Rounding of quotients

Every decimal text and every conversion between whole numbers and binary floating point is
a quotient of two natural numbers, rounded once.  This module holds that rounding, the
exact value of a binary floating point number, and the number nearest to a quotient.

A floating point number is opaque to proofs but for its bits.  So the way in and the way out are
both by bits: `Binary.ofFloat?` takes a number apart into sign, significand and exponent, and
`compose` puts one together, and all arithmetic between the two is on natural numbers.  Nothing
here uses a floating point operation to round, except for a few that are exact.

`floorDivFloat` is the one quotient that is not rounded once: it takes the exact remainder off
first and puts an almost whole quotient on the nearest whole number, and so can differ by one from
the floor of the exact quotient.
-/
import PathAtlas.Scalar

namespace PathAtlas.Decimal

-- Powers are the core ones here, whatever other instances are in scope.
attribute [local instance(2000)] instPowNat

/-! ## 1. Quotients -/

/-- The whole number nearest to `n / d`; a tie goes to the even neighbour. -/
def roundDiv (n d : Nat) : Nat :=
  let q := n / d
  let r := 2 * (n % d)
  if r < d then q else if d < r then q + 1 else q + q % 2

/-! ## 2. Binary floating point -/

/-- A finite floating point number: `± significand · 2 ^ exponent`. -/
structure Binary where
  negative : Bool
  significand : Nat
  exponent : Int
  deriving Repr

/-- The exact value of a floating point number; absent for the infinities and for no number. -/
def Binary.ofFloat? (x : Float) : Option Binary :=
  let bits := x.toBits.toNat
  let negative := bits / 2 ^ (63 : Nat) == 1
  let fraction := bits % 2 ^ (52 : Nat)
  let biased := bits / 2 ^ (52 : Nat) % 2 ^ (11 : Nat)
  if biased == 2047 then none
  else if biased == 0 then some ⟨negative, fraction, -1074⟩
  else some ⟨negative, fraction + 2 ^ (52 : Nat), Int.ofNat biased - 1075⟩

namespace Binary

/-- The value without its sign as a quotient of natural numbers. -/
def toQuotient (b : Binary) : Nat × Nat :=
  (b.significand * 2 ^ b.exponent.toNat, 2 ^ (-b.exponent).toNat)

def toRat (b : Binary) : Rat :=
  let (n, d) := b.toQuotient
  let v : Rat := (Int.ofNat n : Rat) / (Int.ofNat d : Rat)
  if b.negative then -v else v

/-- The value without its fractional part, toward nought. -/
def truncate (b : Binary) : Int :=
  let (n, d) := b.toQuotient
  if b.negative then -Int.ofNat (n / d) else Int.ofNat (n / d)

end Binary

/-- The number `significand · 2 ^ exponent`, of which the significand is at most `2 ^ 53` and not
below `2 ^ 52` unless the exponent is the least one.  The bits of such numbers follow each other,
from one exponent to the next and from the largest one to the infinite number. -/
def compose (significand : Nat) (exponent : Int) : Float :=
  .ofBits (.ofNat ((exponent + 1074).toNat * 2 ^ (52 : Nat) + significand))

/-- The exponent at which a quotient has a significand of 53 binary digits, but not less than the
least one of all. -/
def scaleOf (n d : Nat) : Int :=
  let low : Int := Int.ofNat n.log2 - Int.ofNat d.log2 - 53
  max (-1074) (if n * 2 ^ (-low).toNat / (d * 2 ^ low.toNat) < 2 ^ (53 : Nat) then low else low + 1)

/-- The floating point number nearest to `n / d`, a tie going to the even significand.  The
result is infinite when the quotient is out of range. -/
def nearest (n d : Nat) : Float :=
  if n == 0 then 0.0
  else
    let e := scaleOf n d
    if e > 971 then 1.0 / 0.0
    else compose (roundDiv (n * 2 ^ (-e).toNat) (d * 2 ^ e.toNat)) e

/-- The nearest number with a sign. -/
def nearestSigned (negative : Bool) (n d : Nat) : Float :=
  let x := nearest n d
  if negative then -x else x

/-- The number nearest to the quotient of two whole numbers; absent when it is out of range. -/
def quotientFloat? (n d : Int) : Option Float :=
  let x := nearestSigned (decide (n < 0) != decide (d < 0)) n.natAbs d.natAbs
  if x.isInf then none else some x

/-- The number nearest to a whole number; absent when it is out of range. -/
def wholeFloat? (n : Int) : Option Float := quotientFloat? n 1

/-- The value of a number rounded to so many decimal places, counted in units of the last
place; a tie goes to the even neighbour. -/
def Binary.units (b : Binary) (places : Nat) : Nat :=
  let (n, d) := b.toQuotient
  roundDiv (n * 10 ^ places) d

/-- The number nearest to the given one rounded to so many decimal places. -/
def roundPlaces (places : Nat) (x : Float) : Float :=
  match Binary.ofFloat? x with
  | none => x
  | some b => nearestSigned b.negative (b.units places) (10 ^ places)

/-- The value rounded down to a whole number. -/
def Binary.floor (b : Binary) : Int :=
  let (n, d) := b.toQuotient
  if b.negative then -Int.ofNat ((n + (d - 1)) / d) else Int.ofNat (n / d)

/-- A number rounded down to a whole number; what has no exact value stays as it is. -/
def floorFloat (x : Float) : Float :=
  match Binary.ofFloat? x with
  | none => x
  | some b => nearestSigned (decide (b.floor < 0)) b.floor.natAbs 1

/-! ## 3. Remainders -/

/-- What is left of `x` after taking away as many whole `y` as fit, with the sign of `x`.  The
result is exact. -/
def remainder (x y : Float) : Float :=
  match Binary.ofFloat? x, Binary.ofFloat? y with
  | some a, some b =>
    if b.significand == 0 then 0.0 / 0.0
    else
      let e := min a.exponent b.exponent
      let m := a.significand * 2 ^ (a.exponent - e).toNat
      let n := b.significand * 2 ^ (b.exponent - e).toNat
      let r := m % n
      nearestSigned a.negative (r * 2 ^ e.toNat) (2 ^ (-e).toNat)
  | some _, none => if y.isInf then x else 0.0 / 0.0
  | none, _ => 0.0 / 0.0

/-- A number that is almost whole put on the nearest whole number. -/
def toWhole (q : Float) : Float :=
  if q == 0.0 then 0.0
  else
    let f := floorFloat q
    if q - f > 0.5 then f + 1.0 else f

/-- The quotient rounded down.  The remainder is taken first, since it is exact; what is left
divides almost evenly and is then put on the nearest whole number. -/
def floorDivFloat (x y : Float) : Float :=
  let r := remainder x y
  let q := (x - r) / y
  toWhole (if r != 0.0 && (decide (y < 0.0) != decide (r < 0.0)) then q - 1.0 else q)

end PathAtlas.Decimal

namespace PathAtlas

-- As above, in another namespace.
attribute [local instance(2000)] instPowNat

instance : Scalar Float where
  ltDecidable := inferInstance
  ofInt := fun n =>
    if n.natAbs ≤ 2 ^ (53 : Nat) then Float.ofInt n
    else Decimal.nearestSigned (decide (n < 0)) n.natAbs 1
  quotient := Decimal.quotientFloat?
  floorDiv := Decimal.floorDivFloat

/-- Length of a vector, scaled by a power of two so that no square is out of range. -/
def vectorLength (x y : Float) : Float :=
  if x.isInf || y.isInf then 1.0 / 0.0
  else
    let e := (max x.abs y.abs).frExp.2
    let a := x.scaleB (-e)
    let b := y.scaleB (-e)
    (a * a + b * b).sqrt.scaleB e

instance : Planar Float where
  sqrt := Float.sqrt
  cos := Float.cos
  sin := Float.sin
  power := Float.pow
  hypot := vectorLength
  pi := 3.141592653589793

end PathAtlas
