/-
# The shortest decimal of a number

A floating point number stands for every real that rounds to it.  Its shortest decimal is the
one with the fewest digits among those reals, and of several such the nearest to the number
itself.  The search walks the decimal grids from coarse to fine and stops at the first grid with
a point among those reals; only the two grid points beside the number need to be looked at,
since any grid point of an interval around the number has one of them between.

All of it is arithmetic on natural numbers.  The interval of reals that round to a number is open or
closed at its ends by the parity of the significand, as a tie goes to the even side, and narrower
below a power of two.  The number of grids to look at is bounded by the number of digits that a
number of this size can need, so the search takes it for fuel and the default is never met.
-/
import PathAtlas.Decimal.Rounding

namespace PathAtlas.Decimal

-- Powers are the core ones here, whatever other instances are in scope.
attribute [local instance(2000)] instPowNat

/-! ## 1. The reals that round to a number -/

/-- The point `digits · 10 ^ exponent` of a decimal grid. -/
structure GridPoint where
  digits : Nat
  exponent : Int
  deriving Repr, DecidableEq

/-- The reals that round to one number, in units of a power of two: from `low` to `high` around
`centre`, the ends belonging to it when `closed`. -/
structure Neighbourhood where
  low : Nat
  centre : Nat
  high : Nat
  exponent : Int
  closed : Bool

/-- The gap below a power of two is half the gap above it. -/
def Binary.neighbourhood (b : Binary) : Neighbourhood :=
  let m := 4 * b.significand
  let narrow := b.significand == 2 ^ (52 : Nat) && b.exponent > -1074
  { low := m - (if narrow then 1 else 2)
    centre := m
    high := m + 2
    exponent := b.exponent - 2
    closed := b.significand % 2 == 0 }

namespace Neighbourhood

variable (s : Neighbourhood)

/-- The grid point `d · 10 ^ k` and a point of the neighbourhood over a common denominator. -/
def scaled (k : Int) (d point : Nat) : Nat × Nat :=
  (d * 10 ^ k.toNat * 2 ^ (-s.exponent).toNat, point * 2 ^ s.exponent.toNat * 10 ^ (-k).toNat)

/-- Whether the grid point `d · 10 ^ k` rounds to the number. -/
def holds (k : Int) (d : Nat) : Bool :=
  let (x, lo) := s.scaled k d s.low
  let (_, hi) := s.scaled k d s.high
  0 < d && (if s.closed then decide (lo ≤ x ∧ x ≤ hi) else decide (lo < x ∧ x < hi))

/-- The largest multiple of `10 ^ k` that is not above the number. -/
def floorAt (k : Int) : Nat :=
  let (unit, c) := s.scaled k 1 s.centre
  c / unit

/-- Twice the distance from the floor, compared with one grid step: `true` when the next grid
point is nearer, or as near and the floor is odd. -/
def upperNearer (k : Int) : Bool :=
  let (unit, c) := s.scaled k 1 s.centre
  let r := 2 * (c % unit)
  unit < r || (unit == r && c / unit % 2 == 1)

/-- The grid point nearest to the number among those beside it that round to the number. -/
def pick (k : Int) : Option GridPoint :=
  let d := s.floorAt k
  match s.holds k d, s.holds k (d + 1) with
  | true, true => some ⟨if s.upperNearer k then d + 1 else d, k⟩
  | true, false => some ⟨d, k⟩
  | false, true => some ⟨d + 1, k⟩
  | false, false => none

/-- Walks from the grid of `10 ^ k` to finer ones. -/
def search : Nat → Int → Option GridPoint
  | 0, _ => none
  | n + 1, k => (s.pick k).orElse fun _ => search n (k - 1)

end Neighbourhood

/-! ## 2. The search -/

/-- A decimal exponent above every number with this binary value. -/
def Binary.decimalBound (b : Binary) : Int :=
  (Int.ofNat b.significand.log2 + 1 + b.exponent) * 30103 / 100000 + 1

/-- The shortest decimal of a number other than nought.  Seventeen digits always suffice, so
the search ends well before its last grid. -/
def Binary.shortest (b : Binary) : GridPoint :=
  (b.neighbourhood.search 24 b.decimalBound).getD ⟨0, 0⟩

end PathAtlas.Decimal
