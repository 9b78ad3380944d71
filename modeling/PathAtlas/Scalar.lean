/-
# Measured quantities

Latencies, losses, timestamps and coordinates are all kept in one type of numbers.  The
library is written over any such type: it runs on binary floating point, and its laws are
stated over exact fractions, where addition is associative and a mean is a mean.

`Scalar` holds the arithmetic that statistics and time windows need, `Planar` adds the
functions that a drawing in the plane needs.  Neither class promises a law.  In particular the
order is only decided: a number may be incomparable with all others and with itself, and
`larger`, `smaller` and `le` are therefore defined by which comparisons come out true, not by
what a total order would make of them.  A result that holds without laws is stated over every
scalar; one that needs some takes the exact fractions, or names the law as a hypothesis.

`runningMean` and `mean?` are two ways to the same number, one value at a time and all at once.
They agree over the exact fractions (`runningMean_eq`) and differ by rounding otherwise, so
every figure is kept by the one of the two that its owner uses.
-/
namespace PathAtlas

/-! ## 1. Arithmetic and order -/

/-- Numbers that measurements are kept in. -/
class Scalar (α : Type) extends Add α, Sub α, Mul α, Div α, LT α, BEq α where
  /-- Order is decided, not assumed to be total: a number may be incomparable with all others. -/
  ltDecidable : DecidableLT α
  /-- A whole number as a quantity. -/
  ofInt : Int → α
  /-- The quotient of two whole numbers, rounded once; absent when it is out of range. -/
  quotient : Int → Int → Option α
  /-- The quotient rounded down to a whole number. -/
  floorDiv : α → α → α

attribute [reducible, instance] Scalar.ltDecidable

namespace Scalar

variable {α : Type} [Scalar α]

def ofNat (n : Nat) : α := ofInt (Int.ofNat n)

def zero : α := ofInt 0

/-- A fraction given by two small whole numbers, as in `fraction 1 20`. -/
def fraction (n d : Int) : α := ofInt n / ofInt d

/-- Below or equal; false, like `<`, when either side is incomparable. -/
def le (a b : α) : Bool := decide (a < b) || a == b

def isZero (a : α) : Bool := a == zero

/-- The larger of two, the first when neither is larger. -/
def larger (a b : α) : α := if a < b then b else a

/-- The smaller of two, the first when neither is smaller. -/
def smaller (a b : α) : α := if b < a then b else a

/-- The sum from left to right, starting at nought. -/
def sum (xs : List α) : α := xs.foldl (· + ·) zero

def mean (xs : List α) : α := sum xs / ofNat xs.length

/-- The mean, absent for an empty list. -/
def mean? (xs : List α) : Option α := if xs.isEmpty then none else some (mean xs)

/-- The first of the largest, absent for an empty list. -/
def largest? : List α → Option α
  | [] => none
  | x :: xs => some (xs.foldl larger x)

/-- The first of the smallest, absent for an empty list. -/
def smallest? : List α → Option α
  | [] => none
  | x :: xs => some (xs.foldl smaller x)

/-- Takes a mean of `n - 1` values to the mean of `n` by one more value. -/
def extendMean (old : α) (n : Nat) (x : α) : α := (old * ofInt (Int.ofNat n - 1) + x) / ofNat n

/-- A mean that is kept up to date: how many values came, and their mean once one has come. -/
structure Running (α : Type) where
  count : Nat := 0
  mean : Option α := none

/-- Takes one more value in. -/
def Running.add (running : Running α) (x : α) : Running α :=
  { count := running.count + 1
    mean :=
      match running.mean with
      | none => some x
      | some old => some (extendMean old (running.count + 1) x) }

/-- The mean of some values, kept up to date from the first to the last. -/
def runningMean (xs : List α) : Running α := xs.foldl Running.add {}

/-- One hundred times a quotient of counts. -/
def percent? (part whole : Int) : Option α := (quotient part whole).map (· * ofInt 100)

end Scalar

/-! ## 2. Plane geometry -/

/-- The functions of plane geometry on quantities. -/
class Planar (α : Type) [Scalar α] where
  sqrt : α → α
  cos : α → α
  sin : α → α
  power : α → α → α
  /-- Length of the vector with the two given components. -/
  hypot : α → α → α
  /-- Half the circumference of the unit circle. -/
  pi : α

/-! ## 3. Exact fractions -/

instance : Scalar Rat where
  ltDecidable := inferInstance
  ofInt := fun n => (n : Rat)
  quotient := fun n d => some ((n : Rat) / (d : Rat))
  floorDiv := fun a b => (((a / b).floor : Int) : Rat)

end PathAtlas
