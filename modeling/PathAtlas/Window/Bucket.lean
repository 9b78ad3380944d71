/-
# Time buckets

Time is cut into buckets of one width.  A bucket is known by its start, a multiple of the width.

The start is the time divided by the width, rounded down, and multiplied again, so times below
nought lie in buckets that start below them.  Over exact fractions a bucket begins at its start
and ends before the next one; in floating point the product is rounded, and only equal times are
sure to share a bucket.  A width of nought divides nothing and is a fault where it can come from
outside.
-/
import PathAtlas.Fault
import PathAtlas.Scalar

namespace PathAtlas.Window

variable {α : Type} [Scalar α]

/-- The width of a bucket when nothing else is said, in seconds. -/
def standardWidth : α := Scalar.ofInt 60

/-- The start of the bucket that a time lies in. -/
def bucketStart (width time : α) : α := Scalar.floorDiv time width * width

/-- The start of the bucket; there is none without a width. -/
def bucketStart? (width time : α) : Except Fault α :=
  if Scalar.isZero width then .error .divisionByZero else .ok (bucketStart width time)

end PathAtlas.Window
