/-
# Route signatures

A route is the row of addresses along a trace, with a wildcard for every silent step.  Its
signature is one text for the row; two traces took the same route when their signatures agree.

The signature joins the addresses by a separator and escapes nothing, so rows with the separator
inside an address can share one.  For addresses without it the row can be read back from the
signature; this is the condition under which the results about routes speak of rows, and without
it they speak of signatures.

The stability of some traces is the share of their most common route.  It is a quotient of counts
and does not depend on time.  Traces are put in order of time by a stable sort (`sortByTime`), on
which everything about the order of routes rests.
-/
import PathAtlas.Digest
import PathAtlas.Order
import PathAtlas.Trace.Path

namespace PathAtlas

/-! ## 1. Signatures -/

namespace Route

def separator : String := "->"

def signature (identifiers : List String) : String := separator.intercalate identifiers

def pathText (identifiers : List String) : String := " -> ".intercalate identifiers

/-- Loss beyond which a route has an issue, in percent. -/
def issueLoss {α : Type} [Scalar α] : α := Scalar.ofInt 10

end Route

namespace Trace

variable {α : Type}

/-- The signature of the route that a trace took. -/
def signature (trace : Trace α) : String := Route.signature trace.identifiers

/-- The traces of a list in order of time; those of one time keep their order. -/
def sortByTime [Scalar α] (traces : List (Trace α)) : List (Trace α) :=
  Order.ascending Trace.time traces

/-- The traces of a list that have hops, in order of time. -/
def timeline [Scalar α] (traces : List (Trace α)) : List (Trace α) :=
  (sortByTime traces).filter hasHops

end Trace

/-! ## 2. Stability -/

namespace Route

def counts {α : Type} (traces : List (Trace α)) : List (String × Nat) :=
  Order.tally ((traces.filter Trace.hasHops).map Trace.signature)

/-- The share of the most common route in percent; nought when there are no traces. -/
def stability {α : Type} [Scalar α] (traces : List (Trace α)) : α :=
  let most := ((counts traces).map Prod.snd).foldl max 0
  let total := (traces.filter Trace.hasHops).length
  if total = 0 then Scalar.zero
  else (Scalar.percent? (Int.ofNat most) (Int.ofNat total)).getD Scalar.zero

end Route

end PathAtlas
