/-
# Merging traces

Traces of one route are merged step by step: counts are added up, latencies reduced, and the
hosts and the number of a step are those of the latest trace that tells them.

The loss of a merged step is taken from the sums of its counts, and only where nothing was sent
is it the mean of the losses; a sum of counts that are no numbers is a fault.  Latencies count
only when they are above nought, for each of average, best and worst by itself, since a probe
that measured nothing reports a nought.  A step that some trace is too short for is merged from
the others.  There is no jitter of merged steps.
-/
import PathAtlas.Fault
import PathAtlas.Scalar
import PathAtlas.Trace.Basic

namespace PathAtlas.Window

variable {α : Type} [Scalar α]

/-! ## 1. One step -/

/-- The steps at one place of some traces; a shorter trace has none there. -/
def column (traces : List (Trace α)) (i : Nat) : List (Hop α) :=
  traces.filterMap fun t => t.hops[i]?

def positive (values : List (Option α)) : List α :=
  (values.filterMap id).filter fun x => decide (Scalar.zero < x)

/-- The loss of merged steps: from the sums of their counts when anything was sent, else the
mean. -/
def mergedLoss (steps : List (Hop α)) (sent received : Figure α) : Except Fault α := do
  if sent.isPositive then Figure.percent (← sent.minus received) sent
  else return Scalar.mean (steps.map Hop.loss)

/-- One step from the steps of some traces. -/
def mergeColumn (steps : List (Hop α)) : Except Fault (Hop α) := do
  let sent ← Figure.sum (steps.map Hop.sent)
  let received ← Figure.sum (steps.map Hop.received)
  let loss ← mergedLoss steps sent received
  return {
    ttl := (steps.getLast?.map Hop.ttl).getD (.whole 0)
    hosts := ((steps.map Hop.hosts).reverse.find? (!·.isEmpty)).getD []
    loss
    average := Scalar.mean? (positive (steps.map Hop.average))
    best := Scalar.smallest? (positive (steps.map Hop.best))
    worst := Scalar.largest? (positive (steps.map Hop.worst))
    jitter := none
    sent
    received }

/-! ## 2. Whole traces -/

def longest (traces : List (Trace α)) : Nat := (traces.map fun t => t.hops.length).foldl max 0

/-- The steps of some traces merged; without any trace there is nothing to merge. -/
def mergeHops (traces : List (Trace α)) : Except Fault (List (Hop α)) :=
  if traces.isEmpty then .error .nothingToCompare
  else (List.range (longest traces)).mapM fun i => mergeColumn (column traces i)

end PathAtlas.Window
