/-
# Notable traces

Why a trace deserves to be shown on its own: it was triggered, its route differs from the one
before it in its stream, a step that answered lost too much, or the end answered too late.  The
reasons are tried in this order and the first that holds is given, so a trace has at most one.

Each limit has to be exceeded, not met.  The loss is the worst of the steps that answered, so that
silent steps, which lose everything, make no trace notable; the latency is that of the last step
that answered.
-/
import PathAtlas.Route.Signature

namespace PathAtlas.Change

/-- Why a trace stands out. -/
inductive Reason where
  | triggered
  | routeChange
  | highLoss
  | highLatency
  deriving Repr, DecidableEq

def Reason.name : Reason → String
  | triggered => "triggered"
  | routeChange => "route-change"
  | highLoss => "high-loss"
  | highLatency => "high-latency"

/-- Latency beyond which a trace stands out, in milliseconds. -/
def highLatencyLimit {α : Type} [Scalar α] : α := Scalar.ofInt 150

/-- The first reason that holds for a trace, given the signature before it; an empty signature
is none. -/
def reason? {α : Type} [Scalar α] (previous : Option String) (trace : Trace α) : Option Reason :=
  if trace.triggered then some .triggered
  else if previous.any fun s => s ≠ "" && s ≠ trace.signature then some .routeChange
  else if Route.issueLoss < trace.maxRespondingLoss then some .highLoss
  else if trace.endLatency.any fun x => decide (highLatencyLimit < x) then some .highLatency
  else none

end PathAtlas.Change
