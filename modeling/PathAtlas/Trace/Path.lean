/-
# The path of a trace

One entry per step: who answered, under which name, how fast and with what loss.  The figures
of the last step that answered stand for the trace as a whole.

The last step that answered is found in two ways, as an index into the identifiers
(`Path.lastRespondingIndex`) and from the hops themselves (`Trace.endLatency`), and likewise the
first and the last address.  They are separate because different views use them, and that they
agree on every trace is proved of them.  The end of a trace in this sense is not its last hop: a
trace whose last hops are silent ends where it was last answered.
-/
import PathAtlas.Scalar
import PathAtlas.Trace.Basic

namespace PathAtlas

/-! ## 1. Paths -/

/-- A trace with every step resolved. -/
structure Path (α : Type) where
  identifiers : List String
  names : List Json
  latencies : List (Option α)
  losses : List α
  firstAddress : Option String
  lastAddress : Option String

namespace Path

variable {α : Type}

def ofHops (hops : List (Hop α)) : Path α :=
  let identifiers := hops.map Hop.identifier
  let responding := identifiers.filter (· ≠ wildcard)
  { identifiers
    names := hops.map Hop.name
    latencies := hops.map Hop.latency
    losses := hops.map Hop.loss
    firstAddress := responding.head?
    lastAddress := responding.getLast? }

def length (path : Path α) : Nat := path.identifiers.length

def respondingCount (path : Path α) : Nat := path.identifiers.countP (· ≠ wildcard)

/-- The last step that was answered, searched from the end. -/
def lastRespondingIndex (path : Path α) : Option Nat :=
  (List.range path.length).reverse.find? fun i => path.identifiers[i]? != some wildcard

end Path

/-! ## 2. Figures of a trace -/

namespace Trace

variable {α : Type}

def path (trace : Trace α) : Path α := Path.ofHops trace.hops

/-- One identifier per step. -/
def identifiers (trace : Trace α) : List String := trace.hops.map Hop.identifier

/-- The average latency of the last step that was answered. -/
def endLatency (trace : Trace α) : Option α :=
  (trace.hops.reverse.find? Hop.responds).bind Hop.average

/-- The worst loss of the steps that were answered; a silent step loses nothing. -/
def maxRespondingLoss [Scalar α] (trace : Trace α) : α :=
  (Scalar.largest? ((trace.hops.filter Hop.responds).map Hop.loss)).getD Scalar.zero

end Trace

end PathAtlas
