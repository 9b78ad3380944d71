/-
# Path analysis

What a window of traces of one path tells: how steady its route is, how its last hop fares, and
what in the newest trace is an artifact of probing rather than loss.

There are two sorts of artifacts.  Hops that answer but lose what the end of the trace does not
lose are limiting the rate of their answers (`rateLimitedHops`); rows of hops that do not answer
at all are filtered (`silentSegments`).  Hops are named by their places, counted from one, and
both lists cover the whole trace.

The window is cut to the newest traces that have hops, sorted by time with the newest first.  The
sort is stable, so traces of one time stay in the order of arrival, and it is the front of the
list that is kept.  The figures are taken over that window and the artifacts from its first trace.
-/
import PathAtlas.Decimal.Numeral
import PathAtlas.Route.Signature

namespace PathAtlas.Analysis

/-! ## 1. Artifacts of one trace -/

section Artifacts

variable {α : Type} [Scalar α]

/-- Loss of a hop beyond which its answers may be rate limited, in percent. -/
def limitedLoss : α := Scalar.ofInt 10

/-- Loss of the last hop below which loss on the way does not reach the end. -/
def cleanEndLoss : α := Scalar.ofInt 1

def endLoss (trace : Trace α) : α := (trace.hops.getLast?.map Hop.loss).getD Scalar.zero

/-- Whether a hop answers, but loses what the end of the trace does not lose. -/
def isRateLimited (finalLoss : α) (hop : Hop α) : Bool :=
  hop.responds && decide (limitedLoss < hop.loss) && decide (finalLoss < cleanEndLoss)

/-- The numbers of the hops that pass a test, the first hop having the given number. -/
def hopNumbers (test : Hop α → Bool) : Nat → List (Hop α) → List Nat
  | _, [] => []
  | n, hop :: hops =>
    if test hop then n :: hopNumbers test (n + 1) hops else hopNumbers test (n + 1) hops

/-- The numbers of the hops that limit the rate of their answers. -/
def rateLimitedHops (trace : Trace α) : List Nat :=
  hopNumbers (isRateLimited (endLoss trace)) 1 trace.hops

/-- A row of silent hops by the numbers of its first and its last one. -/
structure Segment where
  first : Nat
  last : Nat
  deriving Repr, DecidableEq

/-- The rows of silent hops, the first hop having the number `n`; a row may already have begun. -/
def silentRows : Option Nat → Nat → List (Hop α) → List Segment
  | none, _, [] => []
  | some start, n, [] => [⟨start, n - 1⟩]
  | begun, n, hop :: hops =>
    if hop.responds then
      match begun with
      | none => silentRows none (n + 1) hops
      | some start => ⟨start, n - 1⟩ :: silentRows none (n + 1) hops
    else silentRows (some (begun.getD n)) (n + 1) hops

def silentSegments (trace : Trace α) : List Segment := silentRows none 1 trace.hops

end Artifacts

/-- A segment as people read it. -/
def Segment.text (s : Segment) : String :=
  "Hops " ++ toString s.first ++ "-" ++ toString s.last

/-! ## 2. Figures of a window -/

/-- What is known about a window. -/
structure PathAnalysis (α : Type) where
  traceCount : Nat
  hopCount : Nat
  uniqueRoutes : Nat
  stability : α
  endLatency : α
  endLoss : α
  rateLimited : List Nat
  silent : List Segment

section Figures

variable {α : Type} [Scalar α]

/-- The first elements of a list; a limit below nought leaves so many out at the end. -/
def firstMost {β : Type} (limit : Int) (xs : List β) : List β :=
  if 0 ≤ limit then xs.take limit.toNat else xs.take (xs.length - limit.natAbs)

/-- The newest traces that have hops, the newest first. -/
def newest (limit : Int) (traces : List (Trace α)) : List (Trace α) :=
  firstMost limit (Order.descending Trace.time (traces.filter Trace.hasHops))

/-- The latency of the last hop, answered or not. -/
def lastLatency (trace : Trace α) : α :=
  (trace.hops.getLast?.bind Hop.average).getD Scalar.zero

/-- How many traces are looked at when nothing else is said. -/
def standardLimit : Int := 100

/-- The figures of the newest traces; there are none without traces. -/
def analyze (limit : Int) (traces : List (Trace α)) : Option (PathAnalysis α) :=
  match newest limit traces with
  | [] => none
  | first :: rest =>
    let window := first :: rest
    some
      { traceCount := window.length
        hopCount := (window.map fun t => t.hops.length).foldl max 0
        uniqueRoutes := (Route.counts window).length
        stability := Route.stability window
        endLatency := Scalar.mean (window.map lastLatency)
        endLoss := Scalar.mean (window.map endLoss)
        rateLimited := rateLimitedHops first
        silent := silentSegments first }

end Figures

/-! ## 3. Signals -/

/-- Something that deserves attention, with how sure it is. -/
structure Signal where
  kind : String
  severity : String
  title : String
  evidence : String
  confidence : Float

def bracketed (ns : List Nat) : String := "[" ++ ", ".intercalate (ns.map toString) ++ "]"

/-- A signal when something holds. -/
def signalWhen (holds : Bool) (signal : Signal) : List Signal := if holds then [signal] else []

def signals (a : PathAnalysis Float) : List Signal :=
  signalWhen (!a.rateLimited.isEmpty)
      { kind := "icmp_artifact", severity := "info", title := "ICMP Rate Limiting Detected"
        evidence := "Hops " ++ bracketed a.rateLimited
          ++ " show high loss that does not propagate to the destination"
        confidence := 0.85 }
    ++ signalWhen (!a.silent.isEmpty)
      { kind := "icmp_artifact", severity := "info", title := "Filtered ICMP Segments"
        evidence := "Non-responding segments: " ++ ", ".intercalate (a.silent.map Segment.text)
        confidence := 0.70 }
    ++ signalWhen (1 < a.uniqueRoutes)
      { kind := "route_change", severity := if a.stability < 70.0 then "warning" else "info"
        title := "Route Instability Detected"
        evidence := toString a.uniqueRoutes ++ " unique routes observed across "
          ++ toString a.traceCount ++ " traces (stability: "
          ++ Decimal.fixed 0 a.stability ++ "%)"
        confidence := 0.90 }
    ++ signalWhen (3.0 < a.endLoss)
      { kind := "high_loss", severity := if 10.0 < a.endLoss then "critical" else "warning"
        title := "End-to-End Packet Loss"
        evidence := "Average end-hop loss: " ++ Decimal.fixed 1 a.endLoss ++ "%"
        confidence := 0.95 }

/-! ## 4. Documents -/

def Signal.toJson (s : Signal) : Json :=
  .mapping
    [("type", .text s.kind), ("severity", .text s.severity), ("title", .text s.title),
     ("evidence", .text s.evidence), ("confidence", .decimal s.confidence)]

def PathAnalysis.toJson (a : PathAnalysis Float) : Json :=
  .mapping
    [("trace_count", .nat a.traceCount),
     ("hop_count", .nat a.hopCount),
     ("unique_routes", .nat a.uniqueRoutes),
     ("route_stability_pct", .decimal a.stability),
     ("avg_end_hop_latency", .decimal a.endLatency),
     ("avg_end_hop_loss", .decimal a.endLoss),
     ("rate_limited_hops", .list (a.rateLimited.map Json.nat)),
     ("timeout_segments", .texts (a.silent.map Segment.text)),
     ("signals", .list ((signals a).map Signal.toJson))]

end PathAtlas.Analysis
