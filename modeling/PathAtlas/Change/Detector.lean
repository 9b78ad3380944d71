/-
# Change detection

A detector remembers the last route of every stream and compares each further trace with it.  A
stream is all that one source sends out, or what it sends to one target.

Routes are compared by their signatures, but remembered as rows, since the difference of two
routes is taken step by step.  The first trace of a stream is compared with nothing and is no
change.  Every trace replaces the route of its stream, also when it is none (`observe`): a change
is always one from the trace before, and a route that comes back counts as a change again.

The detector sees traces in the order in which they are given to it and does not look at their
times; who wants changes in time sorts first.
-/
import PathAtlas.Change.Diff
import PathAtlas.Route.Signature

namespace PathAtlas.Change

/-! ## 1. Streams -/

/-- What the traces of a stream have in common; the target is absent when it does not count. -/
structure Stream where
  source : String
  target : Option String
  deriving Repr, DecidableEq

namespace Stream

def ofTrace {α : Type} (byTarget : Bool) (trace : Trace α) : Stream :=
  ⟨trace.source, if byTarget then some trace.target else none⟩

/-- Streams stand in the order of their sources, then of their targets. -/
def before (a b : Stream) : Bool :=
  Order.pairBefore (a.source, a.target.getD "") (b.source, b.target.getD "")

/-- The entries that name a stream in a document. -/
def entries (stream : Stream) : List (String × Json) :=
  [("source", .text stream.source), ("target", .ofOption .text stream.target)]

end Stream

/-! ## 2. Observations -/

/-- A trace compared with the one before it in its stream. -/
structure Observation (α : Type) where
  trace : Trace α
  signature : String
  hops : List String
  isChange : Bool
  previousSignature : Option String
  previousHops : List String
  diff : List StepDiff

/-- The comparison of a trace with the route before it; nothing is compared when there is none
or when the route is the same. -/
def compareWith {α : Type} (previous : Option (List String)) (trace : Trace α) : Observation α :=
  let hops := trace.identifiers
  let signature := trace.signature
  match previous with
  | none => ⟨trace, signature, hops, false, none, [], []⟩
  | some before =>
    if Route.signature before = signature then ⟨trace, signature, hops, false, none, [], []⟩
    else ⟨trace, signature, hops, true, some (Route.signature before), before, diff before hops⟩

/-! ## 3. Detectors -/

/-- The last route of every stream that has been seen. -/
structure Detector where
  byTarget : Bool
  last : List (Stream × List String) := []

namespace Detector

variable {α : Type}

def remember (stream : Stream) (hops : List String) :
    List (Stream × List String) → List (Stream × List String)
  | [] => [(stream, hops)]
  | (s, h) :: rest => if s = stream then (s, hops) :: rest else (s, h) :: remember stream hops rest

def lastRoute (detector : Detector) (stream : Stream) : Option (List String) :=
  (detector.last.find? fun entry => entry.1 = stream).map Prod.snd

/-- Takes in the next trace of its stream. -/
def observe (detector : Detector) (trace : Trace α) : Observation α × Detector :=
  let stream := Stream.ofTrace detector.byTarget trace
  (compareWith (detector.lastRoute stream) trace,
    { detector with last := remember stream trace.identifiers detector.last })

def reset (detector : Detector) : Detector := { detector with last := [] }

end Detector

/-! ## 4. Documents -/

/-- An observation as a document, without its trace. -/
def Observation.toJson {α : Type} (a : Observation α) : Json :=
  .mapping
    [("id", a.trace.id),
     ("signature", .text a.signature),
     ("hops", .texts a.hops),
     ("is_change", .bool a.isChange),
     ("previous_signature", .ofOption .text a.previousSignature),
     ("previous_hops", .texts a.previousHops),
     ("diff", .list (a.diff.map StepDiff.toJson))]

end PathAtlas.Change
