/-
# Change reports

One report per stream: its traces in order of time, each compared with the one before it, and
the changes among them.

All traces are walked once, oldest first, whatever their streams (`Survey.take`).  The first one of
a stream opens its report.  A report grows by an observation at a time, and by a change when the
observation tells one (`Report.add`).

The filter by target comes before the walk.  Where streams are told apart by target it leaves out
whole streams and changes nothing in the others; where they are not, a trace is compared with the
last one that passed the filter.  Reports come out in the order of their streams, whichever began
first.  That the walk gives each stream its own history is proved with the other results on streams.
-/
import PathAtlas.Change.Detector

namespace PathAtlas.Change

-- Sums start at the core nought here, whatever other instances are in scope.
attribute [local instance(2000)] Zero.ofOfNat0

/-! ## 1. Changes -/

/-- A change of the route of a stream. -/
structure RouteChange (α : Type) where
  stream : Stream
  changedAt : α
  fromSignature : String
  toSignature : String
  diff : List StepDiff
  id : Json

/-- The change that an observation tells, when it tells one. -/
def Observation.change? {α : Type} (stream : Stream) (a : Observation α) :
    Option (RouteChange α) :=
  if a.isChange then
    a.previousSignature.map fun before =>
      ⟨stream, a.trace.time, before, a.signature, a.diff, a.trace.id⟩
  else none

/-! ## 2. Reports -/

/-- All about one stream. -/
structure Report (α : Type) where
  stream : Stream
  observations : List (Observation α) := []
  changes : List (RouteChange α) := []

namespace Report

variable {α : Type}

/-- Takes in the next observation of the stream. -/
def add (report : Report α) (a : Observation α) : Report α :=
  { report with
    observations := report.observations ++ [a]
    changes := report.changes ++ (a.change? report.stream).toList }

def changeCount (report : Report α) : Nat := report.changes.length

def lastChangedAt (report : Report α) : Option α :=
  report.changes.getLast?.map RouteChange.changedAt

end Report

/-- A walk through traces of all streams: what the detector remembers, and the reports so far. -/
structure Survey (α : Type) where
  detector : Detector
  reports : List (Stream × Report α) := []

/-- Takes in the next trace of a timeline. -/
def Survey.take {α : Type} (survey : Survey α) (trace : Trace α) : Survey α :=
  let (a, detector) := survey.detector.observe trace
  let stream := Stream.ofTrace survey.detector.byTarget trace
  { detector, reports := Order.into stream { stream } (·.add a) survey.reports }

/-- The reports of all streams of some traces in the order of the streams.  Only traces to the
given target count when there is one. -/
def detect {α : Type} [Scalar α] (target : Option String) (byTarget : Bool)
    (traces : List (Trace α)) : List (Report α) :=
  let wanted := (Trace.timeline traces).filter fun t => target.all (t.target == ·)
  let survey := wanted.foldl Survey.take { detector := { byTarget } }
  (Order.sortBy (fun a b => Stream.before a.1 b.1) survey.reports).map Prod.snd

def totalChanges {α : Type} (reports : List (Report α)) : Nat :=
  (reports.map Report.changeCount).sum

/-! ## 3. Documents -/

def RouteChange.toJson (c : RouteChange Float) : Json :=
  .mapping (c.stream.entries ++
    [("changed_at", .decimal c.changedAt),
     ("from_signature", .text c.fromSignature),
     ("to_signature", .text c.toSignature),
     ("record_id", c.id),
     ("diff", .list (c.diff.map StepDiff.toJson))])

def Report.toJson (report : Report Float) : Json :=
  .mapping (report.stream.entries ++
    [("trace_count", .nat report.observations.length),
     ("change_count", .nat report.changeCount),
     ("last_changed_at", .ofOption .decimal report.lastChangedAt),
     ("changes", .list (report.changes.map RouteChange.toJson))])

end PathAtlas.Change
