/-
# Aggregated traces

A window of traces as a list to look through: every notable trace on its own, and one summary
per source, target and bucket that stands for the route taken most often there.  The newest
come first.

A trace that is notable counts in the summary of its bucket as well.  The summary is merged from
the traces of the dominant route alone, the one that came first among equals, whereas its id is
that of the latest trace of the bucket whatever its route; its time is the start of the bucket.
Summaries are told from single traces by `isAggregated` and by having no reason.

The list as a whole can fail: a width must be above nought, and every bucket must merge, which is
a matter of the counts of its hops.  The limit is applied last, to entries of both sorts in order
of time, and a limit that is not above nought is none.
-/
import PathAtlas.Change.Notable
import PathAtlas.Text.Numeral
import PathAtlas.Trace.Document
import PathAtlas.Window.Bucket
import PathAtlas.Window.Merge

namespace PathAtlas.Window

-- Powers are the core ones here, whatever other instances are in scope.
attribute [local instance(2000)] instPowNat

/-! ## 1. Entries -/

/-- One line of the list: a single trace, or the summary of a bucket. -/
structure Entry (α : Type) where
  source : String
  target : String
  time : α
  hops : List (Hop α)
  signature : String
  traceCount : Nat
  isAggregated : Bool
  previousSignature : Option String
  reason : Option Change.Reason
  id : Json

variable {α : Type} [Scalar α]

/-! ## 2. Notable traces -/

/-- Every trace with the signature before it in its stream, given the last signatures of all
streams. -/
def withPrevious : List ((String × String) × String) → List (Trace α) →
    List (Option String × Trace α)
  | _, [] => []
  | last, trace :: rest =>
    let stream := (trace.source, trace.target)
    let previous := (last.find? fun entry => entry.1 == stream).map Prod.snd
    (previous, trace) :: withPrevious ((stream, trace.signature) :: last) rest

/-- The entry of a trace that is notable. -/
def notable? (previous : Option String) (trace : Trace α) : Option (Entry α) :=
  (Change.reason? previous trace).map fun reason =>
    { source := trace.source, target := trace.target, time := trace.time, hops := trace.hops
      signature := trace.signature, traceCount := 1, isAggregated := false
      previousSignature := previous, reason := some reason, id := trace.id }

/-- The entries of all notable traces of a timeline. -/
def notables (timeline : List (Trace α)) : List (Entry α) :=
  (withPrevious [] timeline).filterMap fun (previous, trace) => notable? previous trace

/-! ## 3. Summaries -/

/-- What the traces of one summary have in common. -/
structure Cell (α : Type) where
  source : String
  target : String
  start : α
  deriving BEq

def cellOf (width : α) (trace : Trace α) : Cell α :=
  ⟨trace.source, trace.target, bucketStart width trace.time⟩

/-- The first of the latest traces. -/
def latest? : List (Trace α) → Option (Trace α)
  | [] => none
  | t :: ts => some (ts.foldl (fun best t => if best.time < t.time then t else best) t)

def summarize (cell : Cell α) (members : List (Trace α)) : Except Fault (Entry α) := do
  let dominant := (Order.mostFrequent? (members.map Trace.signature)).getD ""
  let matching := members.filter fun t => t.signature == dominant
  let hops ← mergeHops matching
  return {
    source := cell.source, target := cell.target, time := cell.start, hops
    signature := dominant, traceCount := matching.length, isAggregated := true
    previousSignature := none, reason := none, id := ((latest? members).map Trace.id).getD .null }

def summaries (width : α) (timeline : List (Trace α)) : Except Fault (List (Entry α)) :=
  (Order.groupBy (cellOf width) timeline).mapM fun (cell, members) => summarize cell members

/-! ## 4. The list -/

/-- The first entries of a list, or all of them where the limit is not above nought. -/
def truncate (limit : Int) (entries : List (Entry α)) : List (Entry α) :=
  if 0 < limit then entries.take limit.toNat else entries

/-- The entries of a window of traces, the newest first. -/
def aggregate (width : α) (limit : Int) (traces : List (Trace α)) :
    Except Fault (List (Entry α)) :=
  if Scalar.le width Scalar.zero then .error .widthNotPositive
  else do
    let timeline := Trace.timeline traces
    let entries := notables timeline ++ (← summaries width timeline)
    return truncate limit (Order.descending Entry.time entries)

/-! ## 5. Documents -/

/-- A step as a document, its loss rounded to one place. -/
def hopToJson (hop : Hop Float) : Json :=
  .mapping
    [("ttl", hop.ttl.toJson),
     ("hosts", .list (hop.hosts.map Host.toJson)),
     ("loss_pct", .decimal (Decimal.roundPlaces 1 hop.loss)),
     ("sent", hop.sent.toJson),
     ("recv", hop.received.toJson),
     ("avg", .ofOption .decimal hop.average),
     ("best", .ofOption .decimal hop.best),
     ("worst", .ofOption .decimal hop.worst)]

/-- A whole number has to be short enough to be written. -/
def checkLength : Figure Float → Except Fault Unit
  | .whole n => if 10 ^ Text.digitLimit ≤ n.natAbs then .error .wholeTooLong else .ok ()
  | _ => .ok ()

/-- The counts in some entries, which are sums, have to be short enough to be written. -/
def checkCounts (entries : List (Entry Float)) : Except Fault Unit :=
  entries.forM fun entry => entry.hops.forM fun hop => do
    checkLength hop.sent
    checkLength hop.received

def Entry.toJson (entry : Entry Float) : Json :=
  .mapping
    [("source", .text entry.source),
     ("target", .text entry.target),
     ("timestamp", .decimal entry.time),
     ("route_signature", .text entry.signature),
     ("previous_route_signature", .ofOption .text entry.previousSignature),
     ("trace_count", .nat entry.traceCount),
     ("is_aggregated", .bool entry.isAggregated),
     ("notable_reason", .ofOption (fun r => .text r.name) entry.reason),
     ("record_id", entry.id),
     ("hops", .list (entry.hops.map hopToJson))]

end PathAtlas.Window
