/-
# Probe reports

A probe reports a trace as a document that is loosely typed: numbers may come as texts with
units, hops may be nested in a report, fields may be missing or of any kind.  A report without
hops, source or target is passed over; a field that cannot be converted at all is a fault.

The fields fall into two sorts.  Losses, latencies and times are read leniently: a text that
spells no number, and a value of a kind that holds none, count as missing.  The counts and the
number of a hop, and its list of hosts, are converted strictly, and so is every number where a
number is given: what cannot be converted is a fault, which ends the reading of the whole report
and of the batch that it stands in.

`trace` gives a fault, no trace, or a trace, and these three are kept apart up to `batch`.  Which
documents are which is told by the modules about extraction and about stored records.
-/
import PathAtlas.Calendar.Timestamp
import PathAtlas.Json.Conversion
import PathAtlas.Json.Display
import PathAtlas.Trace.Basic

namespace PathAtlas.Report

/-! ## 1. Measured values -/

/-- A text as a number, when it spells one. -/
def number? (s : String) : Option Float := (Text.readDecimal s).toOption

/-- A text without blanks and percent signs at its end. -/
def withoutPercent (s : String) : String :=
  Text.strip (String.ofList (Text.trimRightBy (· == '%') (Text.strip s).toList))

/-- A loss in percent, from a number or from a text such as `12.5%`; nought when there is
none. -/
def loss : Json → Except Fault Float
  | .null => .ok 0.0
  | .text s => .ok ((number? (withoutPercent s)).getD 0.0)
  | .list _ | .mapping _ => .ok 0.0
  | v => v.toDecimal

/-- A text without its unit of milliseconds. -/
def withoutUnit (s : String) : String :=
  let cs := (Text.strip s).toList
  if ['m', 's'].isSuffixOf cs then Text.strip (String.ofList (cs.take (cs.length - 2)))
  else String.ofList cs

/-- A latency in milliseconds, from a number or from a text such as `12.3 ms`. -/
def latency : Json → Except Fault (Option Float)
  | .text s => .ok (number? (withoutUnit s))
  | .null | .list _ | .mapping _ => .ok none
  | v => v.toDecimal.map some

/-- Seconds since 1970, from a number or from a date and time in text. -/
def timestamp : Json → Except Fault (Option Float)
  | .text s => .ok (Calendar.readTimestamp? s)
  | .null | .list _ | .mapping _ => .ok none
  | v => v.toDecimal.map some

/-! ## 2. Hops -/

/-- A value, with another in its place when it counts as absent. -/
def orElse (v fallback : Json) : Json := if v.isPresent then v else fallback

/-- A host of a hop; what is no mapping is no host. -/
def host? : Json → Option Host
  | .mapping es =>
    let doc := Json.mapping es
    some { address := (orElse (doc.entry "ip") (.text "")).display
           name := orElse (doc.entry "hostname") .null }
  | _ => none

/-- The loss that the counts of a hop tell. -/
def countedLoss (sent received : Int) : Except Fault Float :=
  if 0 < sent then
    match Scalar.percent? (sent - received) sent with
    | some x => .ok x
    | none => .error .quotientTooLarge
  else .ok 0.0

/-- A count of a hop, with another number in its place when it counts as absent. -/
def countD (doc : Json) (key : String) (fallback : Int) : Except Fault Int :=
  (orElse (doc.entry key) (.whole fallback)).toWhole

/-- The loss of a hop, as it is given or as its counts tell it. -/
def lossOf (doc : Json) (sent received : Int) : Except Fault Float :=
  match doc.get? "loss_pct" with
  | some v => loss v
  | none => countedLoss sent received

/-- The hop at a place of the list, counted from nought. -/
def hop (index : Nat) (doc : Json) : Except Fault (Hop Float) := do
  let hosts ← (orElse (doc.entry "hosts") (.list [])).elements
  let sent ← countD doc "sent" 0
  let received ← countD doc "recv" 0
  let lost ← lossOf doc sent received
  let ttl ← countD doc "ttl" (Int.ofNat (index + 1))
  let average ← latency (doc.entry "avg")
  let best ← latency (doc.entry "best")
  let worst ← latency (doc.entry "worst")
  let jitter ← latency (doc.entry "stddev")
  return { ttl := .whole ttl, hosts := hosts.filterMap host?, loss := lost, average, best, worst,
           jitter, sent := .whole sent, received := .whole received }

/-- The hops of a list, numbered by their places; what is no mapping is passed over. -/
def hops : Nat → List Json → Except Fault (List (Hop Float))
  | _, [] => .ok []
  | i, .mapping es :: rest => do
    let first ← hop i (.mapping es)
    return first :: (← hops (i + 1) rest)
  | i, _ :: rest => hops (i + 1) rest

/-! ## 3. Reports -/

/-- The hops that a report inside a document names. -/
def nested? (doc : Json) : Option Json := (doc.entry "report").get? "hops"

/-- Where a document keeps its hops: in the report of its payload, in a report of its own, or
directly. -/
def hopList (doc : Json) : Json :=
  (nested? (doc.entry "payload")).getD ((nested? doc).getD (doc.entry "hops"))

/-- The first of two keys that a document has. -/
def either (doc : Json) (first second : String) : Json :=
  (doc.get? first).getD (doc.entry second)

/-- The agent at the target; null, nothing and nought mean that there is none. -/
def targetAgent (v : Json) : Option String :=
  if [Json.null, .text "", .whole 0, .text "0"].any v.same then none else some v.display

/-- The id of a trace as a text, null when there is none. -/
def idOf (v : Json) : Json := if v.isNull then .null else .text v.display

/-- The trace that a document reports; absent when it lacks hops, a source or a target. -/
def trace (doc : Json) : Except Fault (Option (Trace Float)) := do
  match hopList doc with
  | .list (first :: rest) =>
    let source := either doc "agent_id" "source"
    let target := doc.entry "target"
    if source.isNull || source.same (.text "") || !target.isPresent then return none
    else
      let time ← timestamp (either doc "created_at" "timestamp")
      let hops ← hops 0 (first :: rest)
      return some
        { source := source.display
          target := target.display
          hops
          time := time.getD 0.0
          triggered := (doc.entry "triggered").isPresent
          targetAgent := targetAgent (doc.entry "target_agent")
          id := idOf (doc.entry "id") }
  | _ => return none

/-- The traces of some documents, in order, without those that have no hops. -/
def traces : List Json → Except Fault (List (Trace Float))
  | [] => .ok []
  | doc :: docs => do
    let t ← trace doc
    let rest ← traces docs
    return (t.filter Trace.hasHops).toList ++ rest

def batch (doc : Json) : Except Fault (List (Trace Float)) := do traces (← doc.elements)

end PathAtlas.Report
