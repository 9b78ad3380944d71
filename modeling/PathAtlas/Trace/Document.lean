/-
# Traces as documents

A trace is written as a document, and it is read from one that gives the parts of the trace by
their names.  Unlike a probe's report such a document is taken at its word: its source, target and
hops have to be there, and its figures are kept as they are.

Reading goes through the parts in a fixed order, and the first that is unfit ends it with its
fault.  Texts may be given by values of any kind and are taken as they read.  A hop may list its
hosts or be the document of its only one, and a hop without a number has that of its place.
-/
import PathAtlas.Json.Conversion
import PathAtlas.Json.Display
import PathAtlas.Trace.Basic

namespace PathAtlas

/-! ## 1. Writing -/

def Host.toJson (host : Host) : Json :=
  .mapping [("ip", .text host.address), ("hostname", host.name)]

def Hop.toJson (hop : Hop Float) : Json :=
  .mapping
    [("ttl", hop.ttl.toJson),
     ("hosts", .list (hop.hosts.map Host.toJson)),
     ("loss", .decimal hop.loss),
     ("avg", .ofOption .decimal hop.average),
     ("best", .ofOption .decimal hop.best),
     ("worst", .ofOption .decimal hop.worst),
     ("jitter", .ofOption .decimal hop.jitter),
     ("sent", hop.sent.toJson),
     ("recv", hop.received.toJson)]

def Trace.toJson (trace : Trace Float) : Json :=
  .mapping
    [("source", .text trace.source),
     ("target", .text trace.target),
     ("timestamp", .decimal trace.time),
     ("triggered", .bool trace.triggered),
     ("target_agent", .ofOption .text trace.targetAgent),
     ("id", trace.id),
     ("path_id", .text trace.pathId),
     ("hops", .list (trace.hops.map Hop.toJson))]

/-! ## 2. Reading -/

/-- The host that a document describes; an address that counts as absent is empty. -/
def Host.ofJson (doc : Json) : Except Fault Host := do
  let address ← doc.required "ip"
  return {
    address := if address.isPresent then address.display else ""
    name := doc.entry "hostname" }

/-- The hosts that the document of a hop lists; where it lists none the hop itself can be the
document of its only host. -/
def Hop.hostsOf (doc : Json) : Except Fault (List Host) := do
  match ← doc.member "hosts" with
  | some hosts => (← hosts.elements).mapM Host.ofJson
  | none => if (doc.entry "ip").isNull then return [] else return [← Host.ofJson doc]

/-- The hop that a document describes, at a place counted from nought. -/
def Hop.ofJson (index : Nat) (doc : Json) : Except Fault (Hop Float) := do
  let hosts ← Hop.hostsOf doc
  return {
    ttl := .ofEntry doc "ttl" (.whole (index + 1))
    hosts
    loss := ← doc.decimalD "loss" 0.0
    average := ← (doc.entry "avg").decimal?
    best := ← (doc.entry "best").decimal?
    worst := ← (doc.entry "worst").decimal?
    jitter := ← (doc.entry "jitter").decimal?
    sent := .ofEntry doc "sent" (.whole 0)
    received := .ofEntry doc "recv" (.whole 0) }

def Trace.ofJson (doc : Json) : Except Fault (Trace Float) := do
  let source ← doc.required "source"
  let target ← doc.required "target"
  let hops ← (← doc.required "hops").elements
  return {
    source := source.display
    target := target.display
    hops := ← hops.zipIdx.mapM fun (hop, i) => Hop.ofJson i hop
    time := ← doc.decimalD "timestamp" 0.0
    triggered := doc.flagD "triggered" false
    targetAgent :=
      match doc.entry "target_agent" with
      | .null => none
      | agent => some (if agent.isPresent then agent.display else "")
    id := doc.entry "id" }

end PathAtlas
