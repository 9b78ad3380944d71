/-
# Views of an atlas

What an atlas shows of its window and its graph: the routes and their changes, what is slow, the
destinations, a summary, and the graph with its layout for someone to look at.

Every view is a function of the atlas and changes nothing.  Most are computed from the window of
traces; bottlenecks, the summary's counts and the scene are read off the graph, which was built
from that window at the last refresh that succeeded.  Views for one path differ in what they
filter: route groups keep the traces of the source and to the target, whereas changes keep those
of the source and leave the target to the detector, which names streams by it.

A scene is a picture in the form of a document: nodes with their places, edges, and for each of
them whether it is dimmed, which is told only while something is selected.  An atlas without a
graph has an empty scene and a summary of noughts.
-/
import PathAtlas.Analysis
import PathAtlas.Atlas.Basic
import PathAtlas.Change.Report
import PathAtlas.Route.Group
import PathAtlas.Topology.Document
import PathAtlas.Window.Aggregate

namespace PathAtlas.Atlas

open PathAtlas.Topology PathAtlas.Layout

variable {α : Type}

/-! ## 1. Traces -/

/-- The traces of a source and to a target, where these are given. -/
def tracesFor (a : Atlas α) (source target : Option String) : List (Trace α) :=
  a.traces.filter fun t => source.all (t.source == ·) && target.all (t.target == ·)

section Routes

variable [Scalar α]

/-- The route groups of every path by itself, ranked together. -/
def routeGroups (a : Atlas α) (source target : Option String) (rule : Route.TieBreak) :
    List (Route.Group α) :=
  Route.rank rule <|
    (Order.groupByText Trace.pathId (a.tracesFor source target)).flatMap fun (_, ts) =>
      Route.groups ts

def routeChanges (a : Atlas α) (source target : Option String) : List (Change.Report α) :=
  Change.detect target true (a.tracesFor source none)

/-- The analysis of the traces of a source and to a target, where these are given. -/
def pathAnalysis (a : Atlas α) (source target : Option String) :
    Option (Analysis.PathAnalysis α) :=
  Analysis.analyze Analysis.standardLimit (a.tracesFor source target)

/-- The traces in buckets. -/
def aggregated (a : Atlas α) (source target : Option String) (width : α) (limit : Int) :
    Except Fault (List (Window.Entry α)) :=
  Window.aggregate width limit (a.tracesFor source target)

end Routes

/-! ## 2. Bottlenecks -/

structure Bottleneck (α : Type) where
  edge : Edge α
  latency : α

/-- Latency beyond which an edge is slow when nothing else is said. -/
def standardBottleneck [Scalar α] : α := Scalar.ofInt 150

/-- The edges whose average latency lies above a limit, the slowest first. -/
def bottlenecks [Scalar α] (a : Atlas α) (limit : α) : List (Bottleneck α) :=
  match a.graph with
  | none => []
  | some g =>
    Order.descending Bottleneck.latency <| g.edges.filterMap fun e =>
      (e.stats.latency.filter fun x => decide (limit < x)).map fun x => ⟨e, x⟩

/-! ## 3. Destinations -/

/-- What is known about a destination. -/
structure DestinationSummary (α : Type) where
  id : String
  target : String
  hopCount : Nat
  latency : Option α
  loss : α
  status : Health
  agentCount : Nat
  lastSeen : α

/-- The loss of the last hop of a trace. -/
def lastLoss [Scalar α] (trace : Trace α) : α :=
  (trace.hops.getLast?.map Hop.loss).getD Scalar.zero

/-- The summary of the traces to one destination, of which the latest is given as well. -/
def summarizeDestination [Scalar α] (limits : Thresholds α) (id : String) (latest : Trace α)
    (traces : List (Trace α)) : DestinationSummary α :=
  let latency := Scalar.mean? (traces.filterMap Trace.endLatency)
  let loss := Scalar.mean (traces.map lastLoss)
  { id, target := latest.target, hopCount := latest.hops.length, latency, loss
    status := limits.classify latency (some loss)
    agentCount := (Order.textSet (traces.map Trace.source)).length
    lastSeen := latest.time }

def destinations [Scalar α] (a : Atlas α) : List (DestinationSummary α) :=
  (Order.groupByText destinationId a.traces).filterMap fun (id, ts) =>
    ts.getLast?.map fun latest => summarizeDestination a.limits id latest ts

/-! ## 4. Summary -/

/-- The figures of a snapshot. -/
structure Summary (α : Type) where
  agentCount : Nat
  hopCount : Nat
  destinationCount : Nat
  edgeCount : Nat
  pathCount : Nat
  traceCount : Nat
  changeCount : Nat
  bottleneckCount : Nat
  agents : List String
  statusCounts : List (Health × Nat)
  density : Option α
  generatedAt : α

def agentName (node : Node α) : Option String :=
  match node.detail with
  | .agent name => some name
  | _ => none

/-- The summary of an atlas; one without a graph is summed up like an empty one. -/
def summary [Scalar α] (a : Atlas α) : Summary α :=
  let g := a.graph.getD .empty
  { agentCount := (g.nodesOf .agent).length
    hopCount := (g.nodesOf .hop).length
    destinationCount := (g.nodesOf .destination).length
    edgeCount := g.edges.length
    pathCount := g.paths.length
    traceCount := a.traces.length
    changeCount := Change.totalChanges (a.routeChanges none none)
    bottleneckCount := (a.bottlenecks standardBottleneck).length
    agents := g.nodes.filterMap agentName
    statusCounts := Health.all.map fun h => (h, g.nodes.countP (·.status == h))
    density := g.density?
    generatedAt := g.generatedAt }

/-! ## 5. The graph to look at -/

/-- A node where it stands; whether it is dimmed is told only when something is selected. -/
structure PlacedNode (α : Type) where
  node : Node α
  position : Position α
  dimmed : Option Bool

/-- An edge as it is shown. -/
structure ShownEdge (α : Type) where
  edge : Edge α
  dimmed : Option Bool

/-- All that is shown of an atlas. -/
structure Scene (α : Type) where
  nodes : List (PlacedNode α)
  edges : List (ShownEdge α)
  mode : Mode
  generation : Nat
  summary : Summary α
  bottlenecks : List (Bottleneck α)
  highlight : Option Highlight

/-- The highlight to be shown: there is one when a node is selected. -/
def shownHighlight (a : Atlas α) : Option Highlight :=
  if (given a.selected).isSome then some a.highlight else none

/-- Whether an element is dimmed by a highlight. -/
def dimmed (highlight : Option Highlight) (id : String) : Option Bool :=
  highlight.map fun h => !h.emphasizes id

/-- The scene of an atlas; without nodes there is nothing to highlight. -/
def scene [Scalar α] (a : Atlas α) : Scene α :=
  let g := a.graph.getD .empty
  let highlight := if g.nodes.isEmpty then none else a.shownHighlight
  let place (n : Node α) : Position α :=
    (a.positions.find? n.id).getD ⟨Scalar.zero, Scalar.zero, false⟩
  { nodes := g.nodes.map fun n => ⟨n, place n, dimmed highlight n.id⟩
    edges := g.edges.map fun e => ⟨e, dimmed highlight e.id⟩
    mode := a.mode
    generation := a.generation
    summary := a.summary
    bottlenecks := if g.nodes.isEmpty then [] else a.bottlenecks standardBottleneck
    highlight }

/-! ## 6. Documents -/

def Bottleneck.toJson (b : Bottleneck Float) : Json :=
  .mapping
    [("edge_id", .text b.edge.id), ("from_node", .text b.edge.source),
     ("to_node", .text b.edge.target), ("latency_ms", .decimal b.latency),
     ("path_ids", .texts b.edge.paths), ("status", .text b.edge.status.name),
     ("severity", .text (if b.edge.status = .critical then "high" else "medium"))]

def DestinationSummary.toJson (d : DestinationSummary Float) : Json :=
  .mapping
    [("id", .text d.id), ("target", .text d.target), ("hop_count", .nat d.hopCount),
     ("avg_latency", .ofOption .decimal d.latency), ("packet_loss", .decimal d.loss),
     ("status", .text d.status.name), ("agent_count", .nat d.agentCount),
     ("last_seen", .decimal d.lastSeen)]

/-- A summary as a document; without edges the density is a bare nought. -/
def Summary.toJson (s : Summary Float) : Json :=
  .mapping
    [("total_agents", .nat s.agentCount),
     ("total_hops", .nat s.hopCount),
     ("total_destinations", .nat s.destinationCount),
     ("total_edges", .nat s.edgeCount),
     ("paths_analyzed", .nat s.pathCount),
     ("records", .nat s.traceCount),
     ("route_changes", .nat s.changeCount),
     ("bottlenecks_found", .nat s.bottleneckCount),
     ("agents", .texts s.agents),
     ("status_counts", .mapping (s.statusCounts.map fun (h, n) => (h.name, .nat n))),
     ("graph_density", (s.density.map Json.decimal).getD (.whole 0)),
     ("generated_at", .decimal s.generatedAt)]

def dimmedEntry (dimmed : Option Bool) : List (String × Json) :=
  (dimmed.map fun d => ("dimmed", Json.bool d)).toList

def Scene.toJson (s : Scene Float) : Json :=
  .mapping
    [("nodes", .list (s.nodes.map fun n =>
       .mapping (n.node.entries ++ n.position.entries ++ dimmedEntry n.dimmed))),
     ("edges", .list (s.edges.map fun e => .mapping (e.edge.entries ++ dimmedEntry e.dimmed))),
     ("layout_mode", .text s.mode.name),
     ("generation", .nat s.generation),
     ("summary", s.summary.toJson),
     ("bottlenecks", .list (s.bottlenecks.map Bottleneck.toJson)),
     ("highlight", .ofOption Highlight.toJson s.highlight)]

def Selection.toJson (s : Selection Float) : Json :=
  .mapping
    [("node", .ofOption Node.toJson s.node),
     ("position", .ofOption Position.toJson s.position),
     ("highlight", s.highlight.toJson)]

end PathAtlas.Atlas
