/-
# The server

What the service answers to each request.  A request names a workspace or means the default one.
A fault becomes an answer with an error text; which status it has depends on the request.

Each operation is an `Action` on the hub, and `answering` turns its outcome into a reply.  The hub
that an action has left is kept also where the action fails: what was done before the fault stays
done, as when records are stored and the graph that they should give cannot be built.  A request
that only looks can change the hub in one way, by making the atlas of a workspace that nobody has
looked at before.

There are three rules for statuses.  An ingest blames every fault on the request; requests with
numbers in their query blame the faults that a text can give; all others answer a fault by 500,
and an unknown workspace by 404 wherever it is not the fault of the request.

The server has one poller at most, made from the settings.  A refresh of the poller's workspace
starts it again when it has stopped; how its loops come and go is told where the poller is.
-/
import PathAtlas.Drawing
import PathAtlas.Service.Hub
import PathAtlas.Service.Poller
import PathAtlas.Service.Settings

namespace PathAtlas.Service

/-! ## 1. Requests and replies -/

/-- What comes with a request. -/
structure Inquiry where
  query : Table String := []
  /-- The body, or why it cannot be read. -/
  body : Except Fault Json := .ok .null
  /-- The node that the path names. -/
  node : String := ""

/-- What a request is answered with. -/
inductive Reply where
  | document (status : Nat) (body : Json)
  | picture (calls : List (Drawing.Call Float))

def Reply.ok (entries : List (String × Json)) : Reply := .document 200 (.mapping entries)

def Reply.trouble (status : Nat) (text : String) : Reply :=
  .document status (.mapping [("error", .text text)])

def version : String := "0.1.0"

namespace Inquiry

def workspace (i : Inquiry) : String := (i.query.find? "workspace").getD defaultWorkspace

def parameter (i : Inquiry) (name : String) : Option String := i.query.find? name

/-- A whole number in the query. -/
def whole (i : Inquiry) (name : String) (fallback : Int) : Except Fault Int :=
  ((i.parameter name).map Text.readWhole).getD (.ok fallback)

/-- A decimal number in the query. -/
def decimal (i : Inquiry) (name : String) (fallback : Float) : Except Fault Float :=
  ((i.parameter name).map Text.readDecimal).getD (.ok fallback)

end Inquiry

/-! ## 2. Statuses -/

/-- The status of a fault that is the service's own, an unknown workspace apart. -/
def failureStatus : Fault → Nat
  | .unknownWorkspace _ => 404
  | _ => 500

/-- The status of a fault where the query itself may be unusable. -/
def queryStatus (fault : Fault) : Nat :=
  if fault.isUnusableValue then 400 else failureStatus fault

/-- Answers with what an action gives, or with what it failed with. -/
def answering (status : Fault → Nat) (action : Action Hub Reply) (hub : Hub) : Reply × Hub :=
  match action.run hub with
  | (.ok reply, hub) => (reply, hub)
  | (.error fault, hub) => (.trouble (status fault) fault.message, hub)

/-! ## 3. Workspaces -/

namespace Hub

def handleIngest (i : Inquiry) : Action Hub Reply := do
  let body ← i.body
  match ← body.memberD "records" .null with
  | .list records =>
    let workspace := (← body.memberD "workspace" (.text defaultWorkspace)).display
    let replace ← body.memberD "replace" (.bool false)
    let accepted ← ingest workspace records replace.isPresent
    let atlas ← atlasOf workspace
    let g := atlas.graph.getD .empty
    return .ok
      [("status", .text "ok"), ("workspace", .text workspace), ("accepted", .nat accepted),
       ("nodes", .nat g.nodes.length), ("edges", .nat g.edges.length),
       ("generation", .nat atlas.generation)]
  | _ => return .trouble 400 "records must be a list"

/-- Builds a workspace anew.  An unknown one is built only when its poller was restarted. -/
def handleRefresh (source : Json) (restarted : Bool) (i : Inquiry) : Action Hub Reply := do
  let hub ← get
  let workspace := i.workspace
  let known ← hub.meets workspace
  if !known && !restarted then throw (.unknownWorkspace workspace)
  let atlas ← rebuild workspace
  return .ok
    [("status", .text "refreshed"), ("workspace", .text workspace),
     ("generation", .nat atlas.generation), ("poller_restarted", .bool restarted),
     ("source", source), ("timestamp", .decimal hub.now)]

def handleTopology (source : Json) (i : Inquiry) : Action Hub Reply := do
  let atlas ← atlasOf i.workspace
  return .ok
    [("workspace", .text i.workspace), ("summary", atlas.summary.toJson),
     ("topology", atlas.scene.toJson),
     ("destinations", .list (atlas.destinations.map Atlas.DestinationSummary.toJson)),
     ("source", source), ("timestamp", .decimal (← get).now)]

def handlePicture (i : Inquiry) : Action Hub Reply := do
  let canvas : Drawing.Canvas :=
    { width := .whole (← i.whole "width" 12), height := .whole (← i.whole "height" 8) }
  let atlas ← atlasOf i.workspace
  return .picture (← Drawing.picture atlas.graph atlas.positions (some atlas.highlight) canvas)

/-! ## 4. Nodes -/

def handleSelect (i : Inquiry) : Action Hub Reply := do
  let atlas ← atlasOf i.workspace
  let (selection, atlas) := atlas.select (some i.node)
  modify (·.withAtlas i.workspace atlas)
  return .document 200 selection.toJson

/-- The answer that tells where a node stands. -/
def placed (node : String) (position : Option (Layout.Position Float)) : Reply :=
  match position with
  | none => .trouble 404 ("Unknown node: " ++ node)
  | some p => .ok [("node_id", .text node), ("position", p.toJson)]

/-- The place that the body of a drag names, in a workspace that has to be there. -/
def dragPlace (i : Inquiry) : Action Hub (Float × Float) := do
  let _ ← atlasOf i.workspace
  let body ← i.body
  let x ← (← body.required "x").toDecimal
  let y ← (← body.required "y").toDecimal
  return (x, y)

def drag (i : Inquiry) (x y : Float) : Action Hub Reply := do
  let atlas ← atlasOf i.workspace
  let (position, atlas) ← atlas.drag i.node x y
  modify (·.withAtlas i.workspace atlas)
  return placed i.node position

/-- Drags a node; a body that names no place is the fault of the request. -/
def handleDrag (i : Inquiry) (hub : Hub) : Reply × Hub :=
  match (dragPlace i).run hub with
  | (.ok (x, y), hub) => answering failureStatus (drag i x y) hub
  | (.error (.unknownWorkspace name), hub) =>
    (.trouble 404 (Fault.unknownWorkspace name).message, hub)
  | (.error fault, hub) => (.trouble 400 ("Invalid drag request: " ++ fault.message), hub)

def handleRelease (i : Inquiry) : Action Hub Reply := do
  let atlas ← atlasOf i.workspace
  let (position, atlas) ← atlas.release i.node
  modify (·.withAtlas i.workspace atlas)
  return placed i.node position

/-! ## 5. Routes -/

def handleRoutes (i : Inquiry) : Action Hub Reply := do
  let atlas ← atlasOf i.workspace
  let rule ← Route.TieBreak.parse ((i.parameter "tie_break").getD "recency")
  let groups := atlas.routeGroups (i.parameter "source") (i.parameter "target") rule
  return .ok
    [("routes", .list (groups.map Route.Group.toJson)), ("timestamp", .decimal (← get).now)]

def handleChanges (i : Inquiry) : Action Hub Reply := do
  let atlas ← atlasOf i.workspace
  let reports := atlas.routeChanges (i.parameter "source") (i.parameter "target")
  return .ok
    [("total_changes", .nat (Change.totalChanges reports)),
     ("streams", .list (reports.map Change.Report.toJson)),
     ("timestamp", .decimal (← get).now)]

def handleAnalysis (i : Inquiry) : Action Hub Reply := do
  match Topology.given (i.parameter "source"), Topology.given (i.parameter "target") with
  | some source, some target =>
    let atlas ← atlasOf i.workspace
    return .ok
      [("source", .text source), ("target", .text target),
       ("path_analysis",
        .ofOption Analysis.PathAnalysis.toJson (atlas.pathAnalysis (some source) (some target))),
       ("timestamp", .decimal (← get).now)]
  | _, _ => return .trouble 400 "Missing required parameters: source and target"

def handleAggregated (i : Inquiry) : Action Hub Reply := do
  let width ← i.decimal "bucket" Window.standardWidth
  let limit ← i.whole "limit" 0
  let atlas ← atlasOf i.workspace
  let entries ← atlas.aggregated (i.parameter "source") (i.parameter "target") width limit
  Window.checkCounts entries
  return .ok
    [("traces", .list (entries.map Window.Entry.toJson)), ("timestamp", .decimal (← get).now)]

/-- Tells whether the service is well, which it is not when the store is out of reach or when the
workspaces cannot be named. -/
def health (source : Json) (outage : Option Fault) (hub : Hub) : Reply :=
  let common : List (String × Json) :=
    [("version", .text version), ("component", .text "mapserver")]
  let last : List (String × Json) := [("source", source), ("timestamp", .decimal hub.now)]
  let names := (outage.map Except.error).getD hub.workspaceNames
  match names with
  | .ok names =>
    .ok ([("status", .text "healthy")] ++ common ++ [("workspaces", .list names)] ++ last)
  | .error fault =>
    .document 503 (.mapping ([("status", .text "unhealthy")] ++ common
      ++ [("error", .text fault.message)] ++ last))

end Hub

/-! ## 6. The server -/

/-- The service: its hub, and a poller when a source is set. -/
structure Server where
  hub : Hub
  poller : Option Poller := none
  /-- Why the store cannot be reached, when it cannot. -/
  outage : Option Fault := none

namespace Server

/-- The poller that a section of the settings asks for. -/
def pollerOf (source : Json) : Except Fault (Option Poller) := do
  let enabled ← source.memberD "enabled" .null
  let url ← source.memberD "url" .null
  if enabled.isPresent && url.isPresent then
    let workspace ← source.memberD "workspace" (.text defaultWorkspace)
    let interval ← (← source.required "poll_interval").toWhole
    let lookback ← (← source.required "lookback_minutes").toWhole
    let _ ← (← source.required "timeout").toWhole
    return some
      { url, workspace, interval := .whole interval, lookbackMinutes := .whole lookback }
  else return none

/-- A server with the settings of a document. -/
def ofSettings (doc : Json) (now : Float) : Except Fault Server := do
  let settings ← (← load doc).required "mapserver"
  let lookback ← (← (← settings.required "window").required "lookback_seconds").toWhole
  let maxRecords ← (← (← settings.required "window").required "max_records").toWhole
  let limits ← Thresholds.ofSettings (← settings.required "health")
  let layoutSettings ← settings.required "layout"
  let poller ← pollerOf (← settings.required "source")
  return {
    hub := { layoutSettings, limits, store := { lookback := .whole lookback, maxRecords }, now }
    poller }

/-- The state of the source; null without one. -/
def sourceStatus (s : Server) : Json := .ofOption Poller.status s.poller

/-- How many polls of a workspace failed, when any did. -/
def fetchFailures (s : Server) (workspace : String) : Option Nat :=
  s.poller.bind fun p =>
    if p.workspace.display = workspace && !p.failures.isEmpty then some p.failures.length else none

/-- Polled batches cover the whole window, so they replace what is stored. -/
def replaceWindow : Sink Hub := fun workspace records hub =>
  match workspace with
  | .text name =>
    let (outcome, hub) := (Hub.ingest name records true).run hub
    (outcome.map fun _ => (), hub)
  | name => (Hub.replaceOdd name records).run hub

def startPoller (s : Server) : Server := { s with poller := s.poller.map Poller.start }

/-- Waits for the poller and tells how its loop ended. -/
def awaitPoller (s : Server) : Option PollPhase × Server :=
  match s.poller with
  | none => (none, s)
  | some p =>
    let (phase, p, hub) := p.await s.hub.now replaceWindow s.hub
    (phase, { s with poller := some p, hub })

def closeAtlases (s : Server) : Server :=
  { s with hub := { s.hub with atlases := s.hub.atlases.map fun (w, a) => (w, a.close) } }

def close (s : Server) : Server :=
  { s with poller := s.poller.map Poller.stop }.closeAtlases

def setClock (s : Server) (now : Float) : Server := { s with hub := { s.hub with now } }

/-- Whether a refresh of a workspace starts the poller again. -/
def restarts (s : Server) (workspace : String) : Bool :=
  s.poller.any fun p => p.workspace.same (.text workspace) && !p.running

/-! ## 7. Operations -/

/-- What can be asked of the server. -/
inductive Operation where
  | ingest
  | refresh
  | topology
  | picture
  | select
  | drag
  | release
  | routes
  | changes
  | analysis
  | aggregated
  | health
  deriving Repr, DecidableEq

def withHub (s : Server) (f : Hub → Reply × Hub) : Reply × Server :=
  let (reply, hub) := f s.hub
  (reply, { s with hub })

def answer (s : Server) (operation : Operation) (i : Inquiry) : Reply × Server :=
  match operation with
  | .ingest => s.withHub (answering (fun _ => 400) (Hub.handleIngest i))
  | .refresh =>
    let restarted := s.restarts i.workspace
    let s := if restarted then s.startPoller else s
    s.withHub (answering failureStatus (Hub.handleRefresh s.sourceStatus restarted i))
  | .topology => s.withHub (answering failureStatus (Hub.handleTopology s.sourceStatus i))
  | .picture => s.withHub (answering queryStatus (Hub.handlePicture i))
  | .select => s.withHub (answering failureStatus (Hub.handleSelect i))
  | .drag => s.withHub (Hub.handleDrag i)
  | .release => s.withHub (answering failureStatus (Hub.handleRelease i))
  | .routes => s.withHub (answering queryStatus (Hub.handleRoutes i))
  | .changes => s.withHub (answering failureStatus (Hub.handleChanges i))
  | .analysis => s.withHub (answering failureStatus (Hub.handleAnalysis i))
  | .aggregated => s.withHub (answering queryStatus (Hub.handleAggregated i))
  | .health => (s.hub.health s.sourceStatus s.outage, s)

end Server

end PathAtlas.Service
