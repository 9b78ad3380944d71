/-
# The hub

The hub holds the stored records of all workspaces and an atlas for each workspace that was ever
looked at.  Adding records rebuilds the atlas.  An action that fails keeps what it did before it
failed.

Requests name workspaces by texts.  The settings may give the feed's workspace another name; such a
one is stored and counted under the text that its name reads as, and nobody can look at its atlas.

An action is a state step that may fail (`Action`).  `ingest` sends its commands to the store one at
a time and each may be refused, so a batch can be stored in part.  Records are counted once they are
stored, and a rebuild once its graph is there, so a batch whose graph cannot be built has come in
and is in no graph.
-/
import PathAtlas.Atlas.Settings
import PathAtlas.Atlas.Views
import PathAtlas.Service.Store

namespace PathAtlas.Service

/-! ## 1. State -/

/-- Something that changes a state and may fail on the way. -/
abbrev Action (σ β : Type) : Type := ExceptT Fault (StateM σ) β

/-- What is counted in a workspace. -/
structure Metrics where
  rebuilds : Nat := 0
  nodes : Nat := 0
  edges : Nat := 0
  changes : Nat := 0
  /-- How many records came in; absent when none were ever pushed. -/
  ingested : Option Nat := none
  deriving Repr, DecidableEq

def Metrics.afterRebuild (atlas : Atlas Float) (m : Metrics) : Metrics :=
  let g := atlas.graph.getD .empty
  { m with
    rebuilds := m.rebuilds + 1
    nodes := g.nodes.length
    edges := g.edges.length
    changes := Change.totalChanges (atlas.routeChanges none none) }

/-- A workspace whose name is no text. -/
structure OddWorkspace where
  name : Json
  /-- How many atlases there were before it. -/
  place : Nat

/-- The stored records and atlases of all workspaces. -/
structure Hub where
  layoutSettings : Json
  limits : Thresholds Float
  store : Store
  atlases : Table (Atlas Float) := []
  /-- The feed's workspace, once it has an atlas and when its name is no text. -/
  odd : Option OddWorkspace := none
  metrics : Table Metrics := []
  now : Float

namespace Hub

/-! ## 2. Rebuilding -/

def count (hub : Hub) (workspace : String) (f : Metrics → Metrics) : Hub :=
  let before := (hub.metrics.find? workspace).getD {}
  { hub with metrics := hub.metrics.set workspace (f before) }

def withAtlas (hub : Hub) (workspace : String) (atlas : Atlas Float) : Hub :=
  { hub with atlases := hub.atlases.set workspace atlas }

/-- The atlas of a workspace; one that is not there yet is made. -/
def openAtlas (workspace : String) : Action Hub (Atlas Float) := do
  let hub ← get
  match hub.atlases.find? workspace with
  | some atlas => return atlas
  | none =>
    let atlas ← Atlas.ofSettings hub.layoutSettings hub.limits
    set (hub.withAtlas workspace atlas)
    return atlas

/-- Builds the atlas of a workspace anew from its stored records. -/
def rebuild (workspace : String) : Action Hub (Atlas Float) := do
  let hub ← get
  let traces ← hub.store.fetchTraces workspace hub.now
  let atlas ← openAtlas workspace
  let (outcome, atlas) := atlas.refresh hub.now traces
  modify (·.withAtlas workspace atlas)
  let _ ← outcome
  modify (·.count workspace (Metrics.afterRebuild atlas))
  return atlas

def countIngested (workspace : String) (records : List Json) (hub : Hub) : Hub :=
  hub.count workspace fun m => { m with ingested := some (m.ingested.getD 0 + records.length) }

/-- Gives the keeper of the store some commands. -/
def command (commands : Hub → List Command) : Action Hub Unit := fun hub =>
  let (outcome, store) := hub.store.carryOut (commands hub)
  (outcome, { hub with store })

/-- Adds records to a workspace and rebuilds its atlas; tells how many records there were. -/
def ingest (workspace : String) (records : List Json) (replace : Bool) : Action Hub Nat := do
  command fun hub => hub.store.addition hub.now workspace records replace
  modify (countIngested workspace records)
  let _ ← rebuild workspace
  return records.length

/-- Builds the atlas of a workspace whose name is no text.  Only what is counted of it stays. -/
def rebuildOdd (name : Json) : Action Hub Unit := do
  let hub ← get
  let traces ← hub.store.fetchTraces name.display hub.now
  let atlas ← Atlas.ofSettings hub.layoutSettings hub.limits
  modify fun hub => { hub with odd := hub.odd.orElse fun _ => some ⟨name, hub.atlases.length⟩ }
  let (outcome, atlas) := atlas.refresh hub.now traces
  let _ ← outcome
  modify (·.count name.display (Metrics.afterRebuild atlas))

/-- Replaces the records of a workspace whose name is no text.  A container names none, which shows
once its records are stored. -/
def replaceOdd (name : Json) (records : List Json) : Action Hub Unit := do
  command fun hub => hub.store.deposit hub.now name.display records true
  name.checkName
  modify (countIngested name.display records)
  rebuildOdd name

/-- Whether a workspace has an atlas or is known to the store. -/
def meets (hub : Hub) (workspace : String) : Except Fault Bool :=
  if (hub.atlases.find? workspace).isSome then .ok true else hub.store.knows workspace

/-- The atlas of a workspace as it is, or built now when only its records are known. -/
def atlasOf (workspace : String) : Action Hub (Atlas Float) := do
  let hub ← get
  match hub.atlases.find? workspace with
  | some atlas => return atlas
  | none =>
    if ← hub.store.knows workspace then rebuild workspace
    else throw (.unknownWorkspace workspace)

/-- The names of all workspaces with an atlas in order.  A name that is no text has no place among
others. -/
def workspaceNames (hub : Hub) : Except Fault (List Json) :=
  match hub.odd with
  | none => .ok ((Order.textSet hub.atlases.names).map Json.text)
  | some odd =>
    if hub.atlases.isEmpty then .ok [odd.name]
    else if odd.place = 0 then .error (.noOrder "<" (Json.text "").kind odd.name.kind)
    else .error (.noOrder "<" odd.name.kind (Json.text "").kind)

end Hub

/-! ## 3. Documents -/

/-- Metrics as a document, with the number of failed polls. -/
def Metrics.toJson (m : Metrics) (fetchFailures : Option Nat) : Json :=
  let number (n : Nat) : Json := .decimal (Scalar.ofNat n)
  let rebuilt (n : Nat) : Json := if m.rebuilds = 0 then .null else number n
  .mapping
    [("rebuilds", rebuilt m.rebuilds), ("nodes", rebuilt m.nodes), ("edges", rebuilt m.edges),
     ("route_changes", rebuilt m.changes), ("ingested", .ofOption number m.ingested),
     ("fetch_failures", .ofOption number fetchFailures)]

end PathAtlas.Service
