/-
# Building a graph

Traces come in one after the other.  Each is walked along the row of its visits, and what a visit
tells is put down in a draft of its node, what a step measured in a draft of its edge; a draft is
opened by the first visit or step that needs it.  What a trace tells later never takes back what
another one told before: roles rise, sets grow, depths fall, means are kept up to date, and of texts
the first one stays (`NodeDraft.touch`, `EdgeDraft.touch`).

When all traces are in, the drafts are made into nodes, edges and paths, each in the order of their
names (`Builder.build`).  Two things can go wrong, both with host names, which are kept as probes
wrote them.  A list or a mapping cannot be put into a set of names, which shows when its trace comes
in, and the least of some names need not exist, which shows only in the end.
-/
import PathAtlas.Topology.Visit

namespace PathAtlas.Topology

variable {α : Type} [Scalar α]

/-! ## 1. Host names -/

/-- Lists and mappings cannot be host names. -/
def checkName (name : Json) : Except Fault Unit :=
  if name.isPresent then name.checkName else .ok ()

/-- Adds a name to a set unless it is absent. -/
def addName (names : List Json) (name : Json) : List Json :=
  if name.isPresent && !names.any name.same then names ++ [name] else names

/-- The least of some names after a first one. -/
def leastAfter : Json → List Json → Except Fault Json
  | best, [] => .ok best
  | best, name :: names => do leastAfter (if ← name.precedes best then name else best) names

/-- The least of a set of names, null when it is empty; names of different kinds have no order. -/
def leastOf : List Json → Except Fault Json
  | [] => .ok .null
  | first :: rest => leastAfter first rest

/-! ## 2. Nodes -/

/-- What is known of a node while traces come in. -/
structure NodeDraft (α : Type) where
  role : Role
  tally : Tally α := {}
  paths : List String := []
  /-- The sources that came in another role than that of an agent. -/
  visitors : List String := []
  hostNames : List Json := []
  depth : Option Nat := none
  address : Option String := none
  agent : Option String := none
  target : Option String := none
  scope : Option String := none

/-- The smaller one of two depths that may be missing. -/
def lesserDepth (old new : Option Nat) : Option Nat :=
  match old, new with
  | some m, some n => some (min m n)
  | _, none => old
  | none, some _ => new

/-- A draft before anything is put down in it. -/
def NodeDraft.opened (visit : Visit α) : NodeDraft α := { role := visit.role }

/-- Puts down what a visit tells. -/
def NodeDraft.touch (draft : NodeDraft α) (visit : Visit α) : NodeDraft α :=
  { role := draft.role.higher visit.role
    tally := (visit.sample.map draft.tally.add).getD draft.tally
    paths := Order.insertText visit.path draft.paths
    visitors :=
      if visit.role = .agent then draft.visitors else Order.insertText visit.source draft.visitors
    hostNames := addName draft.hostNames visit.hostName
    depth := lesserDepth draft.depth visit.depth
    address := draft.address <|> given visit.address
    agent := draft.agent <|> given visit.agent
    target := draft.target <|> given visit.target
    scope := draft.scope <|> given visit.scope }

/-- What follows the first colon of a text, or all of it. -/
def afterColon (s : String) : String :=
  match s.toList.dropWhile (· ≠ ':') with
  | _ :: rest => String.ofList rest
  | [] => s

/-- The class of statistics; without samples nothing is known. -/
def statusOf (limits : Thresholds α) (stats : Stats α) : Health :=
  if stats.hasData then limits.classify stats.latency stats.loss else .unknown

/-- The node of a draft under a host name.  An agent shows no statistics. -/
def NodeDraft.named (limits : Thresholds α) (id : String) (draft : NodeDraft α)
    (hostName : Json) : Node α :=
  let paths := draft.paths
  let stats := draft.tally.stats
  let status := statusOf limits stats
  let named (fallback : String) : Json :=
    if hostName.isPresent then hostName else .text fallback
  match draft.role with
  | .agent =>
    let name := draft.agent.getD (afterColon id)
    { id, label := .text name, stats := {}, paths, status := .unknown, detail := .agent name }
  | .destination =>
    let target := draft.target.getD id
    { id, label := named target, stats, paths, status
      detail := .destination target hostName draft.visitors }
  | .hop =>
    { id, label := named (draft.address.getD wildcard), stats, paths, status
      detail := .hop draft.address hostName (draft.depth.getD 0)
        (if draft.address.isNone then draft.scope else none) draft.visitors }

/-- The node of a draft.  The least of its host names is its name. -/
def NodeDraft.node (limits : Thresholds α) (id : String) (draft : NodeDraft α) :
    Except Fault (Node α) :=
  (leastOf draft.hostNames).map (draft.named limits id)

/-! ## 3. Edges and paths -/

/-- What is known of an edge while traces come in. -/
structure EdgeDraft (α : Type) where
  tally : Tally α := {}
  paths : List String := []

/-- Puts down what a step tells. -/
def EdgeDraft.touch (draft : EdgeDraft α) (step : Link α) : EdgeDraft α :=
  { tally := (step.sample.map draft.tally.add).getD draft.tally
    paths := Order.insertText step.path draft.paths }

/-- The edge of a draft between two nodes. -/
def EdgeDraft.edge (limits : Thresholds α) (nodeIds : List String) (ends : String × String)
    (draft : EdgeDraft α) : Edge α :=
  let stats := draft.tally.stats
  { id := edgeId ends.1 ends.2, source := ends.1, target := ends.2
    sourceIndex := nodeIds.idxOf ends.1, targetIndex := nodeIds.idxOf ends.2
    stats, paths := draft.paths, status := statusOf limits stats }

/-- Where a trace begins and ends, which decides for its path. -/
def openPath (trace : Trace α) : PathInfo :=
  { pathId := trace.pathId
    sourceNode := agentId trace.source
    terminalNode := destinationId trace
    terminatesAtAgent := trace.targetAgent.isSome
    recordCount := 0 }

def PathInfo.counted (info : PathInfo) : PathInfo :=
  { info with recordCount := info.recordCount + 1 }

/-! ## 4. Builders -/

/-- What is known of a graph while traces come in. -/
structure Builder (α : Type) where
  nodes : List (String × NodeDraft α) := []
  edges : List ((String × String) × EdgeDraft α) := []
  paths : List (String × PathInfo) := []
  /-- How many traces had no hops. -/
  skipped : Nat := 0

namespace Builder

/-- Puts down a visit in the draft of its node. -/
def touchNode (builder : Builder α) (visit : Visit α) : Except Fault (Builder α) := do
  checkName visit.hostName
  return {
    builder with nodes := Order.into visit.node (.opened visit) (·.touch visit) builder.nodes }

/-- Puts down a step in the draft of its edge. -/
def touchEdge (builder : Builder α) (step : Link α) : Builder α :=
  { builder with edges := Order.into (step.source, step.target) {} (·.touch step) builder.edges }

/-- Walks along a row of visits, from the node before it.  Staying at a node is no step. -/
def walk : Builder α → Option String → List (Visit α) → Except Fault (Builder α)
  | builder, _, [] => .ok builder
  | builder, before, visit :: rest => do
    let builder ← builder.touchNode visit
    match before with
    | none => builder.walk (some visit.node) rest
    | some node =>
      if node = visit.node then builder.walk (some visit.node) rest
      else
        (builder.touchEdge ⟨node, visit.node, visit.path, visit.sample⟩).walk (some visit.node) rest

def countPath (builder : Builder α) (trace : Trace α) : Builder α :=
  { builder with
    paths := Order.into trace.pathId (openPath trace) PathInfo.counted builder.paths }

/-- Takes in a trace.  One without hops is left out. -/
def add (builder : Builder α) (trace : Trace α) : Except Fault (Builder α) :=
  if trace.hasHops then return (← builder.walk none (visits trace)).countPath trace
  else return { builder with skipped := builder.skipped + 1 }

/-- The graph of what was taken in. -/
def build (limits : Thresholds α) (generatedAt : α) (builder : Builder α) :
    Except Fault (Graph α) := do
  let nodes ← (Order.byText Prod.fst builder.nodes).mapM fun (id, draft) => draft.node limits id
  let nodeIds := nodes.map Node.id
  let edges := (Order.sortBy (fun a b => Order.pairBefore a.1 b.1) builder.edges).map
    fun (ends, draft) => draft.edge limits nodeIds ends
  let paths := (Order.byText Prod.fst builder.paths).map Prod.snd
  return { nodes, edges, paths, generatedAt }

end Builder

def Graph.ofTraces (limits : Thresholds α) (generatedAt : α) (traces : List (Trace α)) :
    Except Fault (Graph α) := do
  let builder ← traces.foldlM Builder.add {}
  builder.build limits generatedAt

def skippedCount (traces : List (Trace α)) : Nat := traces.countP fun t => !t.hasHops

end PathAtlas.Topology
