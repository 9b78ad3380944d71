/-
# Visits

A trace visits a row of nodes: its agent, the hops, and its destination.  A hop that did not answer
is a node of its own for every source and depth, since nothing tells which silent hops are the
same.  Where the last hop is the destination itself, both are one visit.

A visit holds all that this pass tells about the node and nothing that depends on other traces;
how the visits of a node are put together is said where graphs are built.  The sample of a visit
is that of the hop which was passed, and a silent hop leaves none.  The destination is different:
it takes the figures of the last hop whether that hop answered or not, and when the two are one
visit these are the figures that stay (`mergedVisit`).

The depth of a hop is its place in the trace counted from one, not the number that it was reported
with.  Links join visits that follow each other, and staying at a node is no link.
-/
import PathAtlas.Topology.Graph
import PathAtlas.Trace.Path

namespace PathAtlas.Topology

/-! ## 1. Names of nodes -/

def agentId (agent : String) : String := "agent:" ++ agent

def silentId (source : String) (depth : Nat) : String :=
  "unknown:" ++ source ++ ":" ++ toString depth

/-- A text that is there and not empty. -/
def given (s : Option String) : Option String := s.filter (· ≠ "")

def destinationId {α : Type} (trace : Trace α) : String :=
  match given trace.targetAgent with
  | some agent => agentId agent
  | none => trace.target

/-! ## 2. Visits -/

/-- One pass of a trace through a node, with what it tells about the node. -/
structure Visit (α : Type) where
  node : String
  role : Role
  /-- The source of the trace. -/
  source : String
  /-- The path of the trace. -/
  path : String
  address : Option String := none
  agent : Option String := none
  target : Option String := none
  /-- The source that a silent hop belongs to. -/
  scope : Option String := none
  hostName : Json := .null
  depth : Option Nat := none
  sample : Option (Sample α) := none

section Visits

variable {α : Type}

def startVisit (trace : Trace α) : Visit α :=
  { node := agentId trace.source, role := .agent, source := trace.source, path := trace.pathId
    agent := some trace.source }

/-- The visit of a hop.  A silent hop leaves no sample. -/
def hopVisit (trace : Trace α) (hop : Hop α) (depth : Nat) : Visit α :=
  match hop.address with
  | none =>
    { node := silentId trace.source depth, role := .hop, source := trace.source
      path := trace.pathId, scope := some trace.source, depth := some depth }
  | some address =>
    { node := address, role := .hop, source := trace.source, path := trace.pathId
      address := some address, hostName := hop.name, depth := some depth
      sample := some ⟨hop.latency, some hop.loss⟩ }

/-- The visit of the destination.  It takes the figures of the last hop even when that hop was
silent. -/
def endVisit (trace : Trace α) (last : Hop α) : Visit α :=
  let sample : Sample α := ⟨last.latency, some last.loss⟩
  let node := destinationId trace
  match given trace.targetAgent with
  | some agent =>
    { node, role := .agent, source := trace.source, path := trace.pathId
      agent := some agent, sample := some sample }
  | none =>
    { node, role := .destination, source := trace.source, path := trace.pathId
      target := some trace.target
      hostName := if last.identifier = node then last.name else .null
      sample := some sample }

/-- The visit of a last hop that is the destination itself. -/
def mergedVisit (hop finish : Visit α) : Visit α :=
  { hop with
    role := finish.role
    agent := finish.agent
    target := finish.target
    hostName := if finish.role = .agent then hop.hostName else finish.hostName
    sample := finish.sample }

/-- The visits of hops, of which the first has the given depth. -/
def hopVisits (trace : Trace α) : Nat → List (Hop α) → List (Visit α)
  | _, [] => []
  | depth, hop :: hops => hopVisit trace hop depth :: hopVisits trace (depth + 1) hops

/-- The visits behind the start, of which the hops are given: the last one is joined with the
destination or followed by it. -/
def finished (finish : Visit α) : List (Visit α) → List (Visit α)
  | [] => [finish]
  | [last] => if last.node = finish.node then [mergedVisit last finish] else [last, finish]
  | v :: w :: rest => v :: finished finish (w :: rest)

/-- The row of visits of a trace; a trace without hops visits nothing. -/
def visits (trace : Trace α) : List (Visit α) :=
  match trace.hops.getLast? with
  | none => []
  | some last => startVisit trace :: finished (endVisit trace last) (hopVisits trace 1 trace.hops)

/-! ## 3. Links -/

/-- A step of a trace from one node to another, with what it measured at its end. -/
structure Link (α : Type) where
  source : String
  target : String
  path : String
  sample : Option (Sample α)

/-- The steps between visits that follow each other; staying at a node is no step. -/
def linksOf : List (Visit α) → List (Link α)
  | v :: w :: rest =>
    if v.node = w.node then linksOf (w :: rest)
    else ⟨v.node, w.node, w.path, w.sample⟩ :: linksOf (w :: rest)
  | _ => []

def links (trace : Trace α) : List (Link α) := linksOf (visits trace)

end Visits

end PathAtlas.Topology
