/-
# Topology graphs

A graph is a snapshot of the network: agents, hops and destinations as nodes, and an edge for
every step that some trace took from one node to another.  Nodes and edges are rows in a fixed
order, and an edge also knows its ends by their places among the nodes.

The rows are plain lists, so a graph that was given in outline may name a node twice or end an
edge at no node at all.  Looking up takes the last of several nodes of one id, and `checkEdges` is
the test that every edge ends at nodes; a graph that was built from traces passes it and has no id
twice, which is proved where graphs are assembled.

Node ids are texts of one space: agents carry a mark in front, hops and destinations are their
addresses.  The id of an edge is made of the ids of its ends (`edgeId`), and since those may hold
the mark between them too, two edges can have one id.  Ends and places tell edges apart; ids are
for those who look at them.
-/
import PathAtlas.Health
import PathAtlas.Order
import PathAtlas.Topology.Stats

namespace PathAtlas.Topology

/-! ## 1. Nodes -/

/-- What a node is. -/
inductive Role where
  | hop
  | destination
  | agent
  deriving Repr, DecidableEq

namespace Role

def name : Role → String
  | hop => "hop"
  | destination => "destination"
  | agent => "agent"

/-- A node that was seen in several roles has the one of the highest rank. -/
def rank : Role → Nat
  | hop => 0
  | destination => 1
  | agent => 2

/-- The role of the higher rank. -/
def higher (a b : Role) : Role := if a.rank < b.rank then b else a

def isEndpoint (role : Role) : Bool := role != hop

def ofName? (s : String) : Option Role := [hop, destination, agent].find? (·.name == s)

end Role

/-- What is known about a node of each role.  Host names are kept as probes wrote them. -/
inductive Detail where
  | hop (address : Option String) (hostName : Json) (number : Nat) (scope : Option String)
      (agents : List String)
  | destination (target : String) (hostName : Json) (agents : List String)
  | agent (name : String)

/-- A node.  Its paths are in order, each once. -/
structure Node (α : Type) where
  id : String
  label : Json
  stats : Stats α
  paths : List String
  status : Health
  detail : Detail

def Detail.role : Detail → Role
  | .hop .. => .hop
  | .destination .. => .destination
  | .agent .. => .agent

namespace Node

variable {α : Type}

def role (node : Node α) : Role := node.detail.role

/-- The agents whose traces pass a node that is no agent itself. -/
def agents (node : Node α) : List String :=
  match node.detail with
  | .hop _ _ _ _ agents => agents
  | .destination _ _ agents => agents
  | .agent _ => []

end Node

/-! ## 2. Edges, paths and graphs -/

/-- A step from one node to another that some trace took. -/
structure Edge (α : Type) where
  id : String
  source : String
  target : String
  sourceIndex : Nat
  targetIndex : Nat
  stats : Stats α
  paths : List String
  status : Health

def edgeId (source target : String) : String := source ++ "->" ++ target

/-- Where a path begins and ends. -/
structure PathInfo where
  pathId : String
  sourceNode : String
  terminalNode : String
  terminatesAtAgent : Bool
  recordCount : Nat
  deriving Repr, DecidableEq

structure Graph (α : Type) where
  nodes : List (Node α)
  edges : List (Edge α)
  paths : List PathInfo
  generatedAt : α

/-! ## 3. Looking things up -/

namespace Graph

variable {α : Type}

def empty [Scalar α] : Graph α := ⟨[], [], [], Scalar.zero⟩

def size (g : Graph α) : Nat := g.nodes.length

def nodeIds (g : Graph α) : List String := g.nodes.map Node.id

def contains (g : Graph α) (id : String) : Bool := g.nodeIds.contains id

/-- The place of the node of an id; of several the last one counts. -/
def indexOf? (g : Graph α) (id : String) : Option Nat :=
  (List.range g.size).reverse.find? fun i => g.nodeIds[i]? == some id

/-- The node of an id; of several the last one counts. -/
def node? (g : Graph α) (id : String) : Option (Node α) :=
  g.nodes.reverse.find? (·.id == id)

def nodesOf (g : Graph α) (role : Role) : List (Node α) := g.nodes.filter (·.role == role)

/-- The edges at a node in order; one that both begins and ends there comes twice. -/
def incident (g : Graph α) (id : String) : List (Edge α) :=
  g.edges.flatMap fun e =>
    (if e.source = id then [e] else []) ++ (if e.target = id then [e] else [])

/-- The nodes that an edge joins to a node, in either direction. -/
def neighbours (g : Graph α) (id : String) : List String :=
  Order.textSet ((g.incident id).map fun e => if e.source = id then e.target else e.source)

/-- Where a path begins and ends. -/
def path? (g : Graph α) (pathId : String) : Option PathInfo :=
  g.paths.reverse.find? (·.pathId == pathId)

/-- Every edge has to end at nodes. -/
def checkEdges (g : Graph α) : Except Fault Unit :=
  g.edges.forM fun e =>
    if !g.contains e.source then throw (.missingKey e.source)
    else if !g.contains e.target then throw (.missingKey e.target)
    else pure ()

/-- The share of all possible edges that exist; absent when there is none among several
nodes. -/
def density? [Scalar α] (g : Graph α) : Option α :=
  let n := (Order.distinct g.nodeIds).length
  let m := (Order.distinct (g.edges.map fun e => (e.source, e.target))).length
  if g.size ≤ 1 then some Scalar.zero
  else if m = 0 || n ≤ 1 then none
  else Scalar.quotient (Int.ofNat m) (Int.ofNat (n * (n - 1)))

end Graph

end PathAtlas.Topology
