/-
# Highlights

What is emphasised when a node is selected: every edge that shares a path with it, and the
nodes at their ends.  Where no path of a node is known, its neighbours are emphasised instead.

Which paths a node stands for depends on its role (`selectPaths`), and the path table of the graph
is asked for the ends of each.  An element is emphasised by its id, so elements with one id are
emphasised together.

There are two readings of a highlight that emphasises nothing, as that of a node which is not in
the graph.  `dims` takes it as no highlight, and leaves everything as it is; the scene of an atlas
dims whatever the highlight does not emphasise, and so everything.
-/
import PathAtlas.Topology.Graph

namespace PathAtlas

/-- The part of a graph that stands out; all else is dimmed. -/
structure Highlight where
  node : Option String
  paths : List String := []
  edges : List String := []
  nodes : List String := []
  neighboursOnly : Bool := false
  deriving Repr, DecidableEq

namespace Highlight

open PathAtlas.Topology

def isEmpty (h : Highlight) : Bool := h.nodes.isEmpty

def emphasizes (h : Highlight) (id : String) : Bool := h.edges.contains id || h.nodes.contains id

/-- Whether a highlight that is not empty leaves an element out. -/
def dims (h : Option Highlight) (id : String) : Bool :=
  h.any fun h => !h.isEmpty && !h.emphasizes id

variable {α : Type}

/-- The paths that a selected node stands for.  An agent stands for the paths that it starts and
that end at an agent, a destination for those that end there, and a hop for all that it is on. -/
def selectPaths (g : Graph α) (id : String) : List String :=
  match g.node? id with
  | none => []
  | some node =>
    match node.role with
    | .agent =>
      node.paths.filter fun p =>
        (g.path? p).any fun info => info.sourceNode == id && info.terminatesAtAgent
    | .destination => node.paths.filter fun p => (g.path? p).any fun info => info.terminalNode == id
    | .hop => node.paths

def edgesOn (g : Graph α) (paths : List String) : List (Edge α) :=
  g.edges.filter fun e => e.paths.any paths.contains

/-- The highlight of a selected node. -/
def ofNode (g : Graph α) (id : String) : Highlight :=
  match g.node? id with
  | none => { node := some id }
  | some node =>
    if node.paths.isEmpty then
      { node := some id
        edges := Order.textSet ((g.incident id).map Edge.id)
        nodes := Order.textSet (id :: g.neighbours id)
        neighboursOnly := true }
    else
      let paths := selectPaths g id
      let edges := edgesOn g paths
      { node := some id
        paths
        edges := Order.textSet (edges.map Edge.id)
        nodes := Order.textSet (id :: edges.flatMap fun e => [e.source, e.target]) }

def toJson (h : Highlight) : Json :=
  .mapping
    [("node_id", .ofOption .text h.node),
     ("path_ids", .texts h.paths),
     ("edge_ids", .texts h.edges),
     ("node_ids", .texts h.nodes),
     ("neighbor_fallback", .bool h.neighboursOnly)]

end Highlight

end PathAtlas
