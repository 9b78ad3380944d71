/-
# Distances in a graph

The distance of a node is the least number of edges, followed in either direction, between it
and the nearest of some given nodes.  The nodes of one distance are found from those of the
distance before.

The search (`spread`) is over any relation of neighbours.  It keeps what was found and the nodes
of the last distance, and stops when a round finds nothing new.  The fuel is one more than the
number of nodes: every round but the last finds a node that was not found before, so it is never
short, and that the distances are those of walks holds without a condition on the graph.  Nodes
that no agent reaches have no distance and are in no list.
-/
import PathAtlas.Topology.Graph

namespace PathAtlas.Topology

/-- The nodes from a distance on, that distance having been reached at the frontier.  Nodes that
were found before are not found again, so the search ends when nothing new is found; each round
but the last finds a node, which bounds the fuel. -/
def spread (neighbours : String → List String) :
    Nat → Nat → List String → List String → List (String × Nat)
  | 0, _, _, _ => []
  | fuel + 1, distance, found, frontier =>
    if frontier.isEmpty then []
    else
      let next := Order.textSet ((frontier.flatMap neighbours).filter (!found.contains ·))
      frontier.map (·, distance) ++ spread neighbours fuel (distance + 1) (found ++ next) next

namespace Graph

variable {α : Type}

/-- The distances of all nodes that can be reached from the agents. -/
def agentDistances (g : Graph α) : List (String × Nat) :=
  let agents := Order.textSet ((g.nodesOf .agent).map Node.id)
  spread g.neighbours (g.size + 1) 0 agents agents

/-- The greatest distance from an agent. -/
def reach (g : Graph α) : Nat := (g.agentDistances.map Prod.snd).foldl max 0

end Graph

end PathAtlas.Topology
