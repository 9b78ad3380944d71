/-
# Graphs as documents

Nodes, edges and paths written for a reader.  Each kind of node has entries of its own behind the
common ones (`Detail.entries`): an agent its name, a hop its address, host name, number and the
agents that share it, a destination its target and the agents that reach it.

The same entries serve the whole graph and the views of it.  The scopes of silent hops and the
places of an edge's ends are shown only with the whole graph (`Graph.toJson`), since elsewhere the
rows are picked out and places mean nothing.
-/
import PathAtlas.Topology.Graph

namespace PathAtlas.Topology

/-- The entries that tell what is known about a node of each role. -/
def Detail.entries : Detail → List (String × Json)
  | .agent name => [("agent_id", .text name)]
  | .hop address hostName number _ agents =>
    [("ip", .ofOption .text address), ("hostname", hostName), ("hop_number", .nat number),
     ("shared_agents", .texts agents)]
  | .destination target hostName agents =>
    [("ip", .text target), ("hostname", hostName), ("shared_agents", .texts agents)]

def Node.entries (node : Node Float) : List (String × Json) :=
  [("id", .text node.id), ("type", .text node.role.name), ("label", node.label),
   ("path_count", .nat node.paths.length), ("path_ids", .texts node.paths),
   ("status", .text node.status.name)] ++ node.stats.entries ++ node.detail.entries

def Edge.entries (edge : Edge Float) : List (String × Json) :=
  [("id", .text edge.id), ("source", .text edge.source), ("target", .text edge.target),
   ("path_count", .nat edge.paths.length), ("path_ids", .texts edge.paths),
   ("status", .text edge.status.name)] ++ edge.stats.entries

def Node.toJson (node : Node Float) : Json := .mapping node.entries

def Edge.toJson (edge : Edge Float) : Json := .mapping edge.entries

def PathInfo.toJson (path : PathInfo) : Json :=
  .mapping
    [("path_id", .text path.pathId), ("source_node", .text path.sourceNode),
     ("terminal_node", .text path.terminalNode),
     ("terminates_at_agent", .bool path.terminatesAtAgent),
     ("record_count", .nat path.recordCount)]

/-- All that a graph holds, with the scopes of its hops and the places of the ends of its
edges. -/
def Graph.toJson (g : Graph Float) : Json :=
  let scope : Detail → List (String × Json)
    | .hop address _ _ scope _ =>
      [("scope_source", .ofOption .text scope), ("responding", .bool address.isSome)]
    | _ => []
  let places (e : Edge Float) : List (String × Json) :=
    [("source_index", .nat e.sourceIndex), ("target_index", .nat e.targetIndex)]
  .mapping
    [("nodes", .list (g.nodes.map fun n => .mapping (n.entries ++ scope n.detail))),
     ("edges", .list (g.edges.map fun e => .mapping (e.entries ++ places e))),
     ("paths", .list (g.paths.map PathInfo.toJson)),
     ("generated_at", .decimal g.generatedAt)]

end PathAtlas.Topology
