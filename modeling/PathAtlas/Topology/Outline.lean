/-
# Graphs in outline

A graph can be given in outline: its nodes by id and role, its edges by their ends, its paths by
where they begin and end.  Nothing in it was measured, and the order of its rows is kept.  Only
edges have to fit: they may end at nodes of the outline alone.

Ids may be values of any kind and are taken as they read; what cannot be looked into, or lacks an
entry that has to be there, ends the reading with its fault.  A role that is none is that of a
hop, and a health that is none is unknown.  Since rows are kept as they come, an outline can hold
what no window of traces would give, such as one id twice, and the views of a graph have to do
with that.
-/
import PathAtlas.Json.Conversion
import PathAtlas.Json.Display
import PathAtlas.Topology.Graph

namespace PathAtlas.Topology

/-! ## 1. Rows -/

/-- The paths that a row names, in order and each once. -/
def outlinePaths (doc : Json) : Except Fault (List String) := do
  let ids ← doc.elementsAt "path_ids"
  ids.forM Json.checkName
  return Order.textSet (ids.map Json.display)

/-- The health that a row names; it is unknown when the row names none. -/
def outlineHealth (doc : Json) : Health :=
  ((doc.get? "status").map fun v => .ofName v.display).getD .unknown

/-- What is known about a node of a role: its id, and of a hop the address that is given. -/
def outlineDetail (role : Option Role) (id : String) (doc : Json) : Detail :=
  match role with
  | some .agent => .agent id
  | some .destination => .destination id .null []
  | _ =>
    let address := (doc.get? "ip").map fun v => if v.isNull then none else some v.display
    .hop (address.getD (some id)) (doc.entry "hostname") 0 none []

def Node.ofOutline (doc : Json) : Except Fault (Node Float) := do
  let id := (← doc.required "id").display
  let role := Role.ofName? (← doc.required "kind").display
  return {
    id
    label := (doc.get? "label").getD (.text id)
    stats := {}
    paths := ← outlinePaths doc
    status := outlineHealth doc
    detail := outlineDetail role id doc }

/-- The edge of a row among nodes of some ids. -/
def Edge.ofOutline (ids : List String) (doc : Json) : Except Fault (Edge Float) := do
  let source := (← doc.required "source").display
  let target := (← doc.required "target").display
  return {
    id := edgeId source target
    source
    target
    sourceIndex := ids.idxOf source
    targetIndex := ids.idxOf target
    stats := {}
    paths := ← outlinePaths doc
    status := outlineHealth doc }

def PathInfo.ofOutline (pathId : String) (doc : Json) : Except Fault PathInfo := do
  let sourceNode := (← doc.required "source_node").display
  let terminalNode := (← doc.required "terminal_node").display
  let terminatesAtAgent := (← doc.required "terminates_at_agent").isPresent
  return { pathId, sourceNode, terminalNode, terminatesAtAgent, recordCount := 0 }

/-! ## 2. Graphs -/

/-- The paths of an outline by their ids; there are none when it has no such part. -/
def outlinePathInfos (doc : Json) : Except Fault (List PathInfo) :=
  match doc.get? "paths" with
  | none => .ok []
  | some (.mapping es) => es.mapM fun (id, info) => PathInfo.ofOutline id info
  | some v => .error (.noMembers v.kind)

def Graph.ofOutline (doc : Json) : Except Fault (Graph Float) := do
  let nodes ← (← (← doc.required "nodes").elements).mapM Node.ofOutline
  let edges ← (← doc.elementsAt "edges").mapM (Edge.ofOutline (nodes.map Node.id))
  let g : Graph Float := ⟨nodes, edges, ← outlinePathInfos doc, 0.0⟩
  g.checkEdges
  return g

end PathAtlas.Topology
