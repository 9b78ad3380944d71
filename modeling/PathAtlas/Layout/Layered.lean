/-
# Layered layout

Nodes stand in columns by their distance from the nearest agent; destinations stand in the last
column, and so does what no agent reaches.  Within a column nodes are in order, evenly spaced and
centred.

The last column is that of the greatest distance of any node from an agent, so a destination
shares it with the hops that are as far away.  Columns are a gap apart and start at nought;
heights lie around the middle line.  The gaps are any two quantities, and nothing that is said of
columns needs them to be above nought, except which of two nodes stands further right.

`layersOfDepths` is the same division for depths that somebody gave.  They come from outside and
may be anything, so it can fail: on a value that is no depth, and on one too far below nought to
count from the last column.
-/
import PathAtlas.Layout.Position
import PathAtlas.Topology.Distance

namespace PathAtlas.Layout

open PathAtlas.Topology

variable {α : Type}

/-! ## 1. Depths and layers -/

def depthOf (g : Graph α) (distances : List (String × Nat)) (deepest : Nat) (id : String) : Nat :=
  if (g.nodesOf .destination).any (·.id == id) then deepest
  else ((distances.find? (·.1 == id)).map Prod.snd).getD deepest

/-- The columns of all nodes, each node once. -/
def depths (g : Graph α) : List (String × Nat) :=
  let distances := g.agentDistances
  let deepest := g.reach
  (Order.distinct g.nodeIds).map fun id => (id, depthOf g distances deepest id)

/-- The nodes of each depth in order, from depth nought to the greatest one. -/
def layers (depths : List (String × Nat)) : List (List String) :=
  if depths.isEmpty then []
  else
    (List.range ((depths.map Prod.snd).foldl max 0 + 1)).map fun d =>
      Order.byText id ((depths.filter (·.2 == d)).map Prod.fst)

/-- A depth as a place among so many layers; one below nought counts from the last layer. -/
def layerIndex (count : Nat) (depth : Int) : Except Fault Nat :=
  if 0 ≤ depth then .ok depth.toNat
  else if depth.natAbs ≤ count then .ok (count - depth.natAbs)
  else .error .outOfRange

/-- The first of the greatest of some values, all of which have to be numbers. -/
def deepest (first : Json) (rest : List Json) : Except Fault Json :=
  match (first :: rest).find? fun v => !v.isNumber with
  | some v => .error (.noOrder ">" v.kind first.kind)
  | none => .ok (rest.foldl (fun m v => if m.numberBelow v then v else m) first)

/-- The layers of depths that somebody gave.  They may lie below nought, but the deepest one has
to be a depth before any other is looked at. -/
def layersOfDepths (depths : List (String × Json)) : Except Fault (List (List String)) := do
  match depths with
  | [] => return []
  | (_, first) :: rest =>
    let count := ((← (← deepest first (rest.map Prod.snd)).toPosition) + 1).toNat
    let placed ← depths.mapM fun (id, depth) => do
      return (id, ← layerIndex count (← depth.toPosition))
    return layers placed

/-! ## 2. Positions -/

variable [Scalar α]

/-- The distance between columns when nothing else is said. -/
def standardLayerGap : α := Scalar.ofInt 200

/-- The distance within a column when nothing else is said. -/
def standardNodeGap : α := Scalar.ofInt 80

/-- The height of the `i`-th of some nodes around the middle line. -/
def heightOf (nodeGap : α) (count i : Nat) : α :=
  (Scalar.ofNat i - Scalar.fraction (Int.ofNat count - 1) 2) * nodeGap

def column (layerGap nodeGap : α) (depth : Nat) (ids : List String) : Positions α :=
  ids.zipIdx.map fun (id, i) =>
    (id, ⟨Scalar.ofNat depth * layerGap, heightOf nodeGap ids.length i, true⟩)

def layered (layerGap nodeGap : α) (g : Graph α) : Positions α :=
  (layers (depths g)).zipIdx.flatMap fun (ids, depth) => column layerGap nodeGap depth ids

end PathAtlas.Layout
