/-
# Drawings

A picture of a graph as a row of drawing calls: the edges, then the nodes by role, then the labels.
What a highlight leaves out is drawn faintly, and apart from the rest.

The calls are what a plotting library is asked to do, in order, with all that it is given; what it
does with them is outside.  Elements that look alike go into one call (`EdgeBatch`, `NodeBatch`),
and a call that would draw nothing is left out.  The dimmed edges come first and so lie below the
others, whereas of each role the dimmed nodes come last.

A picture is drawn for every graph whose labels can be cut: a label that is no text has no length,
and its fault is the only one there is.  No picture is saved then, and the answer is the fault
alone.  Without a graph, and with one that has no nodes, a picture says so in words.
-/
import PathAtlas.Figure
import PathAtlas.Highlight
import PathAtlas.Layout.Position

namespace PathAtlas.Drawing

open PathAtlas.Topology PathAtlas.Layout

/-! ## 1. Looks -/

inductive Colour where
  | green
  | orange
  | red
  | lightGray
  | lightBlue
  | gray
  deriving Repr, DecidableEq

def Colour.name : Colour → String
  | green => "green"
  | orange => "orange"
  | red => "red"
  | lightGray => "lightgray"
  | lightBlue => "lightblue"
  | gray => "gray"

def statusColour : Health → Colour
  | .healthy => .green
  | .degraded => .orange
  | .critical => .red
  | .unknown => .lightGray

inductive Shape where
  | circle
  | square
  | diamond
  deriving Repr, DecidableEq

def Shape.letter : Shape → String
  | circle => "o"
  | square => "s"
  | diamond => "D"

def shapeOf : Role → Shape
  | .agent => .circle
  | .hop => .square
  | .destination => .diamond

def sizeOf : Role → Nat
  | .agent => 1200
  | .hop => 300
  | .destination => 700

/-- The colour of a node: agents have one of their own. -/
def colourOf {α : Type} (node : Node α) : Colour :=
  if node.role = .agent then .lightBlue else statusColour node.status

/-- Opacity of what is dimmed, in hundredths. -/
def dimOpacity : Nat := 15

/-! ## 2. Calls -/

/-- The size of a picture and its resolution. -/
structure Canvas where
  width : Figure Float := .whole 12
  height : Figure Float := .whole 8
  resolution : Figure Float := .whole 100

abbrev Points (α : Type) : Type := List (String × α × α)

/-- Nodes that are drawn alike, each with its colour. -/
structure NodeBatch where
  nodes : List (String × Colour)
  opacity : Nat
  shape : Shape
  size : Nat

/-- Edges that are drawn alike, each with its ends and its colour. -/
structure EdgeBatch where
  edges : List ((String × String) × Colour)
  opacity : Nat
  width : Nat

/-- Labels that are written alike. -/
structure LabelBatch where
  labels : List (String × Json)
  size : Nat
  bold : Bool

/-- One step of drawing. -/
inductive Call (α : Type) where
  | openFigure (canvas : Canvas)
  | hideAxes
  | writeText (text : String) (colour : Colour) (size : Nat)
  | drawEdges (points : Points α) (batch : EdgeBatch)
  | drawNodes (points : Points α) (batch : NodeBatch)
  | drawLabels (points : Points α) (batch : LabelBatch)
  | save (format : String)
  | closeFigure

/-! ## 3. Points and labels -/

variable {α : Type} [Scalar α]

/-- The points of a graph's nodes: heights grow upwards in a picture, and a node without a
position stands at the origin. -/
def pointsOf (g : Graph α) (positions : Positions α) : Points α :=
  let placed := (positions.filter fun (id, _) => g.contains id).map fun (id, p) =>
    (id, p.x, Scalar.ofInt (-1) * p.y)
  let missing := (Order.distinct g.nodeIds).filter fun id => (positions.find? id).isNone
  placed ++ missing.map fun id => (id, Scalar.zero, Scalar.zero)

/-- What follows the last point of a text. -/
def lastPiece (s : String) : String :=
  String.ofList (s.toList.reverse.takeWhile (· ≠ '.')).reverse

/-- A label cut to sixteen characters; only a text can be cut. -/
def shortened (label : Json) : Except Fault String :=
  match label with
  | .text s =>
    .ok (if s.toList.length ≤ 16 then s else String.ofList (s.toList.take 13 ++ "...".toList))
  | v => .error (.noLength v.kind)

/-- The label of a node that is no agent: of a nameless hop the last part of its address, else
the label cut short. -/
def shortLabel (node : Node α) : Except Fault String :=
  match node.detail with
  | .hop (some address) hostName _ _ _ =>
    if address.toList.contains '.' && !hostName.isPresent then .ok (lastPiece address)
    else shortened node.label
  | _ => shortened node.label

/-! ## 4. Batches -/

/-- The edges that are dimmed, or those that are not. -/
def edgeBatch (g : Graph α) (highlight : Option Highlight) (dimmed : Bool) : EdgeBatch :=
  { edges := (g.edges.filter fun e => Highlight.dims highlight e.id == dimmed).map fun e =>
      ((e.source, e.target), statusColour e.status)
    opacity := if dimmed then dimOpacity else 80
    width := if dimmed then 1 else 2 }

/-- The nodes of a role that are dimmed, or those that are not. -/
def nodeBatch (g : Graph α) (highlight : Option Highlight) (role : Role) (dimmed : Bool) :
    NodeBatch :=
  { nodes := ((g.nodesOf role).filter fun n => Highlight.dims highlight n.id == dimmed).map
      fun n => (n.id, colourOf n)
    opacity := if dimmed then dimOpacity else 90
    shape := shapeOf role
    size := sizeOf role }

/-- The calls for the edges, the dimmed ones first. -/
def edgeCalls (g : Graph α) (points : Points α) (highlight : Option Highlight) : List (Call α) :=
  (([true, false].map (edgeBatch g highlight)).filter fun b => !b.edges.isEmpty).map
    (.drawEdges points)

def nodeCalls (g : Graph α) (points : Points α) (highlight : Option Highlight) : List (Call α) :=
  let batches := [Role.agent, .hop, .destination].flatMap fun role =>
    [false, true].map (nodeBatch g highlight role)
  (batches.filter fun b => !b.nodes.isEmpty).map (.drawNodes points)

/-- The calls for the labels, those of agents first. -/
def labelCalls (g : Graph α) (points : Points α) : Except Fault (List (Call α)) := do
  let agents := (g.nodesOf .agent).map fun n => (n.id, n.label)
  let others ← (g.nodes.filter (·.role ≠ .agent)).mapM fun n => do
    return (n.id, Json.text (← shortLabel n))
  let batches : List LabelBatch := [⟨agents, 11, true⟩, ⟨others, 8, false⟩]
  return (batches.filter fun b => !b.labels.isEmpty).map (.drawLabels points)

/-! ## 5. Pictures -/

def emptyText : String := "No topology data available"

/-- The calls that draw what is inside of the figure. -/
def content (g : Option (Graph α)) (positions : Positions α) (highlight : Option Highlight) :
    Except Fault (List (Call α)) :=
  match g with
  | none => .ok [.writeText emptyText .gray 16]
  | some g =>
    if g.nodes.isEmpty then .ok [.writeText emptyText .gray 16]
    else do
      let points := pointsOf g positions
      return edgeCalls g points highlight ++ nodeCalls g points highlight ++ (← labelCalls g points)

def picture (g : Option (Graph α)) (positions : Positions α) (highlight : Option Highlight)
    (canvas : Canvas) : Except Fault (List (Call α)) := do
  return [.openFigure canvas, .hideAxes] ++ (← content g positions highlight)
    ++ [.save "png", .closeFigure]

/-! ## 6. Documents -/

def pointsToJson (points : Points Float) : Json :=
  .mapping (points.map fun (id, x, y) => (id, .list [.decimal x, .decimal y]))

/-- An opacity as a fraction. -/
def opacityToJson (hundredths : Nat) : Json := .decimal (Scalar.fraction hundredths 100)

def Call.toJson : Call Float → Json
  | .openFigure canvas =>
    .mapping [("call", .text "figure"), ("dpi", canvas.resolution.toJson),
      ("figsize", .list [canvas.width.toJson, canvas.height.toJson])]
  | .hideAxes => .mapping [("call", .text "axis_off")]
  | .writeText s colour size =>
    .mapping [("call", .text "text"), ("text", .text s), ("color", .text colour.name),
      ("fontsize", .nat size)]
  | .drawEdges points b =>
    .mapping [("call", .text "edges"), ("pos", pointsToJson points),
      ("edgelist", .list (b.edges.map fun e => .texts [e.1.1, e.1.2])),
      ("edge_color", .texts (b.edges.map fun e => e.2.name)),
      ("alpha", opacityToJson b.opacity), ("width", .decimal (Scalar.ofNat b.width)),
      ("arrows", .bool true)]
  | .drawNodes points b =>
    .mapping [("call", .text "nodes"), ("pos", pointsToJson points),
      ("nodelist", .texts (b.nodes.map Prod.fst)),
      ("node_color", .texts (b.nodes.map fun n => n.2.name)),
      ("alpha", opacityToJson b.opacity), ("node_shape", .text b.shape.letter),
      ("node_size", .nat b.size)]
  | .drawLabels points b =>
    .mapping ([("call", .text "labels"), ("pos", pointsToJson points),
      ("labels", .mapping b.labels), ("font_size", .nat b.size)]
      ++ if b.bold then [("font_weight", .text "bold")] else [])
  | .save format => .mapping [("call", .text "savefig"), ("format", .text format)]
  | .closeFigure => .mapping [("call", .text "close")]

end PathAtlas.Drawing
