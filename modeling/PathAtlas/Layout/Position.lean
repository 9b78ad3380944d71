/-
# Positions

Where the nodes of a graph stand in the plane, and which of them are held in place.

Positions are kept by id, apart from the graph, so a node can lack one and a position can outlive
its node; whoever shows a graph says what stands in for a missing position.  A position is written
as a document and read back from it unchanged (`Position.ofJson_toJson`), not being pinned where
the document does not say.
-/
import PathAtlas.Json.Conversion
import PathAtlas.Table

namespace PathAtlas.Layout

/-- The place of a node; a pinned node is not moved by forces. -/
structure Position (α : Type) where
  x : α
  y : α
  pinned : Bool := false
  deriving BEq, DecidableEq

abbrev Positions (α : Type) : Type := Table (Position α)

def Position.entries (p : Position Float) : List (String × Json) :=
  [("x", .decimal p.x), ("y", .decimal p.y), ("pinned", .bool p.pinned)]

def Position.toJson (p : Position Float) : Json := .mapping p.entries

def positionsToJson (positions : Positions Float) : Json :=
  .mapping (positions.map fun (id, p) => (id, p.toJson))

def Position.ofJson (doc : Json) : Except Fault (Position Float) := do
  let x ← (← doc.required "x").toDecimal
  let y ← (← doc.required "y").toDecimal
  return ⟨x, y, doc.flagD "pinned" false⟩

theorem Position.ofJson_toJson (p : Position Float) : Position.ofJson p.toJson = .ok p := rfl

/-- The positions that a document gives by the ids of the nodes; null gives none. -/
def positionsOfJson : Json → Except Fault (Positions Float)
  | .null => .ok []
  | .mapping es => es.mapM fun (id, p) => do return (id, ← Position.ofJson p)
  | v => .error (.noMembers v.kind)

end PathAtlas.Layout
