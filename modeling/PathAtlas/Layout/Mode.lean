/-
# Layout modes

A graph is laid out in columns by distance, or by forces that a simulation keeps up.  The mode is
named by a value from outside, which is taken as it reads and without regard to case; a name that
stands for no mode is a fault that repeats it.
-/
import PathAtlas.Json.Display

namespace PathAtlas.Layout

/-- How a graph is laid out: in columns, or by forces between its nodes. -/
inductive Mode where
  | hierarchical
  | force
  deriving Repr, DecidableEq

namespace Mode

def name : Mode → String
  | hierarchical => "hierarchical"
  | force => "force"

/-- The mode that a value names; Latin letters may be of either case. -/
def parse (value : Json) : Except Fault Mode :=
  let s := value.display
  match [hierarchical, force].find? fun m => m.name.toList == s.toList.map Char.toLower with
  | some mode => .ok mode
  | none => .error (.unknownLayoutMode s)

end Mode

end PathAtlas.Layout
