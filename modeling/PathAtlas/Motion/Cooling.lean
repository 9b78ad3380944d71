/-
# Cooling

How lively a simulation is.  Its heat comes nearer to a target with every step, and below a least
heat the simulation has settled.

Where the least heat lies below nought no share of the way leads down to it: the first step then
loses the heat for good.  It is a complex number from then on, which can be multiplied and added to
but not compared.  So a step goes on with it for a while, and a target can still be set; what fails
is the question whether the simulation has settled, or whether the heat lies below the target.
-/
import PathAtlas.Fault
import PathAtlas.Scalar

namespace PathAtlas.Motion

/-- The heat of a simulation. -/
structure Cooling (α : Type) where
  alpha : α
  target : α
  least : α
  /-- The share of the way to the target that one step takes; absent when there is no real one. -/
  decay : Option α
  /-- Whether a step was taken without a share of the way, so that the heat is no real number. -/
  lost : Bool := false

namespace Cooling

variable {α : Type} [Scalar α]

/-- The share of the way that brings full heat down to the least one in three hundred steps.  It
needs a root, and one that does not even equal itself is no real number. -/
def share? [Planar α] (least : α) : Option α :=
  let root := Planar.power least (Scalar.fraction 1 300)
  if decide (least < Scalar.zero) && !(root == root) then none else some (Scalar.ofInt 1 - root)

def start [Planar α] (least : α) : Cooling α :=
  { alpha := Scalar.ofInt 1, target := Scalar.zero, least, decay := share? least }

def step (c : Cooling α) : Cooling α :=
  match c.decay with
  | some decay => { c with alpha := c.alpha + (c.target - c.alpha) * decay }
  | none => { c with lost := true }

/-- The heat, when it is a real number. -/
def heat (c : Cooling α) : Except Fault α := if c.lost then .error .heatNotReal else .ok c.alpha

/-- Whether the simulation has settled, its heat being a real number. -/
def settled (c : Cooling α) : Bool := decide (c.alpha < c.least)

/-- Sets a new target, and heats up to it at least. -/
def reheat (c : Cooling α) (target : α) : Except Fault Unit × Cooling α :=
  let c := { c with target }
  match c.heat with
  | .error fault => (.error fault, c)
  | .ok heat => (.ok (), { c with alpha := if heat < target then target else heat })

/-- Lets everything come to rest. -/
def relax (c : Cooling α) : Cooling α := { c with target := Scalar.zero }

end Cooling

end PathAtlas.Motion
