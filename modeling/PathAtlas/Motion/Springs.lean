/-
# Springs

One step of a spring layout, as it is usually taken: linked knots attract and all knots repel one
another, and every knot makes a step along the force on it.  The length of that step is a tenth of
the size of the whole, whatever the force is.

A simulation does not depend on this formula (`Settings.springs`).  It asks the springs only where
they would bring each knot, and cuts the way there down to the length of a link.

The step is the same from everywhere: it reads positions and links, and neither velocities nor heat
nor which knots are held.  Knots that stand at one place would push each other with no direction, so
distances count as no less than a hundredth (`closest`).
-/
import PathAtlas.Scalar
import PathAtlas.Table

namespace PathAtlas.Motion

/-- Where the springs take hold: the place of the last body of an id, fixed when any body of it is
held. -/
structure Knot (α : Type) where
  id : String
  links : List Bool
  x : α
  y : α
  fixed : Bool

variable {α : Type} [Scalar α] [Planar α]

/-- The least distance, and the least length of a force, that is reckoned with. -/
def closest : α := Scalar.fraction 1 100

/-- The force of one node on another that stands at an offset from it: `k² / r²` apart, and `r / k`
together when they are linked. -/
def pull (k dx dy : α) (linked : Bool) : α :=
  let r := Scalar.larger (Planar.sqrt (dx * dx + dy * dy)) closest
  let weight : α := Scalar.ofInt (if linked then 1 else 0)
  k * k / (r * r) - weight * r / k

def springForce (k : α) (knots : List (Knot α)) (knot : Knot α) : α × α :=
  (knots.zip knot.links).foldl (fun (fx, fy) (other, linked) =>
    let dx := knot.x - other.x
    let dy := knot.y - other.y
    let f := pull k dx dy linked
    (fx + dx * f, fy + dy * f)) (Scalar.zero, Scalar.zero)

def extent (values : List α) : α :=
  (Scalar.largest? values).getD Scalar.zero - (Scalar.smallest? values).getD Scalar.zero

/-- The length of a step: a tenth of the size of the whole. -/
def temperature (knots : List (Knot α)) : α :=
  Scalar.larger (extent (knots.map Knot.x)) (extent (knots.map Knot.y)) * Scalar.fraction 1 10

/-- Where the forces pull one knot; one that is fixed stays where it is. -/
def pulledTo (k t : α) (knots : List (Knot α)) (knot : Knot α) : α × α :=
  if knot.fixed then (knot.x, knot.y)
  else
    let (fx, fy) := springForce k knots knot
    let size := Scalar.larger (Planar.sqrt (fx * fx + fy * fy)) closest
    (knot.x + fx * (t / size), knot.y + fy * (t / size))

/-- Where the springs would bring every knot.  A knot alone is brought to the origin. -/
def springPlaces (k : α) (knots : List (Knot α)) : Table (α × α) :=
  match knots with
  | [knot] => [(knot.id, (Scalar.zero, Scalar.zero))]
  | _ =>
    let t := temperature knots
    knots.map fun knot => (knot.id, pulledTo k t knots knot)

end PathAtlas.Motion
