/-
# Forces

One step of a force layout.  Springs pull the nodes to the places that the settings tell for them;
nodes that would overlap are pushed apart; and all are drawn to a centre.  Forces only change
velocities, and a node that is held does not move, whatever its velocity.

Bodies of one id are one knot for the springs, and each moves by itself otherwise.

There are four passes over the bodies, one for each force and a last one that moves them.  A pass
fails where it needs a setting that is no number; the first one can also fail half way, at a step
without a length, and then leaves the bodies before it with their new velocities.
-/
import PathAtlas.Layout.Position
import PathAtlas.Motion.Settings
import PathAtlas.Order

namespace PathAtlas.Motion

/-! ## 1. Bodies -/

/-- A node in motion.  A node that is held has fixed coordinates, to which it is put back. -/
structure Body (α : Type) where
  id : String
  /-- To which knots it is linked, in the order of the knots. -/
  links : List Bool
  x : α
  y : α
  vx : α
  vy : α
  fixed : Option α × Option α

namespace Body

variable {α : Type}

/-- Whether a node is held: it is the first of the fixed coordinates that tells. -/
def pinned (body : Body α) : Bool := body.fixed.1.isSome

def position (body : Body α) : Layout.Position α := ⟨body.x, body.y, body.pinned⟩

def accelerate [Scalar α] (body : Body α) (dx dy : α) : Body α :=
  { body with vx := body.vx + dx, vy := body.vy + dy }

def decelerate [Scalar α] (body : Body α) (dx dy : α) : Body α :=
  { body with vx := body.vx - dx, vy := body.vy - dy }

end Body

variable {α : Type} [Scalar α] [Planar α]

/-! ## 2. Springs -/

def bodyOf? (bodies : List (Body α)) (id : String) : Option (Body α) :=
  bodies.reverse.find? (·.id == id)

/-- The knots of some bodies, in the order of their first ones. -/
def knots (bodies : List (Body α)) : List (Knot α) :=
  (Order.distinct (bodies.map Body.id)).filterMap fun id =>
    (bodyOf? bodies id).map fun b =>
      { id, links := b.links, x := b.x, y := b.y
        fixed := bodies.any fun b => b.id == id && b.pinned }

/-- A step that is no longer than a link. -/
def shorten (k dx dy : α) : Except Fault (α × α) :=
  let length := Planar.hypot dx dy
  if k < length then
    if Scalar.isZero length then .error .stepWithoutLength
    else .ok (dx * (k / length), dy * (k / length))
  else .ok (dx, dy)

/-- A body on its way to the place of its knot; one that is held is left alone. -/
def pullBody (k alpha : α) (places : Table (α × α)) (body : Body α) : Except Fault (Body α) :=
  if body.pinned then .ok body
  else do
    let (x, y) := (places.find? body.id).getD (body.x, body.y)
    let (dx, dy) ← shorten k (x - body.x) (y - body.y)
    return body.accelerate (dx * alpha) (dy * alpha)

/-- Bodies pulled one after the other, up to the first that cannot be pulled. -/
def pullAll (k alpha : α) (places : Table (α × α)) :
    List (Body α) → Except Fault Unit × List (Body α)
  | [] => (.ok (), [])
  | body :: rest =>
    match pullBody k alpha places body with
    | .error fault => (.error fault, body :: rest)
    | .ok body =>
      let (outcome, rest) := pullAll k alpha places rest
      (outcome, body :: rest)

/-- The velocities after the springs have acted.  Nothing acts on a node alone, or where all are
held. -/
def applySprings (settings : Settings α) (alpha : α) (bodies : List (Body α)) :
    Except Fault Unit × List (Body α) :=
  if bodies.length < 2 || bodies.all Body.pinned then (.ok (), bodies)
  else
    match settings.linkLength with
    | .error fault => (.error fault, bodies)
    | .ok k => pullAll k alpha (settings.springs k (knots bodies)) bodies

/-- Whether the springs change a velocity at all.  They do when they can pull the first body that is
not held. -/
def springsAct (settings : Settings α) (bodies : List (Body α)) : Bool :=
  decide (2 ≤ bodies.length) &&
    match settings.linkLength, bodies.find? (!·.pinned) with
    | .ok k, some body =>
      (pullBody k Scalar.zero (settings.springs k (knots bodies)) body).isOk
    | _, _ => false

/-! ## 3. Collisions -/

/-- Two nodes pushed apart when they are about to come nearer than they may. -/
def pushApart (least : α) (a b : Body α) : Body α × Body α :=
  let dx := (b.x + b.vx) - (a.x + a.vx)
  let dy := (b.y + b.vy) - (a.y + a.vy)
  let distance := Planar.hypot dx dy
  if Scalar.le least distance then (a, b)
  else
    let tiny : α := Scalar.fraction 1 1000000
    let (dx, dy, distance) :=
      if Scalar.isZero distance then (tiny, Scalar.zero, tiny) else (dx, dy, distance)
    let push := (least - distance) / distance * Scalar.fraction 1 2
    (a.decelerate (dx * push) (dy * push), b.accelerate (dx * push) (dy * push))

/-- One node pushed apart from each of some others in turn. -/
def pushFrom (least : α) (a : Body α) : List (Body α) → Body α × List (Body α)
  | [] => (a, [])
  | b :: bs =>
    let (a, b) := pushApart least a b
    let (a, bs) := pushFrom least a bs
    (a, b :: bs)

theorem length_pushFrom (least : α) (a : Body α) (bs : List (Body α)) :
    (pushFrom least a bs).2.length = bs.length := by
  induction bs generalizing a with
  | nil => rfl
  | cons b bs ih => simp [pushFrom, ih]

/-- Every node pushed apart from those behind it. -/
def applyCollisions (least : α) : List (Body α) → List (Body α)
  | [] => []
  | a :: bs =>
    (pushFrom least a bs).1 :: applyCollisions least (pushFrom least a bs).2
termination_by bodies => bodies.length
decreasing_by simp [length_pushFrom]

/-- The velocities after every two nodes were pushed apart. -/
def applyCollide (settings : Settings α) (bodies : List (Body α)) : Except Fault (List (Body α)) :=
  if bodies.length < 2 then .ok bodies
  else return applyCollisions (← settings.leastDistance) bodies

/-! ## 4. Centre and movement -/

/-- A node that the centre pulls. -/
def Body.centered (x y strength : Figure α) (alpha : α) (body : Body α) :
    Except Fault (Body α) := do
  let x ← x.quantity "-"
  let strength ← strength.quantity "*"
  let y ← y.quantity "-"
  return body.accelerate ((x - body.x) * strength * alpha) ((y - body.y) * strength * alpha)

def applyCenter (settings : Settings α) (alpha : α) (bodies : List (Body α)) :
    Except Fault (List (Body α)) := do
  let (x, y) ← settings.center
  bodies.mapM (Body.centered x y settings.centerStrength alpha)

/-- A node after its velocity has moved it; one that is held is put in its place. -/
def Body.move (settings : Settings α) (body : Body α) : Except Fault (Body α) :=
  match body.fixed with
  -- the coordinates are fixed together, so the other is there too
  | (some x, y) => .ok { body with x, y := y.getD body.y, vx := Scalar.zero, vy := Scalar.zero }
  | (none, _) => do
    let kept ← settings.velocityKept
    let vx := body.vx * kept
    let vy := body.vy * kept
    return { body with x := body.x + vx, y := body.y + vy, vx, vy }

/-- The movement of all nodes once the springs have acted. -/
def moveAll (settings : Settings α) (alpha : α) (bodies : List (Body α)) :
    Except Fault (List (Body α)) := do
  let apart ← applyCollide settings bodies
  (← applyCenter settings alpha apart).mapM (Body.move settings)

end PathAtlas.Motion
