/-
# Simulations

A simulation moves the nodes of one graph step by step until it has settled.  It can be stepped
at once or by a loop in the background, nodes can be dragged meanwhile, and after its end it does
nothing any more.  It has at most one live loop: a new one begins only when the last one is over.

A step can fail, and one that fails keeps what it did before.  So do the calls that heat a
simulation up (`heatUp`, `grab`): where the heat is no real number they set the target, or hold the
node, and only then fail.

What a listener does is its own affair.  Here listeners are counted, and how often they are called
(`EventCounts`); one that calls the simulation back in the middle of a step, to drag a node or to
end it, is outside of what is said.
-/
import PathAtlas.Motion.Cooling
import PathAtlas.Motion.Force
import PathAtlas.Order
import PathAtlas.Topology.Graph

namespace PathAtlas.Motion

open PathAtlas.Topology PathAtlas.Layout

/-! ## 1. State -/

/-- The state of a background loop. -/
inductive LoopPhase where
  /-- It takes one step at every turn. -/
  | live
  /-- It ends at the next turn without a step. -/
  | cancelling
  /-- It stopped because the simulation had settled. -/
  | finished
  /-- It was stopped from outside. -/
  | cancelled
  /-- It ended with a step that failed. -/
  | failed (fault : Fault)
  deriving Repr, DecidableEq

def LoopPhase.isOver : LoopPhase → Bool
  | live | cancelling => false
  | finished | cancelled | failed _ => true

/-- What a simulation tells its listeners. -/
inductive Event where
  | tick
  | settle
  deriving Repr, DecidableEq

def Event.parse : String → Except Fault Event
  | "tick" => .ok .tick
  | "end" => .ok .settle
  | name => .error (.unknownEvent name)

/-- A number for each event. -/
structure EventCounts where
  tick : Nat := 0
  settle : Nat := 0
  deriving Repr, DecidableEq

structure Simulation (α : Type) where
  settings : Settings α
  bodies : List (Body α)
  cooling : Cooling α
  ticks : Nat := 0
  destroyed : Bool := false
  /-- How many listeners each event has. -/
  listeners : EventCounts := {}
  /-- How many calls each event has caused. -/
  heard : EventCounts := {}
  /-- All loops so far, the first one first. -/
  loops : List LoopPhase := []
  /-- The loop that belongs to the simulation, by its place. -/
  current : Option Nat := none
  /-- Whether a loop was asked for, so that heating up begins a new one. -/
  looping : Bool := false
  /-- Whether springs have acted with a heat that is no real number, which makes velocities that
  are none either. -/
  unreal : Bool := false

/-! ## 2. Beginning -/

section Beginning

variable {α : Type} [Scalar α] [Planar α]

def goldenAngle : α := Planar.pi * (Scalar.ofInt 3 - Planar.sqrt (Scalar.ofInt 5))

/-- The `i`-th point of the starting spiral. -/
def spiralPoint (i : Nat) : α × α :=
  let r : α := Scalar.ofInt 10 * Planar.sqrt (Scalar.fraction 1 2 + Scalar.ofNat i)
  let angle : α := Scalar.ofNat i * goldenAngle
  (r * Planar.cos angle, r * Planar.sin angle)

/-- Whether an edge joins two different nodes, in either direction. -/
def joined (g : Graph α) (a b : String) : Bool :=
  a != b && g.edges.any fun e =>
    (e.source == a && e.target == b) || (e.source == b && e.target == a)

/-- A node at the beginning: at the place it is given, or on the spiral. -/
def startBody (g : Graph α) (starts : Positions α) (pinned : List String) (id : String) (i : Nat) :
    Body α :=
  let start := starts.find? id
  let (x, y) := (start.map fun p => (p.x, p.y)).getD (spiralPoint i)
  { id, links := (Order.distinct g.nodeIds).map (joined g id), x, y
    vx := Scalar.zero, vy := Scalar.zero
    fixed :=
      if pinned.contains id || start.any Position.pinned then (some x, some y) else (none, none) }

def Simulation.create (settings : Settings α) (g : Graph α) (starts : Positions α)
    (pinned : List String) : Simulation α :=
  { settings
    bodies := g.nodeIds.zipIdx.map fun (id, i) => startBody g starts pinned id i
    cooling := .start settings.alphaMin }

end Beginning

namespace Simulation

variable {α : Type}

/-! ## 3. Looking -/

/-- Where the nodes are; of several bodies of one id the last one counts. -/
def positions (s : Simulation α) : Positions α :=
  (Order.distinct (s.bodies.map Body.id)).filterMap fun id =>
    (bodyOf? s.bodies id).map fun b => (id, b.position)

def hasNode (s : Simulation α) (id : String) : Bool := s.bodies.any (·.id == id)

/-- Whether the simulation has come to rest. -/
def settled [Scalar α] (s : Simulation α) : Bool := s.cooling.settled

def running (s : Simulation α) : Bool :=
  (s.current.bind fun i => s.loops[i]?).any fun phase => !phase.isOver

/-- Nothing may be done with a simulation after its end. -/
def checkAlive (s : Simulation α) : Except Fault Unit :=
  if s.destroyed then .error .simulationDestroyed else .ok ()

/-! ## 4. Stepping -/

section Stepping

variable [Scalar α] [Planar α]

/-- A step is counted, and told. -/
def count (s : Simulation α) (bodies : List (Body α)) : Simulation α :=
  { s with
    bodies
    ticks := s.ticks + 1
    heard := { s.heard with tick := s.heard.tick + s.listeners.tick } }

def tellEnd (s : Simulation α) : Simulation α :=
  { s with heard := { s.heard with settle := s.heard.settle + s.listeners.settle } }

/-- A step after the springs, with a heat that is no real number.  When the springs have passed it
on, no distance can be told any more.  Otherwise there is one node at most, or all are held, and the
step goes on up to the question whether the simulation has settled.  The place of a node that is not
held is no real one then, and is left as it was. -/
def stall (s : Simulation α) : Except Fault Bool × Simulation α :=
  if s.unreal then (s.settings.leastDistance.bind fun _ => .error .heatNotReal, s)
  else
    match moveAll s.settings s.cooling.alpha s.bodies with
    | .error fault => (.error fault, s)
    | .ok moved =>
      (.error .heatNotReal, s.count (if s.bodies.all Body.pinned then moved else s.bodies))

/-- One step, and whether the simulation goes on.  Of a step that fails the cooling remains, and
what the springs did until one of them failed. -/
def advance (s : Simulation α) : Except Fault Bool × Simulation α :=
  let cooling := s.cooling.step
  let unreal := s.unreal || (cooling.lost && springsAct s.settings s.bodies)
  match applySprings s.settings cooling.alpha s.bodies with
  | (.error fault, bodies) => (.error fault, { s with cooling, bodies, unreal })
  | (.ok (), bodies) =>
    if cooling.lost then ({ s with cooling, unreal } : Simulation α).stall
    else
      match moveAll s.settings cooling.alpha bodies with
      | .error fault => (.error fault, { s with cooling })
      | .ok bodies =>
        let counted := ({ s with cooling } : Simulation α).count bodies
        if cooling.settled then (.ok false, counted.tellEnd) else (.ok true, counted)

/-- So many steps at most; the last one is the one that settles or fails. -/
def advanceUpTo : Nat → Simulation α → Except Fault Unit × Simulation α
  | 0, s => (.ok (), s)
  | n + 1, s =>
    match s.advance with
    | (.ok true, s) => advanceUpTo n s
    | (.ok false, s) => (.ok (), s)
    | (.error fault, s) => (.error fault, s)

/-- Steps until the simulation settles or one of them fails, however many that takes.  A simulation
that does neither comes to no outcome. -/
def runOut (s : Simulation α) : Option (Except Fault Unit × Simulation α) :=
  match s.advance with
  -- by `apply`, so that the term does not record where in a file the call stands
  | (.ok true, s) => by apply runOut; exact s
  | (.ok false, s) => some (.ok (), s)
  | (.error fault, s) => some (.error fault, s)
partial_fixpoint

/-- One step from outside. -/
def tick (s : Simulation α) : Except Fault Bool × Simulation α :=
  match s.checkAlive with
  | .error fault => (.error fault, s)
  | .ok () => s.advance

/-- Steps until the simulation settles, or so many of them at most.  Without a limit nothing can
follow on a run that never ends, so it does not matter what is left behind by it. -/
def run (s : Simulation α) (limit : Option Int) : Except Fault Unit × Simulation α :=
  match s.checkAlive with
  | .error fault => (.error fault, s)
  | .ok () =>
    match limit with
    | some n => advanceUpTo n.toNat s
    | none => s.runOut.getD (.ok (), s)

end Stepping

/-! ## 5. Listeners -/

def listen (s : Simulation α) (name : String) : Except Fault (Simulation α) := do
  s.checkAlive
  let listeners :=
    match ← Event.parse name with
    | .tick => { s.listeners with tick := s.listeners.tick + 1 }
    | .settle => { s.listeners with settle := s.listeners.settle + 1 }
  return { s with listeners }

/-! ## 6. Loops -/

/-- Begins a loop unless there is one. -/
def spawn (s : Simulation α) : Simulation α :=
  if s.running then s
  else { s with loops := s.loops ++ [.live], current := some s.loops.length }

/-- Asks for a loop. -/
def start (s : Simulation α) : Except Fault (Simulation α) := do
  s.checkAlive
  return ({ s with looping := true } : Simulation α).spawn

/-- Heats the simulation up; its loop begins anew when one was asked for. -/
def heatUp [Scalar α] (s : Simulation α) (target : α) : Except Fault Unit × Simulation α :=
  match s.checkAlive with
  | .error fault => (.error fault, s)
  | .ok () =>
    match s.cooling.reheat target with
    | (.error fault, cooling) => (.error fault, { s with cooling })
    | (.ok (), cooling) =>
      let heated := { s with cooling }
      (.ok (), if heated.looping then heated.spawn else heated)

/-- The simulation that was heated up, unless that failed. -/
def restart [Scalar α] (s : Simulation α) (target : α) : Except Fault (Simulation α) :=
  (s.heatUp target).1.map fun _ => (s.heatUp target).2

/-- The heat that dragging keeps up. -/
def dragHeat [Scalar α] : α := Scalar.fraction 3 10

/-- Ends the simulation; its loop is stopped and its listeners hear nothing any more. -/
def destroy (s : Simulation α) : Simulation α :=
  if s.destroyed then s
  else
    { s with
      destroyed := true
      loops := s.loops.map fun phase => if phase = .live then .cancelling else phase
      current := none
      listeners := {} }

section Turns

variable [Scalar α] [Planar α]

/-- One turn of one loop. -/
def turnLoop (s : Simulation α) (i : Nat) : Simulation α :=
  match s.loops[i]? with
  | some .live =>
    match s.advance with
    | (.ok true, s) => s
    | (.ok false, s) => { s with loops := s.loops.set i .finished }
    | (.error fault, s) => { s with loops := s.loops.set i (.failed fault) }
  | some .cancelling => { s with loops := s.loops.set i .cancelled }
  | _ => s

def turn (s : Simulation α) : Simulation α := (List.range s.loops.length).foldl turnLoop s

def turns : Nat → Simulation α → Simulation α
  | 0, s => s
  | n + 1, s => turns n s.turn

def turnUntilOver (i : Nat) : Nat → Simulation α → Simulation α
  | 0, s => s
  | n + 1, s =>
    if (s.loops[i]?).any fun phase => !phase.isOver then turnUntilOver i n s.turn else s

/-- More turns than any cooling down takes. -/
def patience : Nat := 10000000

/-- Waits for a loop, and tells how it ended. -/
def await (s : Simulation α) (i : Nat) : Option LoopPhase × Simulation α :=
  let s := turnUntilOver i patience s
  (s.loops[i]?, s)

end Turns

/-! ## 7. Dragging -/

def modifyLast (id : String) (f : Body α → Body α) : List (Body α) → List (Body α)
  | [] => []
  | b :: bs =>
    if b.id = id && !bs.any (·.id == id) then f b :: bs else b :: modifyLast id f bs

def modifyBody (s : Simulation α) (id : String) (f : Body α → Body α) : Simulation α :=
  { s with bodies := modifyLast id f s.bodies }

/-- The node has to take part, and the simulation to go on. -/
def checkNode (s : Simulation α) (id : String) : Except Fault Unit := do
  s.checkAlive
  if s.hasNode id then .ok () else .error (.unknownNode id)

def hold (s : Simulation α) (id : String) : Simulation α :=
  s.modifyBody id fun b => { b with fixed := (some b.x, some b.y) }

/-- Holds a node where it is, and heats up. -/
def grab [Scalar α] (s : Simulation α) (id : String) : Except Fault Unit × Simulation α :=
  match s.checkNode id with
  | .error fault => (.error fault, s)
  | .ok () => (s.hold id).heatUp dragHeat

/-- The simulation with a node in hand, unless taking it failed. -/
def dragStart [Scalar α] (s : Simulation α) (id : String) : Except Fault (Simulation α) :=
  (s.grab id).1.map fun _ => (s.grab id).2

def dragTo (s : Simulation α) (id : String) (x y : α) : Except Fault (Simulation α) := do
  s.checkNode id
  return s.modifyBody id fun b => { b with x, y, fixed := (some x, some y) }

/-- Lets a node go unless it is to be kept, and cools down. -/
def dragEnd [Scalar α] (s : Simulation α) (id : String) (keep : Bool) :
    Except Fault (Simulation α) := do
  s.checkNode id
  let s := if keep then s else s.modifyBody id fun b => { b with fixed := (none, none) }
  return { s with cooling := s.cooling.relax }

end Simulation

end PathAtlas.Motion
