/-
# The atlas

An atlas holds the current window of traces, the graph built from it, and the layout of the graph.
Each refresh replaces graph and layout as a whole.  In force mode the layout belongs to a live
simulation; a simulation that is replaced is ended first and kept only as a memory.

Operations that can fail come in two forms.  Where a fault leaves the atlas as it was, the whole
answer is in `Except`.  Where something has changed by then, the outcome and the atlas are a pair:
a refresh counts even when its window has no graph, and a step of a simulation that fails may have
counted as well.

The generation of an atlas counts its refreshes, and a live simulation remembers the one it was
made in.  Its moves reach the positions of the atlas only while the two agree (`follow`), which is
what a listener to its steps does.  Dragged nodes are kept in `dragging` beside the simulation's
own record of them; that the two can part is a result and no oversight of this module.
-/
import PathAtlas.Highlight
import PathAtlas.Layout.Layered
import PathAtlas.Layout.Mode
import PathAtlas.Motion.Simulation
import PathAtlas.Route.Signature
import PathAtlas.Topology.Build

namespace PathAtlas

open PathAtlas.Topology PathAtlas.Layout PathAtlas.Motion

/-! ## 1. State -/

/-- The simulation of an atlas, with the generation of the graph that it was made for. -/
structure LiveSimulation (α : Type) where
  simulation : Simulation α
  generation : Nat

/-- A window of traces with its graph and layout. -/
structure Atlas (α : Type) where
  limits : Thresholds α
  mode : Mode
  layerGap : α
  nodeGap : α
  /-- Whether agents and destinations are held in place in force mode. -/
  pinEndpoints : Bool
  /-- How many steps a new force layout takes at most. -/
  iterations : Int
  graph : Option (Graph α) := none
  traces : List (Trace α) := []
  positions : Positions α := []
  live : Option (LiveSimulation α) := none
  /-- The simulations that were replaced, the first one first. -/
  retired : List (Simulation α) := []
  selected : Option String := none
  /-- How often a selection was made. -/
  selections : Nat := 0
  /-- Counts the refreshes. -/
  generation : Nat := 0
  /-- The nodes that are being dragged in a simulation, in order. -/
  dragging : List String := []

namespace Atlas

variable {α : Type}

def simulation? (a : Atlas α) : Option (Simulation α) := a.live.map LiveSimulation.simulation

def hasNode (a : Atlas α) (id : String) : Bool := a.graph.any (·.contains id)

/-- Whether a node is an agent or a destination. -/
def isEndpoint (a : Atlas α) (id : String) : Bool :=
  (a.graph.bind (·.node? id)).any fun node => node.role.isEndpoint

/-! ## 2. Simulations -/

/-- Ends the live simulation. -/
def retire (a : Atlas α) : Atlas α :=
  match a.live with
  | none => a
  | some l => { a with live := none, retired := a.retired ++ [l.simulation.destroy] }

def close (a : Atlas α) : Atlas α := { a.retire with dragging := [] }

/-- Puts the simulation in place of the one before it.  When it has moved, the positions follow,
unless it was made for an earlier graph. -/
def follow (a : Atlas α) (l : LiveSimulation α) (moved : Simulation α) : Atlas α :=
  let a := { a with live := some { l with simulation := moved } }
  if moved.ticks ≠ l.simulation.ticks ∧ l.generation = a.generation then
    { a with positions := moved.positions }
  else a

/-! ## 3. Layout -/

section Laying

variable [Scalar α] [Planar α]

/-- Where a node starts in force mode.  Endpoints are held in place when that is asked for; other
nodes are held when they were held before. -/
def startPosition (a : Atlas α) (previous layered : Positions α) (node : Node α) : Position α :=
  let origin : Position α := ⟨Scalar.zero, Scalar.zero, false⟩
  let place := (previous.find? node.id).getD ((layered.find? node.id).getD origin)
  if a.pinEndpoints && node.role.isEndpoint then place
  else { place with pinned := (previous.find? node.id).any Position.pinned }

/-- The nodes that are held in place from the start. -/
def heldNodes (a : Atlas α) (g : Graph α) : List String :=
  if a.pinEndpoints then (g.nodes.filter fun n => n.role.isEndpoint).map Node.id else []

/-- A new simulation of a graph, run for its first steps.  With the standard settings none fails. -/
def newSimulation (a : Atlas α) (g : Graph α) (previous layered : Positions α) : Simulation α :=
  let starts := g.nodes.map fun n => (n.id, a.startPosition previous layered n)
  let created := Simulation.create .standard g starts (a.heldNodes g)
  ({ created with listeners := { tick := 1 } } : Simulation α).advanceUpTo a.iterations.toNat |>.2

/-- Lays the graph out anew.  Positions of nodes are kept only when that is asked for. -/
def relayout (a : Atlas α) (keep : Bool) : Atlas α :=
  match a.graph with
  | none => { a with positions := [] }
  | some g =>
    let previous := if keep then a.positions else []
    let layered := Layout.layered a.layerGap a.nodeGap g
    let a := a.retire
    match a.mode with
    | .hierarchical =>
      { a with positions := layered.map fun (id, p) => (id, (previous.find? id).getD p) }
    | .force =>
      let s := a.newSimulation g previous layered
      { a with live := some ⟨s, a.generation⟩, positions := s.positions }

/-- Lays the graph out in a mode.  A new mode keeps no positions. -/
def layoutIn (a : Atlas α) (mode : Mode) (keep : Bool) : Atlas α :=
  ({ a with mode } : Atlas α).relayout (keep && mode == a.mode)

/-- Lays the graph out, in another mode when one is named. -/
def layout (a : Atlas α) (mode : Option Json) (keep : Bool) : Except Fault (Atlas α) :=
  match mode with
  | none => .ok (a.relayout keep)
  | some value => (Mode.parse value).map fun mode => a.layoutIn mode keep

/-! ## 4. Refresh -/

def sameNodes (g h : Graph α) : Bool := Order.textSet g.nodeIds == Order.textSet h.nodeIds

/-- Takes in a graph that was built from a window. -/
def adopt (a : Atlas α) (window : List (Trace α)) (g : Graph α) : Atlas α :=
  let stable := a.graph.any (sameNodes g)
  ({ a.close with traces := window, graph := some g } : Atlas α).relayout stable

/-- Replaces the graph by that of another window of traces.  The refresh counts even when it
fails. -/
def refresh (a : Atlas α) (generatedAt : α) (traces : List (Trace α)) :
    Except Fault (Graph α) × Atlas α :=
  let a := { a with generation := a.generation + 1 }
  let window := Trace.sortByTime (traces.filter Trace.hasHops)
  match Graph.ofTraces a.limits generatedAt window with
  | .error fault => (.error fault, a)
  | .ok g => (.ok g, a.adopt window g)

/-! ## 5. Time -/

/-- Lets the live simulation go on in the background; false when there is none. -/
def startSimulation (a : Atlas α) : Except Fault (Bool × Atlas α) :=
  match a.live with
  | none => .ok (false, a)
  | some l => do
    let s ← l.simulation.start
    return (true, { a with live := some { l with simulation := s } })

/-- One step of the live simulation; absent when there is none. -/
def tick (a : Atlas α) : Except Fault (Option Bool) × Atlas α :=
  match a.live with
  | none => (.ok none, a)
  | some l =>
    let (outcome, s) := l.simulation.tick
    (outcome.map some, a.follow l s)

/-- One step of a simulation by its number; the live one has the last number. -/
def tickNumber (a : Atlas α) (n : Nat) : Except Fault (Option Bool) × Atlas α :=
  match a.retired[n]? with
  | none => if n = a.retired.length then a.tick else (.ok none, a)
  | some s =>
    let (outcome, s) := s.tick
    (outcome.map some, { a with retired := a.retired.set n s })

def turn (a : Atlas α) : Atlas α :=
  let a := { a with retired := a.retired.map Simulation.turn }
  match a.live with
  | none => a
  | some l => a.follow l l.simulation.turn

def turns : Nat → Atlas α → Atlas α
  | 0, a => a
  | n + 1, a => turns n a.turn

end Laying

/-! ## 6. Selection -/

/-- What is shown of a selected node. -/
structure Selection (α : Type) where
  node : Option (Node α)
  position : Option (Position α)
  highlight : Highlight

/-- Selects a node, or none.  An unknown one is kept as the selection too. -/
def select (a : Atlas α) (id : Option String) : Selection α × Atlas α :=
  let a := { a with selected := id, selections := a.selections + 1 }
  let wanted := id.bind fun i => if i = "" then none else some i
  match a.graph, wanted with
  | some g, some i =>
    match g.node? i with
    | some node => (⟨some node, a.positions.find? i, .ofNode g i⟩, a)
    | none => (⟨none, none, { node := id }⟩, a)
  | _, _ => (⟨none, none, { node := id }⟩, a)

def highlight (a : Atlas α) : Highlight :=
  match a.graph, a.selected with
  | some g, some id => .ofNode g id
  | _, _ => { node := none }

/-! ## 7. Dragging -/

section Dragging

variable [Scalar α]

/-- Drags a node to a place and holds it there; absent when there is no such node. -/
def drag (a : Atlas α) (id : String) (x y : α) : Except Fault (Option (Position α) × Atlas α) :=
  if !a.hasNode id then .ok (none, a)
  else
    match a.live with
    | none =>
      let positions := a.positions.set id ⟨x, y, true⟩
      .ok (positions.find? id, { a with positions })
    | some l => do
      let s ← if a.dragging.contains id then pure l.simulation else l.simulation.dragStart id
      let s ← s.dragTo id x y
      let a :=
        { a with
          live := some { l with simulation := s }
          dragging := Order.insertText id a.dragging
          positions := s.positions }
      return (a.positions.find? id, a)

/-- Ends a drag.  In force mode the node is let go, unless it is an endpoint that is held. -/
def release (a : Atlas α) (id : String) : Except Fault (Option (Position α) × Atlas α) :=
  if !a.hasNode id then .ok (none, a)
  else
    let a := { a with dragging := a.dragging.filter (· ≠ id) }
    match a.live with
    | none => .ok (a.positions.find? id, a)
    | some l => do
      let s ← l.simulation.dragEnd id (a.pinEndpoints && a.isEndpoint id)
      let a := { a with live := some { l with simulation := s }, positions := s.positions }
      return (a.positions.find? id, a)

end Dragging

end Atlas

end PathAtlas
