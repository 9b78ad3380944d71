/-
# Settings of a simulation

How strongly each force acts, and where the springs pull.  All but the least heat are kept as they
were given: a setting has to be a number only where a force reckons with it, so that one which no
force ever asks for can be anything.

What the springs do is a setting too, though no document can give another one than the usual
(`springPlaces`).  So whatever is said of all settings is said of every layout by springs.

The least heat is the exception because the decay of the heat is computed from it when a simulation
is made, before any force asks for anything.  Values that a document gives are not looked at beyond
that, also not whether they have a sign that makes sense; only a key that is not known is a fault.
-/
import PathAtlas.Figure
import PathAtlas.Json.Conversion
import PathAtlas.Motion.Springs

namespace PathAtlas.Motion

/-! ## 1. Settings -/

/-- What a simulation is set to. -/
structure Settings (α : Type) where
  /-- How long a link is. -/
  linkDistance : Figure α
  /-- How near another node may come, halved. -/
  collideRadius : Figure α
  /-- The two coordinates of the centre, or why there are no two of them. -/
  center : Except Fault (Figure α × Figure α)
  centerStrength : Figure α
  /-- The heat below which a simulation has settled. -/
  alphaMin : α
  /-- The share of its velocity that a node loses with every step. -/
  velocityDecay : Figure α
  /-- Where the springs would bring every knot, given the length of a link. -/
  springs : α → List (Knot α) → Table (α × α)

namespace Settings

variable {α : Type} [Scalar α]

/-- The settings that hold when nothing else is said. -/
def standard [Planar α] : Settings α :=
  { linkDistance := .decimal (Scalar.ofInt 60)
    collideRadius := .decimal (Scalar.ofInt 18)
    center := .ok (.decimal Scalar.zero, .decimal Scalar.zero)
    centerStrength := .decimal (Scalar.fraction 5 100)
    alphaMin := Scalar.fraction 1 1000
    velocityDecay := .decimal (Scalar.fraction 4 10)
    springs := springPlaces }

/-! ## 2. Quantities -/

/-- The length of a link as a quantity; its square has to be one too. -/
def linkLength (settings : Settings α) : Except Fault α := do
  let _ ← (← settings.linkDistance.times settings.linkDistance).quantity "*"
  settings.linkDistance.quantity "*"

def leastDistance (settings : Settings α) : Except Fault α := do
  (← settings.collideRadius.plus settings.collideRadius).quantity "+"

/-- The share of its velocity that a node keeps. -/
def velocityKept (settings : Settings α) : Except Fault α := do
  (← (Figure.whole 1).minus settings.velocityDecay).quantity "-"

end Settings

/-! ## 3. Documents -/

def Settings.keys : List String :=
  ["link_distance", "collide_radius", "center", "center_strength", "alpha_min", "velocity_decay"]

/-- The two coordinates that a value consists of. -/
def centerOfJson (v : Json) : Except Fault (Figure Float × Figure Float) := do
  match ← v.elements with
  | [x, y] => return (.ofJson x, .ofJson y)
  | parts => .error (.wrongCount 2 parts.length)

/-- The settings that a document gives by their names; null gives none.  Only the least heat has to
be a number at once. -/
def Settings.ofJson (doc : Json) : Except Fault (Settings Float) := do
  for (key, _) in ← doc.entriesGiven do
    if !keys.contains key then throw (.unknownArgument key)
  let base : Settings Float := .standard
  return {
    linkDistance := .ofEntry doc "link_distance" base.linkDistance
    collideRadius := .ofEntry doc "collide_radius" base.collideRadius
    center := ((doc.get? "center").map centerOfJson).getD base.center
    centerStrength := .ofEntry doc "center_strength" base.centerStrength
    alphaMin := ← (Figure.ofEntry doc "alpha_min" (.decimal base.alphaMin)).quantity "**"
    velocityDecay := .ofEntry doc "velocity_decay" base.velocityDecay
    springs := base.springs }

end PathAtlas.Motion
