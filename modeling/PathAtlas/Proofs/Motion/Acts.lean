/-
# What can be done with a simulation

An act (`Act`) is any call of a simulation, and anything that an event loop does with the loops in
its background.  Every act comes to an outcome and leaves a simulation behind, also when it fails:
a step keeps what it did before it failed, and so do the two calls that heat a simulation up.  Any
other call that fails has done nothing.  So acts can follow one another in any order and whatever
becomes of each (`after`), and what every act keeps is kept throughout (`after_keeps`).
-/
import PathAtlas.Motion.Simulation
import PathAtlas.Proofs.Outcome

namespace PathAtlas.Motion

variable {α : Type}

/-! ## 1. Acts -/

/-- What is done with a simulation, or what an event loop does with its loops. -/
inductive Act (α : Type) where
  | tick
  | run (limit : Option Int)
  | listen (event : String)
  | start
  | restart (target : α)
  | dragStart (id : String)
  | dragTo (id : String) (x y : α)
  | dragEnd (id : String) (keep : Bool)
  | destroy
  /-- A step of the event loop that comes to one background loop, by its place. -/
  | resume (loop : Nat)
  /-- A step of the event loop that comes to all of them. -/
  | turn

namespace Act

/-- The act is a call that changes a simulation which goes on. -/
def IsCall : Act α → Prop
  | destroy | resume _ | turn => False
  | _ => True

/-- The act takes hold of a node, moves it or lets it go. -/
def Grips : Act α → String → Prop
  | dragStart gripped, id | dragTo gripped _ _, id | dragEnd gripped _, id => gripped = id
  | _, _ => False

end Act

/-! ## 2. Outcomes -/

namespace Simulation

/-- The outcome of a call that changes nothing when it fails. -/
def orSame (s : Simulation α) : Except Fault (Simulation α) → Except Fault Unit × Simulation α
  | .ok s' => (.ok (), s')
  | .error fault => (.error fault, s)

theorem orSame_keeps {P : Simulation α → Prop} {s : Simulation α}
    {r : Except Fault (Simulation α)} (hs : P s) (hr : ∀ s', r = .ok s' → P s') :
    P (s.orSame r).2 := by
  cases r with
  | ok s' => exact hr s' rfl
  | error fault => exact hs

end Simulation

section Acting

variable [Scalar α] [Planar α]

/-- What an act comes to, and the simulation after it. -/
def Act.perform : Act α → Simulation α → Except Fault Unit × Simulation α
  | tick, s => (s.tick.1.map fun _ => (), s.tick.2)
  | run limit, s => s.run limit
  | listen event, s => s.orSame (s.listen event)
  | start, s => s.orSame s.start
  | restart target, s => s.heatUp target
  | dragStart id, s => s.grab id
  | dragTo id x y, s => s.orSame (s.dragTo id x y)
  | dragEnd id keep, s => s.orSame (s.dragEnd id keep)
  | destroy, s => (.ok (), s.destroy)
  | resume loop, s => (.ok (), s.turnLoop loop)
  | turn, s => (.ok (), s.turn)

namespace Simulation

/-- The simulation after some acts, whether they fail or not. -/
def after (acts : List (Act α)) (s : Simulation α) : Simulation α :=
  acts.foldl (fun s act => (act.perform s).2) s

/-- **What every act keeps** is kept throughout. -/
theorem after_keeps {P : Simulation α → Prop}
    (hperform : ∀ {s : Simulation α} (act : Act α), P s → P (act.perform s).2)
    {s : Simulation α} (h : P s) (acts : List (Act α)) : P (after acts s) := by
  induction acts generalizing s with
  | nil => exact h
  | cons act acts ih => exact ih (hperform act h)

end Simulation

end Acting

end PathAtlas.Motion
