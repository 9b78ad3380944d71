/-
# Nodes in hand

A node that is held at a place (`Holds`) stands there, and that is the place which is reported of
it.  Whatever does not grip the node leaves it so (`Holds.follow`).  A drag brings it about, and the
end of a drag leaves the node where it is, pinned just when it is to be kept.

Hands can be refused for three reasons only: the simulation is over, it does not have the node, or
its heat was lost before a drag began.

The module also says what hands do to the heat of a simulation.  A call that heats it up starts
from the heat that there is, and where that is no real number any more it fails after it has set
what it aims for (`reheat_of_lost`).  A simulation whose heat and decay are real numbers keeps them
so (`Steady`), and the simulations of an atlas are of that kind, so hands on them are never refused
for the last reason.
-/
import PathAtlas.Proofs.Motion.Pins

namespace PathAtlas.Motion

open PathAtlas.Topology PathAtlas.Layout

variable {α : Type} {grips : String → Prop} {bodies bodies' : List (Body α)} {id : String}

/-! ## 1. Bodies by name -/

theorem Follow.rel_find? (h : Follow grips bodies bodies') (id : String) :
    Option.Rel (Body.Follows grips) (bodies.find? (·.id == id)) (bodies'.find? (·.id == id)) := by
  induction h with
  | nil => exact .none
  | cons hbody _ ih =>
    rw [List.find?_cons, List.find?_cons, hbody.id]
    split
    · exact .some hbody
    · exact ih

/-- A node is there before and after, or not at all. -/
theorem Follow.bodyOf?_cases (h : Follow grips bodies bodies') (id : String) :
    bodyOf? bodies id = none ∧ bodyOf? bodies' id = none ∨
      ∃ body body', bodyOf? bodies id = some body ∧ bodyOf? bodies' id = some body' ∧
        body.Follows grips body' := by
  have hrel := Follow.rel_find? (List.forall₂_reverse_iff.mpr h) id
  rw [bodyOf?, bodyOf?]
  generalize bodies.reverse.find? (·.id == id) = found at hrel
  generalize bodies'.reverse.find? (·.id == id) = found' at hrel
  cases hrel with
  | none => exact .inl ⟨rfl, rfl⟩
  | some hbody => exact .inr ⟨_, _, rfl, rfl, hbody⟩

theorem bodyOf?_cons (body : Body α) (bodies : List (Body α)) (id : String) :
    bodyOf? (body :: bodies) id
      = (bodyOf? bodies id).or (if body.id = id then some body else none) := by
  rw [bodyOf?, List.reverse_cons, List.find?_append, List.find?_singleton, bodyOf?]
  simp only [beq_iff_eq]

theorem exists_bodyOf? (h : id ∈ bodies.map Body.id) : ∃ body, bodyOf? bodies id = some body := by
  obtain ⟨body, hbody, hid⟩ := List.mem_map.mp h
  exact Option.isSome_iff_exists.mp
    (List.find?_isSome.mpr ⟨body, List.mem_reverse.mpr hbody, beq_iff_eq.mpr hid⟩)

namespace Simulation

/-- The last body of an id is the one that a change of the node changes. -/
theorem bodyOf?_modifyLast {f : Body α → Body α} (hf : ∀ b, (f b).id = b.id)
    (bodies : List (Body α)) (id : String) :
    bodyOf? (modifyLast id f bodies) id = (bodyOf? bodies id).map f := by
  induction bodies with
  | nil => rfl
  | cons b bs ih =>
    rw [modifyLast, bodyOf?_cons]
    split
    · rename_i hlast
      obtain ⟨hb, hnone⟩ := Bool.and_eq_true_iff.mp hlast
      have hrest : bodyOf? bs id = none := by
        rw [bodyOf?, List.find?_eq_none]
        intro b' hb' hid
        simp only [Bool.not_eq_true', List.any_eq_false] at hnone
        exact hnone b' (List.mem_reverse.mp hb') hid
      rw [bodyOf?_cons, hrest, hf, if_pos (of_decide_eq_true hb), if_pos (of_decide_eq_true hb)]
      rfl
    · rename_i hlast
      rw [bodyOf?_cons, ih]
      cases hbody : bodyOf? bs id with
      | some body => rfl
      | none =>
        have hother : b.id ≠ id := by
          intro hb
          refine hlast (Bool.and_eq_true_iff.mpr ⟨decide_eq_true hb, ?_⟩)
          rw [bodyOf?, List.find?_eq_none] at hbody
          simp only [Bool.not_eq_true', List.any_eq_false]
          exact fun b' hb' => hbody b' (List.mem_reverse.mpr hb')
        rw [if_neg hother]
        rfl

theorem hasNode_iff {s : Simulation α} : s.hasNode id = true ↔ id ∈ s.bodies.map Body.id := by
  rw [hasNode, List.any_eq_true, List.mem_map]
  simp only [beq_iff_eq]

/-! ## 2. Pins -/

/-- Whether a node is pinned; absent when there is no such node. -/
def pinned? (s : Simulation α) (id : String) : Option Bool := (bodyOf? s.bodies id).map Body.pinned

theorem pinned?_of_follow {s s' : Simulation α} (h : Follow grips s.bodies s'.bodies)
    (hfree : ¬ grips id) : s'.pinned? id = s.pinned? id := by
  rw [pinned?, pinned?]
  rcases h.bodyOf?_cases id with ⟨hnone, hnone'⟩ | ⟨body, body', hbody, hbody', hfollows⟩
  · rw [hnone, hnone']
  · have hfixed := hfollows.fixed (id_of_bodyOf? hbody ▸ hfree)
    rw [hbody, hbody', Option.map_some, Option.map_some, Body.pinned, Body.pinned, hfixed]

theorem mem_of_pinned? {s : Simulation α} {pin : Bool} (h : s.pinned? id = some pin) :
    id ∈ s.bodies.map Body.id := by
  obtain ⟨body, hbody, -⟩ := Option.map_eq_some_iff.mp h
  have hmem := List.mem_reverse.mp (List.mem_of_find?_eq_some hbody)
  exact id_of_bodyOf? hbody ▸ List.mem_map_of_mem hmem

/-- The pins are those of the places that are reported. -/
theorem pinned_find?_positions (s : Simulation α) (id : String) :
    (s.positions.find? id).map Position.pinned = s.pinned? id := by
  rw [find?_positions, Option.map_map]
  rfl

/-- A node is held at a place, and stands there. -/
def Holds (s : Simulation α) (id : String) (x y : α) : Prop :=
  ∃ body, bodyOf? s.bodies id = some body ∧ body.Anchored ∧ body.fixed = (some x, some y)

section Places

variable {s s' : Simulation α} {x y : α}

/-- **What does not grip a node** leaves it in hand. -/
theorem Holds.follow (h : s.Holds id x y) (hfollow : Follow grips s.bodies s'.bodies)
    (hfree : ¬ grips id) : s'.Holds id x y := by
  obtain ⟨body, hbody, hanchored, hfixed⟩ := h
  rcases hfollow.bodyOf?_cases id with ⟨hnone, -⟩ | ⟨b, body', hb, hbody', hfollows⟩
  · cases hnone.symm.trans hbody
  · cases hb.symm.trans hbody
    have hstill := hfollows.fixed (id_of_bodyOf? hbody ▸ hfree)
    exact ⟨body', hbody', hfollows.anchored hanchored, hstill.trans hfixed⟩

theorem Holds.place (h : s.Holds id x y) : s.positions.find? id = some ⟨x, y, true⟩ := by
  obtain ⟨body, hbody, hanchored, hfixed⟩ := h
  rw [find?_positions, hbody, Option.map_some, hanchored.position hfixed]

theorem Holds.hasNode (h : s.Holds id x y) : s.hasNode id = true := by
  obtain ⟨body, hbody, -⟩ := h
  have hmem := List.mem_reverse.mp (List.mem_of_find?_eq_some hbody)
  exact hasNode_iff.mpr (id_of_bodyOf? hbody ▸ List.mem_map_of_mem hmem)

/-! ## 3. Hands -/

theorem checkNode_eq_ok {u : Unit} :
    s.checkNode id = .ok u ↔ s.destroyed = false ∧ s.hasNode id = true := by
  rw [checkNode, bind_eq_ok, checkAlive]
  cases s.destroyed <;> cases s.hasNode id <;> simp

theorem dragTo_ok (halive : s.destroyed = false) (hnode : s.hasNode id = true) (x y : α) :
    ∃ s', s.dragTo id x y = .ok s' :=
  ⟨_, bind_eq_ok.mpr ⟨(), checkNode_eq_ok.mpr ⟨halive, hnode⟩, rfl⟩⟩

/-- **A drag** brings a node to a place and holds it there. -/
theorem holds_dragTo (h : s.dragTo id x y = .ok s') : s'.Holds id x y := by
  obtain ⟨_, hcheck, h⟩ := bind_eq_ok.mp h
  obtain ⟨-, hnode⟩ := checkNode_eq_ok.mp hcheck
  obtain ⟨body, hbody⟩ := exists_bodyOf? (hasNode_iff.mp hnode)
  have hmoved := bodyOf?_modifyLast (f := fun b => { b with x, y, fixed := (some x, some y) })
    (fun _ => rfl) s.bodies id
  rw [hbody, Option.map_some] at hmoved
  rw [← Except.ok.inj h]
  exact ⟨_, hmoved, .inr rfl, rfl⟩

/-- **The end of a drag** leaves the node in its place, and pinned when it is to be kept. -/
theorem dragEnd_ok [Scalar α] (halive : s.destroyed = false) (h : s.Holds id x y) (keep : Bool) :
    ∃ s', s.dragEnd id keep = .ok s' ∧ s'.positions.find? id = some ⟨x, y, keep⟩ := by
  refine ⟨_, bind_eq_ok.mpr ⟨(), checkNode_eq_ok.mpr ⟨halive, h.hasNode⟩, rfl⟩, ?_⟩
  rw [find?_positions]
  cases keep with
  | true =>
    have hplace := h.place
    rw [find?_positions] at hplace
    exact hplace
  | false =>
    obtain ⟨body, hbody, hanchored, hfixed⟩ := h
    obtain ⟨hx, hy, -⟩ := Position.mk.inj (hanchored.position hfixed)
    have hfree := bodyOf?_modifyLast (f := fun b => { b with fixed := (none, none) })
      (fun _ => rfl) s.bodies id
    show (bodyOf? (modifyLast id (fun b => { b with fixed := (none, none) }) s.bodies) id).map _ = _
    rw [hfree, hbody, Option.map_some, Option.map_some, Body.position, hx, hy]
    rfl

end Places

/-! ## 4. Heat -/

section Heating

variable [Scalar α]

/-- What is heated up for a drag. -/
def warmed (c : Cooling α) : Cooling α :=
  { c with target := dragHeat, alpha := if c.alpha < dragHeat then dragHeat else c.alpha }

theorem reheat_of_real {c : Cooling α} (h : c.lost = false) (target : α) :
    c.reheat target
      = (.ok (), { c with target, alpha := if c.alpha < target then target else c.alpha }) := by
  rw [Cooling.reheat, Cooling.heat, h]
  rfl

theorem reheat_of_lost {c : Cooling α} (h : c.lost = true) (target : α) :
    c.reheat target = (.error .heatNotReal, { c with target }) := by
  rw [Cooling.reheat, Cooling.heat, h]
  rfl

variable {s s' : Simulation α} {target : α}

/-- Heating up sets the target even when it fails, unless the simulation is over. -/
theorem cooling_heatUp (s : Simulation α) (target : α) :
    (s.heatUp target).2.cooling = s.cooling ∨
      (s.heatUp target).2.cooling = (s.cooling.reheat target).2 := by
  rcases s.heatUp_cases target with ⟨_, heq⟩ | ⟨-, -, heq | heq⟩ <;> rw [heq]
  · exact .inl rfl
  · exact .inr rfl
  · rw [spawn_eq]
    exact .inr rfl

theorem cooling_grab (s : Simulation α) (id : String) :
    (s.grab id).2.cooling = s.cooling ∨
      (s.grab id).2.cooling = (s.cooling.reheat dragHeat).2 := by
  rcases s.grab_cases id with ⟨_, heq⟩ | ⟨-, heq⟩ <;> rw [heq]
  · exact .inl rfl
  · exact (s.hold id).cooling_heatUp dragHeat

/-- Heating up succeeds only with a heat that is a real number, and sets it. -/
theorem heatUp_eq_ok (h : s.heatUp target = (.ok (), s')) :
    s.cooling.lost = false ∧ s'.cooling = (s.cooling.reheat target).2 := by
  rcases s.heatUp_cases target with ⟨fault, heq⟩ | ⟨-, houtcome, hstate⟩
  · cases heq.symm.trans h
  · rw [h] at houtcome hstate
    constructor
    · refine Bool.eq_false_iff.mpr fun hlost => ?_
      rw [reheat_of_lost hlost] at houtcome
      cases houtcome
    · rcases hstate with rfl | rfl
      · rfl
      · rw [spawn_eq]
        rfl

theorem cooling_dragStart (h : s.dragStart id = .ok s') : s'.cooling = warmed s.cooling := by
  have hgrab := dragStart_eq_ok.mp h
  rcases s.grab_cases id with ⟨fault, heq⟩ | ⟨-, heq⟩
  · cases heq.symm.trans hgrab
  · obtain ⟨hreal, hcooling⟩ := heatUp_eq_ok (heq.symm.trans hgrab)
    rw [hcooling, reheat_of_real hreal]
    rfl

theorem cooling_dragEnd {keep : Bool} (h : s.dragEnd id keep = .ok s') :
    s'.cooling = s.cooling.relax := by
  obtain ⟨_, -, h⟩ := bind_eq_ok.mp h
  rw [← Except.ok.inj h]
  cases keep <;> rfl

theorem restart_ok (halive : s.destroyed = false) (hheat : s.cooling.lost = false) :
    ∃ s', s.restart target = .ok s' := by
  have hcheck : s.checkAlive = .ok () := checkAlive_eq_ok.mpr halive
  rw [restart, heatUp, hcheck, reheat_of_real hheat]
  exact ⟨_, rfl⟩

theorem dragStart_ok (halive : s.destroyed = false) (hnode : s.hasNode id = true)
    (hheat : s.cooling.lost = false) : ∃ s', s.dragStart id = .ok s' := by
  have hcheck : s.checkNode id = .ok () := checkNode_eq_ok.mpr ⟨halive, hnode⟩
  rw [dragStart, grab, hcheck]
  exact restart_ok (s := s.hold id) halive hheat

end Heating

theorem cooling_dragTo {s s' : Simulation α} {x y : α} (h : s.dragTo id x y = .ok s') :
    s'.cooling = s.cooling := by
  obtain ⟨_, -, h⟩ := bind_eq_ok.mp h
  rw [← Except.ok.inj h]
  rfl

theorem cooling_listen {s s' : Simulation α} {event : String} (h : s.listen event = .ok s') :
    s'.cooling = s.cooling := by
  obtain ⟨_, -, h⟩ := bind_eq_ok.mp h
  obtain ⟨_, -, h⟩ := bind_eq_ok.mp h
  rw [← Except.ok.inj h]

theorem cooling_start {s s' : Simulation α} (h : s.start = .ok s') : s'.cooling = s.cooling := by
  obtain ⟨_, -, h⟩ := bind_eq_ok.mp h
  rw [← Except.ok.inj h, spawn_eq]

/-- **A step** takes the heat one step further, also when it fails. -/
theorem cooling_advance [Scalar α] [Planar α] (s : Simulation α) :
    s.advance.2.cooling = s.cooling.step := by
  have hsteps := s.stepsTo_advance
  generalize s.advance = r at hsteps
  cases hsteps <;> rfl

/-- A simulation whose heat is a real number and remains one. -/
structure Steady (s : Simulation α) : Prop where
  real : s.cooling.lost = false
  share : s.cooling.decay.isSome = true

namespace Steady

variable {s s' : Simulation α}

theorem of_cooling_eq (h : s.Steady) (hcooling : s'.cooling = s.cooling) : s'.Steady :=
  ⟨hcooling ▸ h.real, hcooling ▸ h.share⟩

variable [Scalar α]

theorem dragStart (h : s.Steady) (hs : s.dragStart id = .ok s') : s'.Steady := by
  have hcooling := cooling_dragStart hs
  exact ⟨hcooling ▸ h.real, hcooling ▸ h.share⟩

theorem dragEnd (h : s.Steady) {keep : Bool} (hs : s.dragEnd id keep = .ok s') : s'.Steady := by
  have hcooling := cooling_dragEnd hs
  exact ⟨hcooling ▸ h.real, hcooling ▸ h.share⟩

variable [Planar α]

theorem advance (h : s.Steady) : s.advance.2.Steady := by
  obtain ⟨share, hshare⟩ := Option.isSome_iff_exists.mp h.share
  have hstep : s.cooling.step.lost = s.cooling.lost ∧ s.cooling.step.decay = s.cooling.decay := by
    rw [Cooling.step, hshare]
    exact ⟨rfl, rfl⟩
  refine ⟨?_, ?_⟩
  · rw [cooling_advance, hstep.1, h.real]
  · rw [cooling_advance, hstep.2, h.share]

theorem advanceUpTo (h : s.Steady) (n : Nat) : (advanceUpTo n s).2.Steady :=
  advanceUpTo_keeps advance n h

theorem tick (h : s.Steady) : s.tick.2.Steady := tick_keeps advance h

theorem turnLoop (h : s.Steady) (i : Nat) : (s.turnLoop i).Steady :=
  turnLoop_keeps advance (fun _ h => h.of_cooling_eq rfl) h i

theorem turn (h : s.Steady) : s.turn.Steady := turn_keeps (fun i h => h.turnLoop i) h

end Steady

/-! ## 5. Beginnings -/

section Beginning

variable [Scalar α] [Planar α] (settings : Settings α) {g : Graph α} (starts : Positions α)
  (pinned : List String)

theorem bodyOf?_create (hid : id ∈ g.nodeIds) : ∃ i,
    bodyOf? (create settings g starts pinned).bodies id
      = some (startBody g starts pinned id i) := by
  obtain ⟨body, hbody⟩ := exists_bodyOf? ((ids_create settings g starts pinned).symm ▸ hid)
  obtain ⟨⟨id', i⟩, -, rfl⟩ :=
    List.mem_map.mp (List.mem_reverse.mp (List.mem_of_find?_eq_some hbody))
  have hsame : id' = id := id_of_bodyOf? hbody
  exact ⟨i, hsame ▸ hbody⟩

/-- A node is pinned at first when its start is, or when that is asked for. -/
theorem pinned?_create (hid : id ∈ g.nodeIds) :
    (create settings g starts pinned).pinned? id
      = some (pinned.contains id || (starts.find? id).any Position.pinned) := by
  obtain ⟨i, hbody⟩ := bodyOf?_create settings starts pinned hid
  rw [pinned?, hbody, Option.map_some, Body.pinned, startBody]
  dsimp only
  split
  · rename_i hfixed
    rw [hfixed]
    rfl
  · rename_i hfree
    rw [Bool.eq_false_iff.mpr hfree]
    rfl

theorem holds_create (hid : id ∈ g.nodeIds) {x y : α}
    (hstart : starts.find? id = some ⟨x, y, true⟩) :
    (create settings g starts pinned).Holds id x y := by
  obtain ⟨i, hbody⟩ := bodyOf?_create settings starts pinned hid
  refine ⟨_, hbody, anchored_startBody g starts pinned id i, ?_⟩
  rw [startBody, hstart]
  simp

end Beginning

end Simulation

end PathAtlas.Motion
