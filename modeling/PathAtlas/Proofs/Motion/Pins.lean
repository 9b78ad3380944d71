/-
# What holds a node

A node that is held has both coordinates fixed, and stands where they are; one that is not has none
(`Body.Anchored`).  So it is from the beginning on and whatever is done.  Forces act on velocities
alone; the movement at the end of a step puts every node that is held back in its place and moves
only the others (`Anchored.move`); and hands that drag a node move it and its pin together.  What
a body is after an act `Follows` from what it was before: the same node, anchored if it was, and
fixed as before unless the act had that very node in its grip.

The main result `held_nodes_rest` is about all settings, all graphs and starts and any acts from
the beginning on, in whichever order, also acts that fail.  The springs are a setting there like
others: what they do reaches a body through its velocity only.
-/
import PathAtlas.Proofs.Motion.Acts
import PathAtlas.Proofs.Motion.Steps

namespace PathAtlas.Motion

open PathAtlas.Topology PathAtlas.Layout

variable {α : Type}

/-! ## 1. Bodies -/

/-- A body that is fixed in both coordinates and stands there, or in none. -/
def Body.Anchored (body : Body α) : Prop :=
  body.fixed = (none, none) ∨ body.fixed = (some body.x, some body.y)

/-- One body before and after something that grips some nodes. -/
structure Body.Follows (grips : String → Prop) (body body' : Body α) : Prop where
  id : body'.id = body.id
  anchored : body.Anchored → body'.Anchored
  fixed : ¬ grips body.id → body'.fixed = body.fixed

namespace Body

variable {grips : String → Prop} {body body' body'' : Body α}

theorem Follows.refl (body : Body α) : Follows grips body body := ⟨rfl, fun h => h, fun _ => rfl⟩

theorem Follows.trans (h : Follows grips body body') (h' : Follows grips body' body'') :
    Follows grips body body'' := by
  refine ⟨h'.id.trans h.id, h'.anchored ∘ h.anchored, fun hfree => ?_⟩
  exact (h'.fixed (h.id ▸ hfree)).trans (h.fixed hfree)

theorem pinned_of_fixed {x y : α} (h : body.fixed = (some x, some y)) : body.pinned = true := by
  rw [pinned, h]
  rfl

/-- Both coordinates are fixed when one is, where the body stands. -/
theorem Anchored.fixed_of_pinned (h : body.Anchored) (hpinned : body.pinned = true) :
    body.fixed = (some body.x, some body.y) := by
  rcases h with hfree | hfixed
  · rw [pinned, hfree] at hpinned
    cases hpinned
  · exact hfixed

theorem Anchored.position (h : body.Anchored) {x y : α} (hfixed : body.fixed = (some x, some y)) :
    body.position = ⟨x, y, true⟩ := by
  have hpinned := pinned_of_fixed hfixed
  have hplace := (h.fixed_of_pinned hpinned).symm.trans hfixed
  obtain ⟨hx, hy⟩ := Prod.mk.inj hplace
  rw [Body.position, Option.some.inj hx, Option.some.inj hy, hpinned]

theorem follows_of_atRest [Scalar α] (h : body'.atRest = body.atRest) :
    Follows grips body body' := by
  obtain ⟨hid, -, hx, hy, -, -, hfixed⟩ := Body.mk.inj h
  refine ⟨hid, fun hanchored => ?_, fun _ => hfixed⟩
  rw [Anchored, hx, hy, hfixed]
  exact hanchored

end Body

/-- Many bodies before and after something. -/
abbrev Follow (grips : String → Prop) : List (Body α) → List (Body α) → Prop :=
  List.Forall₂ (Body.Follows grips)

section Lists

variable {grips : String → Prop} {bodies bodies' bodies'' : List (Body α)}

theorem Follow.refl (bodies : List (Body α)) : Follow grips bodies bodies :=
  List.forall₂_same.mpr fun body _ => .refl body

theorem Follow.of_eq (h : bodies' = bodies) : Follow grips bodies bodies' := by
  rw [h]
  exact .refl bodies

theorem Follow.trans (h : Follow grips bodies bodies') (h' : Follow grips bodies' bodies'') :
    Follow grips bodies bodies'' := by
  induction h generalizing bodies'' with
  | nil => exact h'
  | cons hbody _ ih =>
    obtain ⟨body'', rest, hbody', hrest, rfl⟩ := List.forall₂_cons_left_iff.mp h'
    exact .cons (hbody.trans hbody') (ih hrest)

theorem Follow.map_id (h : Follow grips bodies bodies') :
    bodies'.map Body.id = bodies.map Body.id := by
  induction h with
  | nil => rfl
  | cons hbody _ ih => rw [List.map_cons, List.map_cons, hbody.id, ih]

theorem Follow.anchored (h : Follow grips bodies bodies')
    (hanchored : ∀ body ∈ bodies, body.Anchored) : ∀ body' ∈ bodies', body'.Anchored := by
  induction h with
  | nil => exact fun _ h => nomatch h
  | cons hbody _ ih =>
    obtain ⟨hfirst, hrest⟩ := List.forall_mem_cons.mp hanchored
    exact List.forall_mem_cons.mpr ⟨hbody.anchored hfirst, ih hrest⟩

theorem follow_of_map_atRest [Scalar α] (h : bodies'.map Body.atRest = bodies.map Body.atRest) :
    Follow grips bodies bodies' := by
  have heq : List.Forall₂ (· = ·) (bodies.map Body.atRest) (bodies'.map Body.atRest) :=
    List.forall₂_eq_eq_eq ▸ h.symm
  have hrest := List.forall₂_map_right_iff.mp (List.forall₂_map_left_iff.mp heq)
  exact hrest.imp fun body body' hbody => Body.follows_of_atRest hbody.symm

end Lists

/-! ## 2. Movement -/

section Moving

variable [Scalar α] {grips : String → Prop} {settings : Settings α} {alpha : α}

theorem fixed_move {body body' : Body α} (h : body.move settings = .ok body') :
    body'.fixed = body.fixed := by
  rw [Body.move] at h
  split at h
  · rw [← Except.ok.inj h]
  · obtain ⟨kept, -, h⟩ := bind_eq_ok.mp h
    rw [← Except.ok.inj h]

/-- **Movement** puts a node that is held in its place. -/
theorem Body.Anchored.move {body body' : Body α} (h : body.Anchored)
    (hmove : body.move settings = .ok body') : body'.Anchored := by
  rcases h with hfree | hfixed
  · exact .inl ((fixed_move hmove).trans hfree)
  · rw [Body.move, hfixed] at hmove
    rw [← Except.ok.inj hmove]
    exact .inr rfl

theorem follow_moveAll [Planar α] {bodies moved : List (Body α)}
    (h : moveAll settings alpha bodies = .ok moved) : Follow grips bodies moved := by
  obtain ⟨apart, hapart, h⟩ := bind_eq_ok.mp h
  obtain ⟨drawn, hdrawn, h⟩ := bind_eq_ok.mp h
  have hforced : Follow grips bodies drawn := follow_of_map_atRest
    ((map_atRest_applyCenter hdrawn).trans (map_atRest_applyCollide hapart))
  have hmoved : Follow grips drawn moved := (mapM_eq_ok.mp h).imp fun body body' hbody =>
    ⟨id_move hbody, fun hanchored => hanchored.move hbody, fun _ => fixed_move hbody⟩
  exact hforced.trans hmoved

end Moving

namespace Simulation

/-! ## 3. Places by name -/

theorem id_of_bodyOf? {bodies : List (Body α)} {id : String} {body : Body α}
    (h : bodyOf? bodies id = some body) : body.id = id := by
  have hid := List.find?_some (p := fun body : Body α => body.id == id) h
  exact eq_of_beq hid

/-- The place of a node is that of the body which its id means. -/
theorem find?_positions (s : Simulation α) (id : String) :
    s.positions.find? id = (bodyOf? s.bodies id).map Body.position := by
  have hplace : ∀ id, ((bodyOf? s.bodies id).map fun b => (id, b.position))
      = ((bodyOf? s.bodies id).map Body.position).map fun p => (id, p) := fun id => by
    rw [Option.map_map]
    rfl
  rw [positions, funext hplace, Table.find?_filterMap fun id =>
    (bodyOf? s.bodies id).map Body.position]
  split
  · rfl
  · rename_i hid
    cases hbody : bodyOf? s.bodies id with
    | none => rfl
    | some body =>
      have hmem := List.mem_reverse.mp (List.mem_of_find?_eq_some hbody)
      exact absurd (Order.mem_distinct.mpr (id_of_bodyOf? hbody ▸ List.mem_map_of_mem hmem)) hid

/-! ## 4. Time -/

section Time

variable [Scalar α] [Planar α] {grips : String → Prop}

/-- **A step** leaves every node anchored and fixed as before. -/
theorem follow_advance (s : Simulation α) : Follow grips s.bodies s.advance.2.bodies := by
  have hmoved {bodies : List (Body α)} (h : Moved s bodies) : Follow grips s.bodies bodies := by
    obtain ⟨sprung, hsprung, hmoved | rfl⟩ := h
    · exact (follow_of_map_atRest hsprung).trans (follow_moveAll hmoved)
    · exact follow_of_map_atRest hsprung
  have hsteps := s.stepsTo_advance
  generalize s.advance = r at hsteps
  cases hsteps with
  | fails rests => exact follow_of_map_atRest rests
  | stalls _ moved | goesOn _ moved | settles _ moved => exact hmoved moved

theorem follow_turnLoop (s : Simulation α) (i : Nat) :
    Follow grips s.bodies (s.turnLoop i).bodies :=
  turnLoop_keeps (P := fun s' => Follow grips s.bodies s'.bodies)
    (fun h => h.trans (follow_advance _)) (fun _ h => h) (.refl _) i

theorem follow_tick (s : Simulation α) : Follow grips s.bodies s.tick.2.bodies :=
  tick_keeps (P := fun s' => Follow grips s.bodies s'.bodies)
    (fun h => h.trans (follow_advance _)) (.refl _)

theorem follow_advanceUpTo (n : Nat) (s : Simulation α) :
    Follow grips s.bodies (advanceUpTo n s).2.bodies :=
  advanceUpTo_keeps (P := fun s' => Follow grips s.bodies s'.bodies)
    (fun h => h.trans (follow_advance _)) n (.refl _)

theorem follow_run (limit : Option Int) (s : Simulation α) :
    Follow grips s.bodies (s.run limit).2.bodies :=
  run_keeps (P := fun s' => Follow grips s.bodies s'.bodies)
    (fun h => h.trans (follow_advance _)) limit (.refl _)

theorem follow_turn (s : Simulation α) : Follow grips s.bodies s.turn.bodies :=
  turn_keeps (P := fun s' => Follow grips s.bodies s'.bodies)
    (fun i h => h.trans (follow_turnLoop _ i)) (.refl _)

end Time

/-! ## 5. Calls -/

section Calls

variable {s s' : Simulation α}

theorem bodies_destroy (s : Simulation α) : s.destroy.bodies = s.bodies := by
  unfold destroy
  split <;> rfl

theorem bodies_listen {event : String} (h : s.listen event = .ok s') : s'.bodies = s.bodies := by
  obtain ⟨_, -, h⟩ := bind_eq_ok.mp h
  obtain ⟨_, -, h⟩ := bind_eq_ok.mp h
  rw [← Except.ok.inj h]

theorem bodies_start (h : s.start = .ok s') : s'.bodies = s.bodies := by
  obtain ⟨_, -, h⟩ := bind_eq_ok.mp h
  rw [← Except.ok.inj h, spawn_eq]

theorem bodies_heatUp [Scalar α] (s : Simulation α) (target : α) :
    (s.heatUp target).2.bodies = s.bodies := by
  rcases s.heatUp_cases target with ⟨_, heq⟩ | ⟨-, -, heq | heq⟩ <;> rw [heq]
  · rfl
  · rw [spawn_eq]
    rfl

/-- A change of one node changes nothing else, and of the node what it says. -/
theorem follow_modifyLast {id : String} {f : Body α → Body α} (hid : ∀ b, (f b).id = b.id)
    (hanchored : ∀ b : Body α, b.Anchored → (f b).Anchored) (bodies : List (Body α)) :
    Follow (id = ·) bodies (modifyLast id f bodies) := by
  -- namesakes of the changed node count as gripped too, though only the last of them changes
  induction bodies with
  | nil => exact .nil
  | cons b bs ih =>
    rw [modifyLast]
    split
    · rename_i hlast
      obtain ⟨hb, -⟩ := Bool.and_eq_true_iff.mp hlast
      have hchanged : Body.Follows (id = ·) b (f b) :=
        ⟨hid b, hanchored b, fun hfree => absurd (of_decide_eq_true hb).symm hfree⟩
      exact .cons hchanged (Follow.refl bs)
    · exact .cons (.refl b) ih

theorem follow_hold (s : Simulation α) (id : String) :
    Follow (id = ·) s.bodies (s.hold id).bodies :=
  follow_modifyLast (f := fun b => { b with fixed := (some b.x, some b.y) }) (fun _ => rfl)
    (fun _ _ => .inr rfl) s.bodies

theorem follow_grab [Scalar α] (s : Simulation α) (id : String) :
    Follow (id = ·) s.bodies (s.grab id).2.bodies := by
  rcases s.grab_cases id with ⟨_, heq⟩ | ⟨-, heq⟩ <;> rw [heq]
  · exact .refl s.bodies
  · rw [bodies_heatUp]
    exact s.follow_hold id

theorem follow_dragStart [Scalar α] {id : String} (h : s.dragStart id = .ok s') :
    Follow (id = ·) s.bodies s'.bodies := by
  have hgrab := s.follow_grab id
  rwa [dragStart_eq_ok.mp h] at hgrab

theorem follow_dragTo {id : String} {x y : α} (h : s.dragTo id x y = .ok s') :
    Follow (id = ·) s.bodies s'.bodies := by
  obtain ⟨_, -, h⟩ := bind_eq_ok.mp h
  rw [← Except.ok.inj h]
  exact follow_modifyLast (f := fun b => { b with x, y, fixed := (some x, some y) })
    (fun _ => rfl) (fun _ _ => .inr rfl) s.bodies

theorem follow_dragEnd [Scalar α] {id : String} {keep : Bool} (h : s.dragEnd id keep = .ok s') :
    Follow (id = ·) s.bodies s'.bodies := by
  obtain ⟨_, -, h⟩ := bind_eq_ok.mp h
  rw [← Except.ok.inj h]
  cases keep with
  | true => exact Follow.refl s.bodies
  | false =>
    exact follow_modifyLast (f := fun b => { b with fixed := (none, none) }) (fun _ => rfl)
      (fun _ _ => .inl rfl) s.bodies

end Calls

/-! ## 6. Runs -/

section Acting

variable [Scalar α] [Planar α]

/-- **Every act** leaves nodes anchored, and fixed as before but for the one in its grip. -/
theorem follow_perform (act : Act α) (s : Simulation α) :
    Follow act.Grips s.bodies (act.perform s).2.bodies := by
  have hkeeps : ∀ {r : Except Fault (Simulation α)},
      (∀ s', r = .ok s' → Follow act.Grips s.bodies s'.bodies) →
        Follow act.Grips s.bodies (s.orSame r).2.bodies :=
    orSame_keeps (P := fun s' => Follow act.Grips s.bodies s'.bodies) (.refl s.bodies)
  cases act with
  | tick => exact s.follow_tick
  | run limit => exact s.follow_run limit
  | listen event => exact hkeeps fun _ h => .of_eq (bodies_listen h)
  | start => exact hkeeps fun _ h => .of_eq (bodies_start h)
  | restart target => exact .of_eq (s.bodies_heatUp target)
  | dragStart id => exact s.follow_grab id
  | dragTo id x y => exact hkeeps fun _ => follow_dragTo
  | dragEnd id keep => exact hkeeps fun _ => follow_dragEnd
  | destroy => exact .of_eq s.bodies_destroy
  | resume loop => exact s.follow_turnLoop loop
  | turn => exact s.follow_turn

theorem anchored_startBody (g : Graph α) (starts : Positions α) (pinned : List String)
    (id : String) (i : Nat) : (startBody g starts pinned id i).Anchored := by
  simp only [Body.Anchored, startBody]
  split
  · exact .inr rfl
  · exact .inl rfl

/-- A simulation of the nodes of a graph, each of which stands where it is fixed. -/
structure Moored (g : Graph α) (s : Simulation α) : Prop where
  nodes : s.bodies.map Body.id = g.nodeIds
  anchored : ∀ body ∈ s.bodies, body.Anchored

theorem moored_create (settings : Settings α) (g : Graph α) (starts : Positions α)
    (pinned : List String) : Moored g (create settings g starts pinned) := by
  refine ⟨ids_create settings g starts pinned, fun body hbody => ?_⟩
  obtain ⟨⟨id, i⟩, -, rfl⟩ := List.mem_map.mp hbody
  exact anchored_startBody g starts pinned id i

theorem Moored.perform {g : Graph α} {s : Simulation α} (h : Moored g s) (act : Act α) :
    Moored g (act.perform s).2 where
  nodes := (follow_perform act s).map_id.trans h.nodes
  anchored := (follow_perform act s).anchored h.anchored

/-- **Nodes that are held do not move.**  Whatever is done with a simulation, its nodes are those of
its graph, and a node is pinned just when both its coordinates are fixed; these are then what is
reported of it.  An act leaves the fixed coordinates of every node as they are, and a pinned node
where it is, unless it is a drag of that very node. -/
theorem held_nodes_rest (settings : Settings α) (g : Graph α) (starts : Positions α)
    (pinned : List String) (acts : List (Act α)) :
    let s := after acts (create settings g starts pinned)
    s.bodies.map Body.id = g.nodeIds ∧
      (∀ body ∈ s.bodies, body.pinned = true ↔ ∃ x y, body.fixed = (some x, some y)) ∧
      (∀ id body x y, bodyOf? s.bodies id = some body → body.fixed = (some x, some y) →
        s.positions.find? id = some ⟨x, y, true⟩) ∧
      ∀ act : Act α, List.Forall₂ (fun body body' => body'.id = body.id ∧
        (¬ act.Grips body.id → body'.fixed = body.fixed ∧
          (body.pinned = true → body'.position = body.position)))
        s.bodies (act.perform s).2.bodies := by
  intro s
  have hmoored : Moored g s := after_keeps (fun act h => h.perform act) (moored_create ..) acts
  refine ⟨hmoored.nodes, fun body hbody => ?_, fun id body x y hbody hfixed => ?_, fun act => ?_⟩
  · constructor
    · exact fun hpinned => ⟨_, _, (hmoored.anchored body hbody).fixed_of_pinned hpinned⟩
    · rintro ⟨x, y, hfixed⟩
      exact Body.pinned_of_fixed hfixed
  · have hmem := List.mem_reverse.mp (List.mem_of_find?_eq_some hbody)
    rw [find?_positions, hbody, Option.map_some, (hmoored.anchored body hmem).position hfixed]
  · have hboth := (List.forall₂_and_left _ _).mpr ⟨hmoored.anchored, follow_perform act s⟩
    refine hboth.imp fun body body' ⟨hanchored, hfollows⟩ => ⟨hfollows.id, fun hfree => ?_⟩
    refine ⟨hfollows.fixed hfree, fun hpinned => ?_⟩
    have hfixed := hanchored.fixed_of_pinned hpinned
    have hfixed' := (hfollows.fixed hfree).trans hfixed
    rw [hanchored.position hfixed, (hfollows.anchored hanchored).position hfixed']

end Acting

end Simulation

end PathAtlas.Motion
