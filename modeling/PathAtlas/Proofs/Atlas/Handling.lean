/-
# What hands and time do to an atlas

Layouts aside, whatever is done with an atlas leaves it the same graph and the same simulation, and
every node as it was that is not in the grip of a hand (`Handles`, `handles_make`).  A layout makes
a new simulation, and what it keeps of a node it reads off the positions (`pinned?_newSimulation`,
`holds_newSimulation`).

So the live simulation fits the graph and the positions in every state that is reached, also after
refreshes that failed (`Reached.rigged`): the positions may be out of date then, but what they say
of pins is true.  A drag of a node in the graph does not fail in such a state, unless heat can be
lost (`drag_ok`).
-/
import PathAtlas.Proofs.Atlas.FailedRefresh
import PathAtlas.Proofs.Motion.Holding

namespace PathAtlas.Atlas

open PathAtlas.Topology PathAtlas.Layout PathAtlas.Motion

variable {α : Type}

/-! ## 1. Grips -/

/-- The move takes hold of a node, moves it or lets it go. -/
def Move.Grips : Move α → String → Prop
  | .drag gripped _ _, id | .release gripped, id => gripped = id
  | _, _ => False

/-- The move replaces the simulation, or ends it. -/
def Move.Replaces : Move α → Prop
  | .refresh .. | .layout .. | .close => True
  | _ => False

/-- The live simulation before and after something that grips some nodes, and the positions with
it.  These follow the simulation unless nothing was done that they would have to tell. -/
structure Guided (grips : String → Prop) (positions positions' : Positions α)
    (l l' : LiveSimulation α) : Prop where
  endures : l.simulation.Endures l'.simulation
  follow : Follow grips l.simulation.bodies l'.simulation.bodies
  steady : l.simulation.Steady → l'.simulation.Steady
  places : positions' = l'.simulation.positions ∨
    positions' = positions ∧ ∀ id, l'.simulation.pinned? id = l.simulation.pinned? id

/-- An atlas before and after something that grips some nodes and lays nothing out. -/
structure Handles (grips : String → Prop) (a a' : Atlas α) : Prop where
  graph : a'.graph = a.graph
  mode : a'.mode = a.mode
  pinEndpoints : a'.pinEndpoints = a.pinEndpoints
  idle : a.live = none → a'.live = none ∧
    ∀ id, ¬ grips id → a'.positions.find? id = a.positions.find? id
  live : ∀ l, a.live = some l → ∃ l', a'.live = some l' ∧
    Guided grips a.positions a'.positions l l'
  recorded : ∀ id, ¬ grips id → (id ∈ a'.dragging ↔ id ∈ a.dragging)

section Handling

variable {grips : String → Prop} {a a' : Atlas α}

theorem Guided.refl (positions : Positions α) (l : LiveSimulation α) :
    Guided grips positions positions l l :=
  ⟨.refl _, .refl _, id, .inr ⟨rfl, fun _ => rfl⟩⟩

theorem Handles.refl (a : Atlas α) : Handles grips a a :=
  ⟨rfl, rfl, rfl, fun hl => ⟨hl, fun _ _ => rfl⟩, fun l hl => ⟨l, hl, .refl _ l⟩, fun _ _ => .rfl⟩

theorem handles_of_idle (hl : a.live = none) {positions : Positions α} {dragging : List String}
    (hplaces : ∀ id, ¬ grips id → positions.find? id = a.positions.find? id)
    (hrecorded : ∀ id, ¬ grips id → (id ∈ dragging ↔ id ∈ a.dragging)) :
    Handles grips a { a with positions, dragging } :=
  ⟨rfl, rfl, rfl, fun _ => ⟨hl, hplaces⟩, fun _ hl' => (nomatch hl.symm.trans hl'), hrecorded⟩

theorem handles_of_live {l : LiveSimulation α} (hl : a.live = some l) {s : Simulation α}
    {positions : Positions α} {dragging : List String}
    (hguided : Guided grips a.positions positions l { l with simulation := s })
    (hrecorded : ∀ id, ¬ grips id → (id ∈ dragging ↔ id ∈ a.dragging)) :
    Handles grips a { a with live := some { l with simulation := s }, positions, dragging } := by
  refine ⟨rfl, rfl, rfl, fun hnone => ?_, fun l' hl' => ?_, hrecorded⟩
  · cases hl.symm.trans hnone
  · cases hl.symm.trans hl'
    exact ⟨_, rfl, hguided⟩

/-- Time grips nothing. -/
theorem handles_follow {l : LiveSimulation α} (hl : a.live = some l) {s : Simulation α}
    (honward : l.simulation.Onward s)
    (hfollow : ∀ grips, Follow grips l.simulation.bodies s.bodies)
    (hsteady : l.simulation.Steady → s.Steady) : Handles grips a (a.follow l s) := by
  rcases a.follow_cases l s with ⟨-, -, heq⟩ | ⟨-, heq⟩
  · rw [heq]
    exact handles_of_live hl ⟨honward.toEndures, hfollow grips, hsteady, .inl rfl⟩ fun _ _ => .rfl
  · have hpins : ∀ id, s.pinned? id = l.simulation.pinned? id :=
      fun id => Simulation.pinned?_of_follow (hfollow fun _ => False) not_false
    rw [heq]
    exact handles_of_live hl ⟨honward.toEndures, hfollow grips, hsteady, .inr ⟨rfl, hpins⟩⟩
      fun _ _ => .rfl

theorem handles_select (a : Atlas α) (id : Option String) : Handles grips a (a.select id).2 := by
  have hsame : Handles grips a a := .refl a
  rw [select_eq]
  exact ⟨hsame.graph, hsame.mode, hsame.pinEndpoints, hsame.idle, hsame.live, hsame.recorded⟩

/-- A loop that begins grips nothing. -/
theorem handles_start {r : Bool × Atlas α} (h : a.startSimulation = .ok r) :
    Handles grips a r.2 := by
  rcases start_eq_ok h with ⟨-, heq⟩ | ⟨l, s, hl, hs, heq⟩
  · rw [heq]
    exact .refl a
  · obtain ⟨honward, -⟩ := Simulation.onward_start hs
    have hbodies := Simulation.bodies_start hs
    have hpins : ∀ id, s.pinned? id = l.simulation.pinned? id := by
      intro id
      rw [Simulation.pinned?, Simulation.pinned?, hbodies]
    rw [heq]
    exact handles_of_live hl ⟨honward.toEndures, Follow.of_eq hbodies,
      fun h => h.of_cooling_eq (Simulation.cooling_start hs), .inr ⟨rfl, hpins⟩⟩ fun _ _ => .rfl

section Dragging

variable [Scalar α] {id : String} {r : Option (Position α) × Atlas α}

/-- A drag grips the node that is dragged. -/
theorem handles_drag {x y : α} (h : a.drag id x y = .ok r) : Handles (id = ·) a r.2 := by
  rcases drag_eq_ok h with ⟨-, heq⟩ | ⟨-, hl, heq⟩ | ⟨l, s, s', -, hl, hs, hs', heq⟩
  · rw [heq]
    exact .refl a
  · rw [heq]
    exact handles_of_idle hl (fun other hother => Table.find?_set_of_ne (Ne.symm hother) _ _)
      fun _ _ => .rfl
  · have hstart : l.simulation.Endures s ∧ Follow (id = ·) l.simulation.bodies s.bodies ∧
        (l.simulation.Steady → s.Steady) := by
      rcases hs with ⟨-, rfl⟩ | ⟨-, hs⟩
      · exact ⟨.refl _, .refl _, fun h => h⟩
      · exact ⟨Simulation.endures_dragStart hs, Simulation.follow_dragStart hs,
          fun h => h.dragStart hs⟩
    obtain ⟨hendures, hfollow, hsteady⟩ := hstart
    rw [heq]
    refine handles_of_live hl ⟨hendures.trans (Simulation.endures_dragTo hs'),
      hfollow.trans (Simulation.follow_dragTo hs'),
      fun h => (hsteady h).of_cooling_eq (Simulation.cooling_dragTo hs'), .inl rfl⟩
      fun other hother => ?_
    rw [Order.mem_insertText]
    exact or_iff_right (Ne.symm hother)

/-- The end of a drag grips the node that is let go. -/
theorem handles_release (h : a.release id = .ok r) : Handles (id = ·) a r.2 := by
  have hrecorded : ∀ other, ¬ id = other →
      (other ∈ a.dragging.filter (· ≠ id) ↔ other ∈ a.dragging) := by
    intro other hother
    rw [List.mem_filter]
    exact and_iff_left (decide_eq_true (Ne.symm hother))
  rcases release_eq_ok h with ⟨-, heq⟩ | ⟨-, hl, heq⟩ | ⟨l, s, -, hl, hs, heq⟩
  · rw [heq]
    exact .refl a
  · rw [heq]
    exact handles_of_idle hl (fun _ _ => rfl) hrecorded
  · rw [heq]
    exact handles_of_live hl
      ⟨Simulation.endures_dragEnd hs, Simulation.follow_dragEnd hs, fun h => h.dragEnd hs,
        .inl rfl⟩ hrecorded

end Dragging

section Stepping

variable [Scalar α] [Planar α]

theorem handles_tick (a : Atlas α) : Handles grips a a.tick.2 := by
  cases hl : a.live with
  | none =>
    rw [tick_of_idle hl]
    exact .refl a
  | some l =>
    rw [tick_of_live hl]
    exact handles_follow hl l.simulation.onward_tick (fun _ => l.simulation.follow_tick)
      Simulation.Steady.tick

theorem handles_tickNumber (a : Atlas α) (n : Nat) : Handles grips a (a.tickNumber n).2 := by
  have hsame : Handles grips a a := .refl a
  unfold tickNumber
  split
  · split
    · exact a.handles_tick
    · exact hsame
  · exact ⟨hsame.graph, hsame.mode, hsame.pinEndpoints, hsame.idle, hsame.live, hsame.recorded⟩

/-- A turn of the loops grips nothing. -/
theorem handles_turn (a : Atlas α) : Handles grips a a.turn := by
  have hturned : Handles grips { a with retired := a.retired.map Simulation.turn } a.turn := by
    rcases a.live.eq_none_or_eq_some with hl | ⟨l, hl⟩
    · rw [turn_of_idle hl]
      exact .refl _
    · rw [turn_of_live hl]
      exact handles_follow (a := { a with retired := a.retired.map Simulation.turn }) hl
        l.simulation.onward_turn (fun _ => l.simulation.follow_turn) Simulation.Steady.turn
  exact ⟨hturned.graph, hturned.mode, hturned.pinEndpoints, hturned.idle, hturned.live,
    hturned.recorded⟩

/-- **Layouts aside**, a move leaves all nodes as they are but the one in its grip. -/
theorem handles_make {move : Move α} (hmove : move.make a = .ok a') (hstays : ¬ move.Replaces) :
    Handles move.Grips a a' := by
  cases move with
  | select id =>
    cases hmove
    exact a.handles_select id
  | drag id x y =>
    obtain ⟨r, hdrag, rfl⟩ := map_eq_ok.mp hmove
    exact handles_drag hdrag
  | release id =>
    obtain ⟨r, hrelease, rfl⟩ := map_eq_ok.mp hmove
    exact handles_release hrelease
  | start =>
    obtain ⟨r, hstart, rfl⟩ := map_eq_ok.mp hmove
    exact handles_start hstart
  | tick n =>
    obtain ⟨b, htick⟩ := done_eq_ok.mp hmove
    have hhandles : Handles (fun _ => False) a (a.tickNumber n).2 := a.handles_tickNumber n
    rw [htick] at hhandles
    exact hhandles
  | turn =>
    cases hmove
    exact a.handles_turn
  | refresh | layout | close => exact absurd trivial hstays

end Stepping

end Handling

/-! ## 2. Beginnings -/

section Laying

variable {a : Atlas α} {g : Graph α} {previous layered : Positions α} {id : String}

/-- In a graph without namesakes a node is found by its id. -/
theorem isEndpoint_of_mem (hg : a.graph = some g) (hdistinct : g.nodeIds.Nodup) {node : Node α}
    (hnode : node ∈ g.nodes) : a.isEndpoint node.id = node.role.isEndpoint := by
  have hsome : (g.node? node.id).isSome :=
    List.find?_isSome.mpr ⟨node, List.mem_reverse.mpr hnode, beq_iff_eq.mpr rfl⟩
  obtain ⟨found, hfound⟩ := Option.isSome_iff_exists.mp hsome
  have hsame : found = node := by
    have hid := List.find?_some (p := fun n : Node α => n.id == node.id) hfound
    have hmem := List.mem_reverse.mp (List.mem_of_find?_eq_some hfound)
    exact List.inj_on_of_nodup_map hdistinct hmem hnode (eq_of_beq hid)
  rw [isEndpoint, hg, Option.bind_some, hfound, hsame, Option.any_some]

/-- A node is to be held when it is an end of paths and such nodes are pinned. -/
theorem contains_heldNodes (hdistinct : g.nodeIds.Nodup) {node : Node α} (hnode : node ∈ g.nodes) :
    (a.heldNodes g).contains node.id = (a.pinEndpoints && node.role.isEndpoint) := by
  rw [heldNodes]
  cases a.pinEndpoints with
  | false => rfl
  | true =>
    rw [if_pos rfl, Bool.true_and, Bool.eq_iff_iff, List.contains_iff_mem, List.mem_map]
    constructor
    · rintro ⟨other, hother, hsame⟩
      obtain ⟨hmem, hendpoint⟩ := List.mem_filter.mp hother
      exact List.inj_on_of_nodup_map hdistinct hmem hnode hsame ▸ hendpoint
    · exact fun hendpoint => ⟨node, List.mem_filter.mpr ⟨hnode, hendpoint⟩, rfl⟩

variable [Scalar α]

/-- Every node begins at its own place. -/
theorem find?_starts (a : Atlas α) (previous layered : Positions α) (hid : id ∈ g.nodeIds) :
    ∃ node ∈ g.nodes, node.id = id ∧
      Table.find? (g.nodes.map fun n => (n.id, a.startPosition previous layered n)) id
        = some (a.startPosition previous layered node) := by
  rw [Table.find?_map Node.id (a.startPosition previous layered)]
  cases hfound : g.nodes.find? (·.id == id) with
  | none =>
    obtain ⟨node, hnode, hsame⟩ := List.mem_map.mp hid
    exact absurd (beq_iff_eq.mpr hsame) (List.find?_eq_none.mp hfound node hnode)
  | some node =>
    have hsame := List.find?_some hfound
    exact ⟨node, List.mem_of_find?_eq_some hfound, eq_of_beq hsame, rfl⟩

/-- A node that was held at a place begins there, whatever it is. -/
theorem startPosition_of_held {node : Node α} {x y : α}
    (h : previous.find? node.id = some ⟨x, y, true⟩) :
    a.startPosition previous layered node = ⟨x, y, true⟩ := by
  rw [startPosition, h]
  simp

/-- A node that is not held for what it is begins as it was before. -/
theorem pinned_startPosition {node : Node α}
    (h : (a.pinEndpoints && node.role.isEndpoint) = false) :
    (a.startPosition previous layered node).pinned
      = (previous.find? node.id).any Position.pinned := by
  rw [startPosition, h]
  rfl

variable [Planar α]

/-- A layout asks the atlas for its settings only. -/
theorem newSimulation_retire (a : Atlas α) (g : Graph α) (previous layered : Positions α) :
    a.retire.newSimulation g previous layered = a.newSimulation g previous layered := by
  rw [retire_eq]
  rfl

def beginning (a : Atlas α) (g : Graph α) (previous layered : Positions α) : Simulation α :=
  let starts := g.nodes.map fun n => (n.id, a.startPosition previous layered n)
  { Simulation.create .standard g starts (a.heldNodes g) with listeners := { tick := 1 } }

theorem newSimulation_eq (a : Atlas α) (g : Graph α) (previous layered : Positions α) :
    a.newSimulation g previous layered
      = ((a.beginning g previous layered).advanceUpTo a.iterations.toNat).2 := rfl

/-- The first steps grip nothing. -/
theorem follow_newSimulation (a : Atlas α) (g : Graph α) (previous layered : Positions α) :
    Follow (fun _ => False) (a.beginning g previous layered).bodies
      (a.newSimulation g previous layered).bodies :=
  Simulation.follow_advanceUpTo _ _

theorem steady_newSimulation
    (h : (Cooling.share? (Settings.standard : Settings α).alphaMin).isSome = true) (a : Atlas α)
    (g : Graph α) (previous layered : Positions α) :
    (a.newSimulation g previous layered).Steady := by
  have hbeginning : (a.beginning g previous layered).Steady := ⟨rfl, h⟩
  rw [newSimulation_eq]
  exact hbeginning.advanceUpTo _

/-- **A node in hand** is in hand in the next simulation. -/
theorem holds_newSimulation (hid : id ∈ g.nodeIds) {x y : α}
    (hplace : previous.find? id = some ⟨x, y, true⟩) :
    (a.newSimulation g previous layered).Holds id x y := by
  obtain ⟨node, -, hsame, hstart⟩ := find?_starts a previous layered hid
  rw [startPosition_of_held (hsame ▸ hplace)] at hstart
  have hbeginning : (a.beginning g previous layered).Holds id x y :=
    Simulation.holds_create .standard _ (a.heldNodes g) hid hstart
  exact hbeginning.follow (a.follow_newSimulation g previous layered) not_false

/-- **Pins at the beginning**: those of endpoints when that is asked for, and those from before. -/
theorem pinned?_newSimulation (hg : a.graph = some g) (hdistinct : g.nodeIds.Nodup)
    (hid : id ∈ g.nodeIds) : (a.newSimulation g previous layered).pinned? id
      = some ((a.pinEndpoints && a.isEndpoint id)
          || (previous.find? id).any Position.pinned) := by
  obtain ⟨node, hnode, rfl, hstart⟩ := find?_starts a previous layered hid
  have hbeginning : (a.beginning g previous layered).pinned? node.id = _ :=
    Simulation.pinned?_create .standard _ (a.heldNodes g) hid
  rw [Simulation.pinned?_of_follow (a.follow_newSimulation g previous layered) not_false,
    hbeginning, contains_heldNodes hdistinct hnode, hstart, isEndpoint_of_mem hg hdistinct hnode]
  cases hendpoint : a.pinEndpoints && node.role.isEndpoint with
  | true => rfl
  | false => rw [Option.any_some, pinned_startPosition hendpoint]

end Laying

/-! ## 3. Every state that is reached -/

section Rigging

variable [Scalar α] [Planar α]

/-- A simulation that goes on, moves the nodes of a graph and pins those whose positions say so.
Its heat remains a real number when that of a new simulation does. -/
structure Fits (graph : Option (Graph α)) (positions : Positions α) (l : LiveSimulation α) :
    Prop where
  alive : l.simulation.destroyed = false
  nodes : ∃ g, graph = some g ∧ l.simulation.bodies.map Body.id = g.nodeIds
  pins : ∀ id, (positions.find? id).map Position.pinned = l.simulation.pinned? id
  steady : (Cooling.share? (Settings.standard : Settings α).alphaMin).isSome = true →
    l.simulation.Steady

/-- An atlas whose live simulation fits, if there is one. -/
structure Rigged (a : Atlas α) : Prop where
  distinct : ∀ g, a.graph = some g → g.nodeIds.Nodup
  layered : a.mode = .hierarchical → a.live = none
  fits : ∀ l, a.live = some l → Fits a.graph a.positions l

variable {a a' : Atlas α}

theorem Rigged.idle (h : Rigged a) (hgraph : a.graph = none) : a.live = none := by
  cases hl : a.live with
  | none => rfl
  | some l =>
    obtain ⟨g, hg, -⟩ := (h.fits l hl).nodes
    cases hgraph.symm.trans hg

/-- Handling an atlas leaves a live simulation that fits. -/
theorem Handles.rigged {grips : String → Prop} (h : Handles grips a a') (hrigged : Rigged a) :
    Rigged a' := by
  refine ⟨fun g hg => hrigged.distinct g (h.graph ▸ hg), fun hmode => ?_, fun l' hl' => ?_⟩
  · exact (h.idle (hrigged.layered (h.mode ▸ hmode))).1
  · cases hl : a.live with
    | none => cases hl'.symm.trans (h.idle hl).1
    | some l =>
      obtain ⟨after, hafter, hguided⟩ := h.live l hl
      cases hafter.symm.trans hl'
      obtain ⟨halive, ⟨g, hg, hids⟩, hpins, hsteady⟩ := hrigged.fits l hl
      refine ⟨hguided.endures.alive halive, ⟨g, h.graph.trans hg, hguided.endures.ids.trans hids⟩,
        fun id => ?_, hguided.steady ∘ hsteady⟩
      -- positions that do not follow the simulation are old, but no pin has changed since
      rcases hguided.places with heq | ⟨heq, hsame⟩
      · rw [heq, Simulation.pinned_find?_positions]
      · rw [heq, hpins id, hsame id]

theorem Rigged.close (h : Rigged a) : Rigged a.close := by
  rw [Atlas.close, retire_eq]
  refine ⟨h.distinct, fun _ => rfl, fun l hl => ?_⟩
  cases hl

/-- A layout begins a simulation that fits. -/
theorem rigged_relayout (hdistinct : ∀ g, a.graph = some g → g.nodeIds.Nodup)
    (hidle : a.graph = none → a.live = none) (keep : Bool) : Rigged (a.relayout keep) := by
  rcases a.relayout_cases keep with ⟨hgraph, heq⟩ | ⟨g, -, -, heq⟩ | ⟨g, s, hgraph, hmode, hs, heq⟩
  · have hnone := hidle hgraph
    rw [heq]
    exact ⟨hdistinct, fun _ => hnone, fun l hl => nomatch hnone.symm.trans hl⟩
  · rw [heq, retire_eq]
    exact ⟨hdistinct, fun _ => rfl, fun _ hl => nomatch hl⟩
  · rw [heq, retire_eq]
    refine ⟨hdistinct, fun h => ?_, fun l hl => ?_⟩
    · cases hmode.symm.trans h
    · cases hl
      exact ⟨hs ▸ alive_newSimulation _ g _ _, ⟨g, hgraph, hs ▸ ids_newSimulation _ g _ _⟩,
        s.pinned_find?_positions, fun h => hs ▸ steady_newSimulation h _ g _ _⟩

theorem Rigged.layout (h : Rigged a) {mode : Option Json} {keep : Bool}
    (hlayout : a.layout mode keep = .ok a') : Rigged a' := by
  obtain ⟨mode', keep', rfl, -⟩ := layout_eq_ok hlayout
  exact rigged_relayout (a := { a with mode := mode' }) h.distinct h.idle keep'

theorem rigged_adopt (a : Atlas α) (window : List (Trace α)) {g : Graph α}
    (hdistinct : g.nodeIds.Nodup) : Rigged (a.adopt window g) := by
  refine rigged_relayout (a := { a.close with traces := window, graph := some g })
    (fun g' hg => ?_) (fun hgraph => nomatch hgraph) _
  cases hg
  exact hdistinct

theorem rigged_refresh {generatedAt : α} {traces : List (Trace α)} {g : Graph α}
    (hrefresh : a.refresh generatedAt traces = (.ok g, a')) : Rigged a' := by
  obtain ⟨hbuilt, rfl⟩ := refresh_eq_ok hrefresh
  refine rigged_adopt _ _ ?_
  rw [nodeIds_eq hbuilt]
  exact (nodeNames_pairwise _).imp ne_of_lt

/-- **One move** keeps the simulation fit, or makes one that is. -/
theorem Rigged.make (h : Rigged a) {move : Move α} (hmove : move.make a = .ok a') : Rigged a' := by
  cases move with
  | refresh generatedAt traces =>
    obtain ⟨g, hrefresh⟩ := done_eq_ok.mp hmove
    exact rigged_refresh hrefresh
  | layout mode keep => exact h.layout hmove
  | close =>
    cases hmove
    exact h.close
  | select | drag | release | start | tick | turn => exact (handles_make hmove not_false).rigged h

/-- **In every state that is reached** the live simulation fits. -/
theorem Reached.rigged (h : Reached a) : Rigged a := by
  induction h with
  | new => exact ⟨fun _ hg => (nomatch hg), fun _ => rfl, fun _ hl => nomatch hl⟩
  | make _ hmove ih => exact ih.make hmove
  | failed _ hfails ih =>
    rw [refresh_of_fails hfails]
    exact ⟨ih.distinct, ih.layered, ih.fits⟩
  | @stuck a n _ _ ih =>
    -- a step that fails keeps the part that was done
    have hhandles : Handles (fun _ => False) a (a.tickNumber n).2 := a.handles_tickNumber n
    exact hhandles.rigged ih

/-- **A drag does not fail** where the heat of a new simulation remains a real number. -/
theorem drag_ok (hrigged : Rigged a) {id : String} (hnode : a.hasNode id = true)
    (hshare : (Cooling.share? (Settings.standard : Settings α).alphaMin).isSome = true) (x y : α) :
    ∃ r, a.drag id x y = .ok r := by
  cases hl : a.live with
  | none => exact ⟨_, drag_of_idle hnode hl⟩
  | some l =>
    have hfits := hrigged.fits l hl
    obtain ⟨g, hg, hids⟩ := hfits.nodes
    have hknown : id ∈ l.simulation.bodies.map Body.id := hids ▸ mem_nodeIds_of_hasNode hnode hg
    have hstart : ∃ s, (if a.dragging.contains id then .ok l.simulation
        else l.simulation.dragStart id) = .ok s ∧ l.simulation.Endures s := by
      split
      · exact ⟨l.simulation, rfl, .refl _⟩
      · obtain ⟨s, hs⟩ := Simulation.dragStart_ok hfits.alive (Simulation.hasNode_iff.mpr hknown)
          (hfits.steady hshare).real
        exact ⟨s, hs, Simulation.endures_dragStart hs⟩
    obtain ⟨s, hs, hendures⟩ := hstart
    obtain ⟨s', hs'⟩ := Simulation.dragTo_ok (hendures.alive hfits.alive)
      (Simulation.hasNode_iff.mpr (hendures.ids ▸ hknown)) x y
    rw [drag_of_live hnode hl]
    exact ⟨_, map_eq_ok.mpr ⟨s', bind_eq_ok.mpr ⟨s, hs, hs'⟩, rfl⟩⟩

end Rigging

end PathAtlas.Atlas
