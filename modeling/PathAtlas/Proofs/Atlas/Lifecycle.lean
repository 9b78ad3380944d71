/-
# The life of an atlas

Positions are written in many places: by both layouts, by the steps of a simulation, and by hands
that drag nodes.  Whatever is done with an atlas, and in whatever order, its parts fit together
(`Sound`): the positions are those of its nodes, a layered layout stands still, the live simulation
moves the nodes of the graph at hand, and no simulation that was replaced moves again.  Nor is one
ever lost: each stays known under the number it got when it was made (`Kept`).

Every operation takes a sound atlas to one that is sound again and has all simulations of the one
before it (`Becomes`).  A move (`Move`) is anything that is done with an atlas or that time does to
it, so this holds for one move (`Sound.make`), for every run of moves (`Sound.run`), and for
whatever is reached from a new atlas (`sound_of_run`).
-/
import PathAtlas.Proofs.Atlas.Moves
import PathAtlas.Proofs.Layout.Layered
import PathAtlas.Proofs.Motion.Steps
import PathAtlas.Proofs.Topology.Structure

namespace PathAtlas

open PathAtlas.Topology PathAtlas.Layout PathAtlas.Motion

variable {α : Type}

/-! ## 1. Places of nodes -/

/-- The positions are those of the nodes of a graph, each once. -/
structure Layout.Covers (positions : Positions α) (g : Graph α) : Prop where
  nodup : positions.names.Nodup
  mem_iff : ∀ id, id ∈ positions.names ↔ id ∈ g.nodeIds

/-- Every position is to be held. -/
def Layout.AllPinned (positions : Positions α) : Prop :=
  ∀ entry ∈ positions, entry.2.pinned = true

namespace Layout

variable {g : Graph α}

theorem Covers.of_perm {positions : Positions α}
    (h : positions.names.Perm (Order.distinct g.nodeIds)) : Covers positions g where
  nodup := h.nodup_iff.mpr (Order.nodup_distinct _)
  mem_iff id := by rw [h.mem_iff, Order.mem_distinct]

/-- A node can be put elsewhere. -/
theorem Covers.set {positions : Positions α} (h : Covers positions g) {id : String}
    (hid : id ∈ g.nodeIds) (p : Position α) : Covers (positions.set id p) g := by
  have hnames := Table.names_set_of_mem ((h.mem_iff id).mpr hid) p
  exact ⟨hnames ▸ h.nodup, fun other => hnames ▸ h.mem_iff other⟩

theorem AllPinned.set {positions : Positions α} (h : AllPinned positions) (id : String)
    {p : Position α} (hp : p.pinned = true) : AllPinned (positions.set id p) := by
  intro entry hentry
  rcases Table.mem_of_mem_set hentry with rfl | hentry
  · exact hp
  · exact h entry hentry

section Layered

variable [Scalar α] {layerGap nodeGap : α} {previous : Positions α}

/-- A layered layout in which some places are kept. -/
theorem covers_layered : Covers
    ((layered layerGap nodeGap g).map fun (id, p) => (id, (previous.find? id).getD p)) g := by
  refine .of_perm ?_
  rw [Table.names, List.map_map]
  exact names_layered_perm layerGap nodeGap g

theorem allPinned_layered (h : AllPinned previous) : AllPinned
    ((layered layerGap nodeGap g).map fun (id, p) => (id, (previous.find? id).getD p)) := by
  intro entry hentry
  obtain ⟨⟨id, p⟩, hp, rfl⟩ := List.mem_map.mp hentry
  show ((previous.find? id).getD p).pinned = true
  cases hkept : previous.find? id with
  | none => exact pinned_of_mem_layered layerGap nodeGap hp
  | some kept => exact h (id, kept) (Table.mem_of_find? hkept)

end Layered

end Layout

namespace Motion.Simulation

/-- A simulation of the nodes of a graph gives each of them its place. -/
theorem covers_positions {s : Simulation α} {g : Graph α}
    (h : s.bodies.map Body.id = g.nodeIds) : Covers s.positions g :=
  .of_perm (by rw [names_positions, h])

end Motion.Simulation

namespace Atlas

/-! ## 2. Soundness -/

/-- A simulation that goes on, moves the nodes of a graph and gives them their positions. -/
structure Drives (l : LiveSimulation α) (graph : Option (Graph α)) (positions : Positions α)
    (generation : Nat) : Prop where
  alive : l.simulation.destroyed = false
  nodes : ∃ g, graph = some g ∧ l.simulation.bodies.map Body.id = g.nodeIds
  places : positions = l.simulation.positions
  current : l.generation = generation

/-- An atlas of which all parts fit together. -/
structure Sound (a : Atlas α) : Prop where
  covered : ∀ g, a.graph = some g → Covers a.positions g
  layered : a.mode = .hierarchical → a.live = none ∧ AllPinned a.positions
  driven : ∀ l, a.live = some l → Drives l a.graph a.positions a.generation
  spent : ∀ s ∈ a.retired, s.Spent

/-- A new atlas is sound. -/
theorem sound_new (limits : Thresholds α) (mode : Mode) (layerGap nodeGap : α) (pinEndpoints : Bool)
    (iterations : Int) : Sound { limits, mode, layerGap, nodeGap, pinEndpoints, iterations } where
  covered _ hg := nomatch hg
  layered _ := ⟨rfl, fun _ h => nomatch h⟩
  driven _ hl := nomatch hl
  spent _ hs := nomatch hs

/-- A simulation that is retired is over, as those before it are. -/
theorem spent_retire {a : Atlas α} (hlive : ∀ l, a.live = some l → l.simulation.destroyed = false)
    (hspent : ∀ s ∈ a.retired, s.Spent) : ∀ s ∈ a.retire.retired, s.Spent := by
  unfold retire
  split
  · exact hspent
  · rename_i l hl
    intro s hs
    rcases List.mem_append.mp hs with hs | hs
    · exact hspent s hs
    · rw [List.mem_singleton.mp hs]
      exact Simulation.spent_destroy (hlive l hl)

/-! ## 3. Simulations by number -/

/-- All simulations so far in the order in which they were made; the live one is the last one. -/
def simulations (a : Atlas α) : List (Simulation α) := a.retired ++ a.simulation?.toList

/-- Every simulation is there later on under the same number. -/
def Kept (a a' : Atlas α) : Prop :=
  ∀ (n : Nat) (s : Simulation α), a.simulations[n]? = some s →
    ∃ s', a'.simulations[n]? = some s' ∧ s.Continues s'

theorem simulations_of_live {a : Atlas α} {l : LiveSimulation α} (h : a.live = some l) :
    a.simulations = a.retired ++ [l.simulation] := by
  rw [simulations, simulation?, h]
  rfl

theorem simulations_of_idle {a : Atlas α} (h : a.live = none) : a.simulations = a.retired := by
  rw [simulations, simulation?, h]
  exact List.append_nil _

theorem Kept.refl (a : Atlas α) : Kept a a := fun _ s h => ⟨s, h, .refl s⟩

theorem Kept.trans {a a' a'' : Atlas α} (h : Kept a a') (h' : Kept a' a'') : Kept a a'' := by
  intro n s hs
  obtain ⟨s', hs', hcontinues⟩ := h n s hs
  obtain ⟨s'', hs'', hcontinues'⟩ := h' n s' hs'
  exact ⟨s'', hs'', hcontinues.trans hcontinues'⟩

theorem kept_of_forall₂ {a a' : Atlas α}
    (h : List.Forall₂ Simulation.Continues a.simulations a'.simulations) : Kept a a' := by
  intro n s hs
  obtain ⟨hn, rfl⟩ := List.getElem?_eq_some_iff.mp hs
  have hn' : n < a'.simulations.length := h.length_eq ▸ hn
  exact ⟨a'.simulations[n], List.getElem?_eq_getElem hn', h.get hn hn'⟩

theorem kept_of_append {a a' : Atlas α} (added : List (Simulation α))
    (h : a'.simulations = a.simulations ++ added) : Kept a a' := by
  intro n s hs
  obtain ⟨hn, -⟩ := List.getElem?_eq_some_iff.mp hs
  refine ⟨s, ?_, .refl s⟩
  rw [h, List.getElem?_append_left hn, hs]

/-- The last simulation goes on, and so does each one before it. -/
theorem kept_of_live {a a' : Atlas α} {l : LiveSimulation α} {ss : List (Simulation α)}
    {s : Simulation α} (hl : a.live = some l) (ha' : a'.simulations = ss ++ [s])
    (hretired : List.Forall₂ Simulation.Continues a.retired ss) (h : l.simulation.Continues s) :
    Kept a a' := by
  refine kept_of_forall₂ ?_
  rw [simulations_of_live hl, ha']
  exact List.rel_append hretired (.cons h .nil)

theorem forall₂_continues (ss : List (Simulation α)) :
    List.Forall₂ Simulation.Continues ss ss :=
  List.forall₂_same.mpr fun s _ => .refl s

/-- A simulation that is ended keeps its number. -/
theorem kept_retire (a : Atlas α) : Kept a a.retire := by
  unfold retire
  split
  · exact .refl a
  · rename_i l hl
    exact kept_of_live hl (simulations_of_idle rfl) (forall₂_continues _)
      l.simulation.continues_destroy

/-- A new simulation has the next number. -/
theorem kept_of_idle {a a' : Atlas α} (hl : a.live = none) (hretired : a'.retired = a.retired) :
    Kept a a' := by
  refine kept_of_append a'.simulation?.toList ?_
  rw [simulations_of_idle hl, ← hretired]
  rfl

/-- What a sound atlas comes to: it is sound again, and its simulations are all there. -/
structure Becomes (a a' : Atlas α) : Prop where
  sound : Sound a'
  kept : Kept a a'

theorem Becomes.trans {a a' a'' : Atlas α} (h : a.Becomes a') (h' : a'.Becomes a'') :
    a.Becomes a'' := ⟨h'.sound, h.kept.trans h'.kept⟩

namespace Sound

variable {a : Atlas α}

theorem idle (h : Sound a) (hgraph : a.graph = none) : a.live = none := by
  cases hl : a.live with
  | none => rfl
  | some l =>
    obtain ⟨g, hg, -⟩ := (h.driven l hl).nodes
    cases hgraph.symm.trans hg

theorem alive (h : Sound a) (l : LiveSimulation α) (hl : a.live = some l) :
    l.simulation.destroyed = false := (h.driven l hl).alive

/-! ## 4. Time and hands -/

/-- The live simulation at another moment of its life, and the positions with it. -/
theorem steer (h : Sound a) {l : LiveSimulation α} (hl : a.live = some l) {s : Simulation α}
    (hs : l.simulation.Endures s) (dragging : List String) : a.Becomes
      { a with live := some { l with simulation := s }, positions := s.positions, dragging } := by
  have hdriven := h.driven l hl
  obtain ⟨g, hg, hids⟩ := hdriven.nodes
  have hnodes := hs.ids.trans hids
  refine ⟨⟨fun g' hg' => ?_, fun hmode => ?_, fun l' hl' => ?_, h.spent⟩, ?_⟩
  · cases hg.symm.trans hg'
    exact Simulation.covers_positions hnodes
  · cases hl.symm.trans (h.layered hmode).1
  · cases hl'
    exact ⟨hs.alive hdriven.alive, ⟨g, hg, hnodes⟩, rfl, hdriven.current⟩
  · exact kept_of_live hl (simulations_of_live rfl) (forall₂_continues _) hs.toContinues

/-- Positions follow the live simulation, whether it moved or not. -/
theorem follow_eq (h : Sound a) {l : LiveSimulation α} (hl : a.live = some l) {s : Simulation α}
    (hs : l.simulation.Onward s) : a.follow l s
      = { a with live := some { l with simulation := s }, positions := s.positions } := by
  have hdriven := h.driven l hl
  rcases a.follow_cases l s with ⟨-, -, heq⟩ | ⟨hstill, heq⟩
  · exact heq
  · have hticks : s.ticks = l.simulation.ticks :=
      hstill.resolve_right fun hstale => hstale hdriven.current
    rw [heq, hs.rests hticks, ← hdriven.places]

theorem follow (h : Sound a) {l : LiveSimulation α} (hl : a.live = some l) {s : Simulation α}
    (hs : l.simulation.Onward s) : a.Becomes (a.follow l s) := by
  rw [h.follow_eq hl hs]
  exact h.steer hl hs.toEndures a.dragging

section Stepping

variable [Scalar α] [Planar α]

theorem tick (h : Sound a) : a.Becomes a.tick.2 := by
  cases hl : a.live with
  | none =>
    rw [tick_of_idle hl]
    exact ⟨h, .refl a⟩
  | some l =>
    rw [tick_of_live hl]
    exact h.follow hl l.simulation.onward_tick

/-- Of all simulations only the live one can take a step. -/
theorem tickNumber_eq (h : Sound a) (n : Nat) :
    a.tickNumber n = a.tick ∧ n = a.retired.length ∨
      a.tickNumber n = (.ok none, a) ∨ a.tickNumber n = (.error .simulationDestroyed, a) := by
  unfold tickNumber
  split
  · split
    · rename_i hn
      exact .inl ⟨rfl, hn⟩
    · exact .inr (.inl rfl)
  · rename_i s hs
    have hspent := h.spent s (List.mem_of_getElem? hs)
    obtain ⟨hn, rfl⟩ := List.getElem?_eq_some_iff.mp hs
    rw [hspent.tick]
    simp only [List.set_getElem_self]
    exact .inr (.inr rfl)

theorem turn (h : Sound a) : a.Becomes a.turn := by
  have hspent : ∀ s ∈ a.retired.map Simulation.turn, s.Spent := by
    intro s hs
    obtain ⟨s, hretired, rfl⟩ := List.mem_map.mp hs
    have hspent := h.spent s hretired
    obtain ⟨loops, hidle, hturn⟩ := hspent.turn
    rw [hturn]
    exact ⟨hspent.destroyed, hidle⟩
  have hturned : List.Forall₂ Simulation.Continues a.retired (a.retired.map Simulation.turn) :=
    List.forall₂_map_right_iff.mpr (List.forall₂_same.mpr fun s _ => s.onward_turn.toContinues)
  have hretired : a.Becomes { a with retired := a.retired.map Simulation.turn } :=
    ⟨⟨h.covered, h.layered, h.driven, hspent⟩,
      kept_of_forall₂ (List.rel_append hturned (forall₂_continues _))⟩
  cases hl : a.live with
  | none =>
    rw [turn_of_idle hl]
    exact hretired
  | some l =>
    rw [turn_of_live hl]
    exact hretired.trans (hretired.sound.follow hl l.simulation.onward_turn)

end Stepping

theorem start (h : Sound a) {r : Bool × Atlas α} (hstart : a.startSimulation = .ok r) :
    a.Becomes r.2 := by
  rcases start_eq_ok hstart with ⟨-, heq⟩ | ⟨l, s, hl, hs, heq⟩
  · rw [heq]
    exact ⟨h, .refl a⟩
  · obtain ⟨honward, hticks⟩ := Simulation.onward_start hs
    have hsteer := h.steer hl honward.toEndures a.dragging
    rw [honward.rests hticks, ← (h.driven l hl).places] at hsteer
    rw [heq]
    exact hsteer

theorem drag [Scalar α] (h : Sound a) {id : String} {x y : α} {r : Option (Position α) × Atlas α}
    (hdrag : a.drag id x y = .ok r) : a.Becomes r.2 := by
  rcases drag_eq_ok hdrag with ⟨-, heq⟩ | ⟨hnode, hl, heq⟩ | ⟨l, s, s', -, hl, hs, hs', heq⟩
  · rw [heq]
    exact ⟨h, .refl a⟩
  · rw [heq]
    refine ⟨⟨fun g hg => ?_, fun hmode => ?_, fun l hl' => ?_, h.spent⟩, kept_of_idle hl rfl⟩
    · exact (h.covered g hg).set (mem_nodeIds_of_hasNode hnode hg) _
    · exact ⟨hl, (h.layered hmode).2.set id rfl⟩
    · cases hl.symm.trans hl'
  · have hstart : l.simulation.Endures s := by
      rcases hs with ⟨-, rfl⟩ | ⟨-, hs⟩
      · exact .refl _
      · exact Simulation.endures_dragStart hs
    rw [heq]
    exact h.steer hl (hstart.trans (Simulation.endures_dragTo hs')) _

theorem release [Scalar α] (h : Sound a) {id : String} {r : Option (Position α) × Atlas α}
    (hrelease : a.release id = .ok r) : a.Becomes r.2 := by
  rcases release_eq_ok hrelease with ⟨-, heq⟩ | ⟨-, -, heq⟩ | ⟨l, s, -, hl, hs, heq⟩
  · rw [heq]
    exact ⟨h, .refl a⟩
  · rw [heq]
    exact ⟨⟨h.covered, h.layered, h.driven, h.spent⟩, .refl a⟩
  · rw [heq]
    exact h.steer hl (Simulation.endures_dragEnd hs) _

theorem select (h : Sound a) (id : Option String) : a.Becomes (a.select id).2 := by
  rw [select_eq]
  exact ⟨⟨h.covered, h.layered, h.driven, h.spent⟩, .refl a⟩

theorem close (h : Sound a) : a.Becomes a.close := by
  have hspent := spent_retire h.alive h.spent
  refine ⟨?_, kept_retire a⟩
  rw [Atlas.close, retire_eq]
  exact ⟨h.covered, fun hmode => ⟨rfl, (h.layered hmode).2⟩,
    fun _ hl => absurd hl.symm (Option.some_ne_none _), hspent⟩

end Sound

/-! ## 5. Layouts -/

section Laying

variable [Scalar α] [Planar α]

theorem ids_newSimulation (a : Atlas α) (g : Graph α) (previous layered : Positions α) :
    (a.newSimulation g previous layered).bodies.map Body.id = g.nodeIds :=
  (Simulation.onward_advanceUpTo _ _).ids.trans (Simulation.ids_create .standard g _ _)

theorem alive_newSimulation (a : Atlas α) (g : Graph α) (previous layered : Positions α) :
    (a.newSimulation g previous layered).destroyed = false :=
  (Simulation.onward_advanceUpTo _ _).alive rfl

/-- **A layout** makes an atlas sound whose simulations are in order.  The places that a layered
layout keeps have to be held. -/
theorem sound_relayout {a : Atlas α} {keep : Bool} (hidle : a.graph = none → a.live = none)
    (hlive : ∀ l, a.live = some l → l.simulation.destroyed = false)
    (hspent : ∀ s ∈ a.retired, s.Spent)
    (hkeep : keep = true → a.mode = .hierarchical → AllPinned a.positions) :
    Sound (a.relayout keep) := by
  have hretire := spent_retire hlive hspent
  rcases a.relayout_cases keep with
    ⟨hgraph, heq⟩ | ⟨g, hgraph, hmode, heq⟩ | ⟨g, s, hgraph, hmode, hs, heq⟩
  · have hnone := hidle hgraph
    rw [heq]
    refine ⟨fun g hg => ?_, fun _ => ⟨hnone, fun _ h => ?_⟩, fun l hl => ?_, hspent⟩
    · cases hgraph.symm.trans hg
    · cases h
    · cases hnone.symm.trans hl
  · have hkept : AllPinned (a.keptPositions keep) := by
      cases keep with
      | false => exact fun _ h => by cases h
      | true => exact hkeep rfl hmode
    rw [heq, retire_eq]
    refine ⟨fun g' hg => ?_, fun _ => ⟨rfl, allPinned_layered hkept⟩, fun l hl => ?_, hretire⟩
    · cases hgraph.symm.trans hg
      exact covers_layered
    · cases hl
  · have hids : s.bodies.map Body.id = g.nodeIds := hs ▸ ids_newSimulation _ g _ _
    have halive : s.destroyed = false := hs ▸ alive_newSimulation _ g _ _
    rw [heq, retire_eq]
    refine ⟨fun g' hg => ?_, fun h => ?_, fun l hl => ?_, hretire⟩
    · cases hgraph.symm.trans hg
      exact Simulation.covers_positions hids
    · cases hmode.symm.trans h
    · cases hl
      exact ⟨halive, ⟨g, hgraph, hids⟩, rfl, rfl⟩

/-- A layout ends the live simulation and makes a new one at most. -/
theorem kept_relayout (a : Atlas α) (keep : Bool) : Kept a (a.relayout keep) := by
  rcases a.relayout_cases keep with ⟨-, heq⟩ | ⟨g, -, -, heq⟩ | ⟨g, s, -, -, -, heq⟩
  · rw [heq]
    exact .refl a
  · rw [heq]
    exact kept_retire a
  · have hidle : a.retire.live = none := by rw [retire_eq]
    rw [heq]
    exact (kept_retire a).trans (kept_of_idle hidle rfl)

/-- **Another graph** brings its own layout; the simulation of the one before it is ended first. -/
theorem becomes_adopt {a : Atlas α} (window : List (Trace α)) (g : Graph α)
    (halive : ∀ l, a.live = some l → l.simulation.destroyed = false)
    (hspent : ∀ s ∈ a.retired, s.Spent) (hpinned : a.mode = .hierarchical → AllPinned a.positions) :
    a.Becomes (a.adopt window g) := by
  have hretire := spent_retire halive hspent
  refine ⟨?_, (kept_retire a).trans
    (kept_relayout { a.close with traces := window, graph := some g } _)⟩
  unfold adopt
  rw [close, retire_eq]
  refine sound_relayout (fun hg => ?_) (fun l hl => ?_) hretire fun _ hmode => hpinned hmode
  · cases hg
  · cases hl

namespace Sound

variable {a : Atlas α}

theorem relayout (h : Sound a) (keep : Bool) : a.Becomes (a.relayout keep) where
  sound := sound_relayout h.idle h.alive h.spent fun _ hmode => (h.layered hmode).2
  kept := kept_relayout a keep

/-- A layout keeps places only in the mode that they come from. -/
theorem layoutIn (h : Sound a) (mode : Mode) (keep : Bool) : a.Becomes (a.layoutIn mode keep) := by
  refine ⟨sound_relayout h.idle h.alive h.spent fun hkeep hmode => ?_,
    kept_relayout { a with mode } _⟩
  obtain ⟨-, hsame⟩ := Bool.and_eq_true_iff.mp hkeep
  exact (h.layered ((eq_of_beq hsame).symm.trans hmode)).2

theorem layout (h : Sound a) {mode : Option Json} {keep : Bool} {a' : Atlas α}
    (hlayout : a.layout mode keep = .ok a') : a.Becomes a' := by
  cases mode with
  | none =>
    cases hlayout
    exact h.relayout keep
  | some value =>
    obtain ⟨mode, -, rfl⟩ := map_eq_ok.mp hlayout
    exact h.layoutIn mode keep

theorem refresh (h : Sound a) {generatedAt : α} {traces : List (Trace α)} {g : Graph α}
    {a' : Atlas α} (hrefresh : a.refresh generatedAt traces = (.ok g, a')) : a.Becomes a' := by
  obtain ⟨-, rfl⟩ := refresh_eq_ok hrefresh
  have hadopt := becomes_adopt (a := { a with generation := a.generation + 1 })
    (window traces) g h.alive h.spent fun hmode => (h.layered hmode).2
  exact ⟨hadopt.sound, hadopt.kept⟩

end Sound

end Laying

/-! ## 6. Runs -/

section Moving

variable [Scalar α] [Planar α]

/-- **One move** keeps an atlas sound and its simulations under their numbers. -/
theorem Sound.make {a a' : Atlas α} (h : Sound a) {move : Move α} (hmove : move.make a = .ok a') :
    a.Becomes a' := by
  cases move with
  | refresh generatedAt traces =>
    obtain ⟨g, hrefresh⟩ := done_eq_ok.mp hmove
    exact h.refresh hrefresh
  | layout mode keep => exact h.layout hmove
  | select id =>
    cases hmove
    exact h.select id
  | drag id x y =>
    obtain ⟨r, hdrag, rfl⟩ := map_eq_ok.mp hmove
    exact h.drag hdrag
  | release id =>
    obtain ⟨r, hrelease, rfl⟩ := map_eq_ok.mp hmove
    exact h.release hrelease
  | start =>
    obtain ⟨r, hstart, rfl⟩ := map_eq_ok.mp hmove
    exact h.start hstart
  | tick n =>
    obtain ⟨b, htick⟩ := done_eq_ok.mp hmove
    rcases h.tickNumber_eq n with ⟨heq, -⟩ | heq | heq
    · have hlive := h.tick
      rw [← heq, htick] at hlive
      exact hlive
    · cases heq.symm.trans htick
      exact ⟨h, .refl a⟩
    · cases heq.symm.trans htick
  | turn =>
    cases hmove
    exact h.turn
  | close =>
    cases hmove
    exact h.close

/-- **A run of moves** keeps what one move keeps. -/
theorem Sound.run {a a' : Atlas α} (h : Sound a) {moves : List (Move α)}
    (hrun : Atlas.run moves a = .ok a') : a.Becomes a' := by
  have hmake : ∀ {a₁ a₂ : Atlas α} {move : Move α},
      a.Becomes a₁ → move.make a₁ = .ok a₂ → a.Becomes a₂ :=
    fun hsofar hmove => hsofar.trans (hsofar.sound.make hmove)
  exact run_keeps hmake ⟨h, .refl a⟩ hrun

/-! ## 7. Every state that is reached -/

/-- **The life of an atlas.**  After any moves that do not fail, an atlas is sound: positions are
those of the nodes, a layered layout is still and held, and the live simulation goes on and gives
the nodes of the graph their positions.  Every simulation that there ever was is still known by its
number, and all but the live one are over: none of them can take a step, neither from outside nor in
a loop of its own, however long one waits. -/
theorem sound_of_run {limits : Thresholds α} {mode : Mode} {layerGap nodeGap : α}
    {pinEndpoints : Bool} {iterations : Int} {earlier later : List (Move α)} {a a' : Atlas α}
    (h : run earlier { limits, mode, layerGap, nodeGap, pinEndpoints, iterations } = .ok a)
    (h' : run later a = .ok a') :
    a'.Sound ∧ a.Kept a' ∧
      (∀ n b, (a'.tickNumber n).1 = .ok (some b) → n = a'.retired.length) ∧
      ∀ s ∈ a'.retired, ∀ n, (Simulation.turns n s).ticks = s.ticks ∧
        (Simulation.turns n s).positions = s.positions := by
  have hlater := ((sound_new ..).run h).sound.run h'
  refine ⟨hlater.sound, hlater.kept, fun n b hb => ?_, fun s hs n => ?_⟩
  · rcases hlater.sound.tickNumber_eq n with ⟨-, hn⟩ | heq | heq
    · exact hn
    · rw [heq] at hb
      cases hb
    · rw [heq] at hb
      cases hb
  · obtain ⟨loops, -, hturns⟩ := (hlater.sound.spent s hs).turns n
    rw [hturns]
    exact ⟨rfl, rfl⟩

end Moving

/-- An atlas in which nothing was done yet. -/
def blank : Atlas Float where
  limits := .standard
  mode := .hierarchical
  layerGap := 200
  nodeGap := 80
  pinEndpoints := true
  iterations := 0

/-- A trace with one answered step. -/
def oneStep : Trace Float where
  source := "7"
  target := "10.0.0.9"
  hops :=
    [{ ttl := .whole 1, hosts := [⟨"10.0.0.1", .text "gateway.example"⟩], loss := 0,
       average := some 12, best := some 11, worst := some 14, jitter := some 1,
       sent := .whole 3, received := .whole 3 }]
  time := 5

/-- A node is moved by hand in both modes. -/
def outing : List (Move Float) :=
  [.refresh 5 [oneStep], .drag "10.0.0.1" 4 5, .layout (some (.text "force")) true, .start,
   .drag "10.0.0.1" 40 50, .select (some "10.0.0.1")]

/-- The node is let go and the simulation replaced, and time goes on. -/
def homeward : List (Move Float) :=
  [.release "10.0.0.1", .close, .refresh 6 [oneStep], .drag "10.0.0.1" 4 5, .start, .turn, .turn]

theorem sound_of_run_homeward : ∃ a a',
    run outing blank = .ok a ∧ run homeward a = .ok a' ∧ a'.Sound ∧ a.Kept a' ∧
      (∀ n b, (a'.tickNumber n).1 = .ok (some b) → n = a'.retired.length) ∧
      ∀ s ∈ a'.retired, ∀ n, (Simulation.turns n s).ticks = s.ticks ∧
        (Simulation.turns n s).positions = s.positions := by
  have hok : (run outing blank >>= run homeward).isOk = true := by decide +kernel
  generalize hrun : (run outing blank >>= run homeward) = r at hok
  cases r with
  | error fault => cases hok
  | ok a' =>
    obtain ⟨a, hout, hhome⟩ := bind_eq_ok.mp hrun
    exact ⟨a, a', hout, hhome, sound_of_run hout hhome⟩

end Atlas

end PathAtlas
