/-
# Nodes that are dragged

A node that was dragged to a place stays there (`InHand`): its position says so, and the live
simulation, if there is one, holds it there.  Whatever does not grip it leaves it so, and a refresh
whose graph has the same nodes takes the position over, into a layered layout as well as into the
beginning of another simulation.  So it is in hand until it is let go (`Spared.inHand`), and then it
is still where it was.

A refresh that changes the nodes takes nothing over: it gives the positions that a new atlas would
have (`positions_refresh`).

The statement `dragged_node_stays` is about every atlas that moves can reach and every row of moves
that grip other nodes.  Both modes are covered by it, and changing the mode keeps no positions.
-/
import PathAtlas.Proofs.Atlas.Handling

namespace PathAtlas.Atlas

open PathAtlas.Topology PathAtlas.Layout PathAtlas.Motion

variable {α : Type}

/-! ## 1. Leaving a node alone -/

/-- The move does not grip a node, and lays nothing out unless it is a refresh. -/
def Move.Spares (id : String) : Move α → Prop
  | .layout .. | .close => False
  | move => ¬ move.Grips id

/-- What comes of an atlas by moves that do not fail, spare a node, and change no nodes. -/
inductive Spared [Scalar α] [Planar α] (id : String) (a : Atlas α) : Atlas α → Prop where
  | refl : Spared id a a
  | step {a' a'' : Atlas α} {move : Move α} (h : Spared id a a') (hspares : move.Spares id)
      (hmove : move.make a' = .ok a'') (hnodes : ∀ i, a''.hasNode i = a'.hasNode i) :
      Spared id a a''

theorem Reached.spared [Scalar α] [Planar α] {id : String} {a a' : Atlas α} (h : Reached a)
    (hspared : Spared id a a') : Reached a' := by
  induction hspared with
  | refl => exact h
  | step _ _ hmove _ ih => exact ih.make hmove

/-! ## 2. In hand -/

/-- A node that stands at a place and is held there. -/
structure InHand (id : String) (x y : α) (a : Atlas α) : Prop where
  node : a.hasNode id = true
  place : a.positions.find? id = some ⟨x, y, true⟩
  held : ∀ l, a.live = some l → l.simulation.Holds id x y
  lively : a.mode = .force → a.live.isSome = true

section Holding

variable {a a' : Atlas α} {id : String} {x y : α}

/-- A node stays in hand through anything that does not grip it. -/
theorem Handles.inHand {grips : String → Prop} (h : Handles grips a a') (hfree : ¬ grips id)
    (hhand : InHand id x y a) : InHand id x y a' := by
  have hnode : a'.hasNode id = true := by
    rw [hasNode, h.graph]
    exact hhand.node
  cases hl : a.live with
  | none =>
    obtain ⟨hidle, hplaces⟩ := h.idle hl
    refine ⟨hnode, (hplaces id hfree).trans hhand.place, fun l' hl' => ?_, fun hmode => ?_⟩
    · cases hidle.symm.trans hl'
    · have hlive := hhand.lively (h.mode ▸ hmode)
      rw [hl] at hlive
      cases hlive
  | some l =>
    obtain ⟨l', hl', hguided⟩ := h.live l hl
    have hheld : l'.simulation.Holds id x y := (hhand.held l hl).follow hguided.follow hfree
    refine ⟨hnode, ?_, fun after hafter => ?_, fun _ => hl' ▸ rfl⟩
    · rcases hguided.places with heq | ⟨heq, -⟩
      · rw [heq, hheld.place]
      · rw [heq, hhand.place]
    · cases hl'.symm.trans hafter
      exact hheld

/-- Two graphs have the same nodes when they have the same ids. -/
theorem sameNodes_iff {g h : Graph α} :
    sameNodes g h = true ↔ ∀ id, g.contains id = h.contains id := by
  rw [sameNodes, beq_iff_eq]
  constructor
  · intro heq id
    rw [Graph.contains, Graph.contains, Bool.eq_iff_iff, List.contains_iff_mem,
      List.contains_iff_mem, ← Order.mem_textSet, heq, Order.mem_textSet]
  · intro hsame
    refine Order.textSet_eq_of_mem_iff fun id => ?_
    rw [← List.contains_iff_mem, ← List.contains_iff_mem]
    exact Bool.eq_iff_iff.mp (hsame id)

/-- A refresh takes positions over from a graph with the same nodes. -/
theorem any_sameNodes_iff {g : Graph α} : a.graph.any (sameNodes g) = true ↔
    a.graph.isSome = true ∧ ∀ i, g.contains i = a.hasNode i := by
  unfold hasNode
  cases a.graph with
  | none => simp
  | some g₀ => simp [sameNodes_iff]

variable [Scalar α]

/-- **A drag** takes a node in hand, and answers where it is. -/
theorem inHand_drag {r : Option (Position α) × Atlas α} (hnode : a.hasNode id = true)
    (hlively : a.mode = .force → a.live.isSome = true) (h : a.drag id x y = .ok r) :
    r.1 = some ⟨x, y, true⟩ ∧ InHand id x y r.2 := by
  cases hl : a.live with
  | none =>
    rw [drag_of_idle hnode hl] at h
    cases h
    refine ⟨rfl, hnode, Table.find?_set_self _ _ _, fun l hl' => ?_, hlively⟩
    cases hl.symm.trans hl'
  | some l =>
    rw [drag_of_live hnode hl] at h
    obtain ⟨s', hdrag, rfl⟩ := map_eq_ok.mp h
    obtain ⟨s, -, hs'⟩ := bind_eq_ok.mp hdrag
    have hheld := Simulation.holds_dragTo hs'
    refine ⟨hheld.place, hnode, hheld.place, fun l' hl' => ?_, fun _ => rfl⟩
    cases hl'
    exact hheld

variable [Planar α]

/-! ## 3. Letting go -/

/-- **A release** leaves the node where it is.  It stays pinned in a layered layout, and else when
it is an endpoint that is held. -/
theorem InHand.release (h : InHand id x y a) (hrigged : Rigged a) : ∃ pin a',
    a.release id = .ok (some ⟨x, y, pin⟩, a') ∧ a'.positions.find? id = some ⟨x, y, pin⟩ ∧
      (pin = true ↔ a.mode = .hierarchical ∨ a.pinEndpoints = true ∧ a.isEndpoint id = true) := by
  cases hl : a.live with
  | none =>
    have hmode : a.mode = .hierarchical := by
      cases hm : a.mode with
      | hierarchical => rfl
      | force =>
        have hlive := h.lively hm
        rw [hl] at hlive
        cases hlive
    refine ⟨true, { a with dragging := a.dragging.filter (· ≠ id) }, ?_, h.place,
      iff_of_true rfl (.inl hmode)⟩
    rw [release_of_idle h.node hl, h.place]
  | some l =>
    have hmode : a.mode ≠ .hierarchical := fun hm => nomatch hl.symm.trans (hrigged.layered hm)
    obtain ⟨s, hs, hplace⟩ := Simulation.dragEnd_ok (hrigged.fits l hl).alive (h.held l hl)
      (a.pinEndpoints && a.isEndpoint id)
    refine ⟨_, { a with live := some { l with simulation := s }, positions := s.positions
                        dragging := a.dragging.filter (· ≠ id) }, ?_, hplace, ?_⟩
    · rw [release_of_live h.node hl, hs, ← hplace]
      rfl
    · rw [Bool.and_eq_true, or_iff_right hmode]

/-! ## 4. Refreshes -/

/-- A layout that keeps the positions keeps a node in hand. -/
theorem inHand_relayout {g : Graph α} (hg : a.graph = some g) (hid : id ∈ g.nodeIds)
    (hplace : a.positions.find? id = some ⟨x, y, true⟩) : InHand id x y (a.relayout true) := by
  have hnode : (a.graph.any (·.contains id)) = true := by
    rw [hg]
    exact List.contains_iff_mem.mpr hid
  rcases a.relayout_cases true with
    ⟨hnone, -⟩ | ⟨g', hg', hmode, heq⟩ | ⟨g', s, hg', hmode, hs, heq⟩
  · cases hnone.symm.trans hg
  · cases hg.symm.trans hg'
    -- a layered layout has a place for every node, which the kept position replaces
    have hnames := (names_layered_perm a.layerGap a.nodeGap g).mem_iff.mpr
      (Order.mem_distinct.mpr hid)
    obtain ⟨p, hp⟩ := Table.exists_find? hnames
    have hkept := Table.find?_map_values (fun id p => ((a.keptPositions true).find? id).getD p)
      (layered a.layerGap a.nodeGap g) id
    rw [hp, Option.map_some, keptPositions, if_pos rfl, hplace] at hkept
    rw [heq, retire_eq]
    exact ⟨hnode, hkept, fun _ hl => (nomatch hl), fun h => nomatch hmode.symm.trans h⟩
  · cases hg.symm.trans hg'
    have hheld : s.Holds id x y := hs ▸ holds_newSimulation hid hplace
    rw [heq, retire_eq]
    refine ⟨hnode, hheld.place, fun l hl => ?_, fun _ => rfl⟩
    cases hl
    exact hheld

theorem hasNode_adopt (a : Atlas α) (window : List (Trace α)) (g : Graph α) (i : String) :
    (a.adopt window g).hasNode i = g.contains i := by
  rw [adopt, hasNode, graph_relayout]
  rfl

/-- **A refresh that keeps the nodes** keeps each of them in hand. -/
theorem InHand.refresh (h : InHand id x y a) {generatedAt : α} {traces : List (Trace α)}
    {g : Graph α} (hrefresh : a.refresh generatedAt traces = (.ok g, a'))
    (hnodes : ∀ i, a'.hasNode i = a.hasNode i) : InHand id x y a' := by
  obtain ⟨-, rfl⟩ := refresh_eq_ok hrefresh
  simp only [hasNode_adopt] at hnodes
  have hgraph : a.graph.isSome = true := by
    have hnode := h.node
    cases hg : a.graph with
    | none =>
      rw [hasNode, hg] at hnode
      cases hnode
    | some g₀ => rfl
  have hstable : a.graph.any (sameNodes g) = true := any_sameNodes_iff.mpr ⟨hgraph, hnodes⟩
  have hid : id ∈ g.nodeIds := List.contains_iff_mem.mp ((hnodes id).trans h.node)
  rw [adopt, close, retire_eq]
  simp only [hstable]
  exact inHand_relayout rfl hid h.place

/-- **A node that is left alone** stays in hand. -/
theorem Spared.inHand {a₀ : Atlas α} (h : Spared id a₀ a) (hhand : InHand id x y a₀) :
    InHand id x y a := by
  induction h with
  | refl => exact hhand
  | @step a a' move _ hspares hmove hnodes ih =>
    cases move with
    | refresh generatedAt traces =>
      obtain ⟨g, hrefresh⟩ := done_eq_ok.mp hmove
      exact ih.refresh hrefresh hnodes
    | layout | close => exact hspares.elim
    | select | drag | release | start | tick | turn =>
      exact (handles_make hmove not_false).inHand hspares ih

/-- A new atlas with the same settings. -/
def renewed (a : Atlas α) : Atlas α where
  limits := a.limits
  mode := a.mode
  layerGap := a.layerGap
  nodeGap := a.nodeGap
  pinEndpoints := a.pinEndpoints
  iterations := a.iterations

/-- The positions of a layout that keeps none. -/
def freshPositions (a : Atlas α) (g : Graph α) : Positions α :=
  let layered := Layout.layered a.layerGap a.nodeGap g
  match a.mode with
  | .hierarchical => layered
  | .force => (a.newSimulation g [] layered).positions

/-- A layout that keeps nothing depends on the graph and the settings alone. -/
theorem positions_relayout {g : Graph α} (hg : a.graph = some g) :
    (a.relayout false).positions = a.freshPositions g := by
  rw [freshPositions]
  rcases a.relayout_cases false with
    ⟨hnone, -⟩ | ⟨g', hg', hmode, heq⟩ | ⟨g', s, hg', hmode, hs, heq⟩
  · cases hnone.symm.trans hg
  · cases hg.symm.trans hg'
    rw [heq, hmode]
    exact List.map_id' _
  · cases hg.symm.trans hg'
    rw [heq, hmode, hs, newSimulation_retire]
    rfl

theorem positions_adopt {g : Graph α} (h : a.graph.any (sameNodes g) = false)
    (window : List (Trace α)) : (a.adopt window g).positions = a.freshPositions g := by
  rw [adopt, h, positions_relayout rfl, close, retire_eq]
  rfl

/-- **A refresh that changes the nodes** takes no position over. -/
theorem positions_refresh {generatedAt : α} {traces : List (Trace α)} {g : Graph α}
    (hrefresh : a.refresh generatedAt traces = (.ok g, a'))
    (hchanged : ¬ ∀ i, a'.hasNode i = a.hasNode i) :
    a'.positions = (a.renewed.refresh generatedAt traces).2.positions ∧
      (a.mode = .hierarchical → a'.positions = layered a.layerGap a.nodeGap g) := by
  obtain ⟨hbuilt, rfl⟩ := refresh_eq_ok hrefresh
  simp only [hasNode_adopt] at hchanged
  have hmoved : a.graph.any (sameNodes g) = false :=
    Bool.eq_false_iff.mpr fun hsame => hchanged (any_sameNodes_iff.mp hsame).2
  have hpositions := positions_adopt (a := { a with generation := a.generation + 1 }) hmoved
    (window traces)
  rw [refresh_of_ok (a := a.renewed) hbuilt, hpositions, positions_adopt rfl]
  refine ⟨rfl, fun hmode => ?_⟩
  rw [freshPositions]
  simp only [hmode]

end Holding

/-! ## 5. Until it is let go -/

section Moving

variable [Scalar α] [Planar α]

/-- **A dragged node stays where it was put.**  In every state that is reached, and in force mode
with a live simulation, a drag takes a node of the graph to its place; it does not fail where the
heat of a new simulation remains a real number.  The node stays there, pinned, whatever is done that
spares it, through refreshes that keep the nodes too, and when it is let go it still stays.  It is
pinned then in a layered layout, and by forces when it is an endpoint that is held.  A refresh that
changes the nodes lays them out as a new atlas would. -/
theorem dragged_node_stays {a₀ : Atlas α} (h : Reached a₀) {id : String}
    (hnode : a₀.hasNode id = true) (hlive : a₀.mode = .force → a₀.live.isSome = true) (x y : α) :
    ((Cooling.share? (Settings.standard : Settings α).alphaMin).isSome = true →
      ∃ r, a₀.drag id x y = .ok r) ∧
    (∀ p a, a₀.drag id x y = .ok (p, a) → p = some ⟨x, y, true⟩ ∧ ∀ a', Spared id a a' →
      a'.positions.find? id = some ⟨x, y, true⟩ ∧
      ∃ pin a'', a'.release id = .ok (some ⟨x, y, pin⟩, a'') ∧
        a''.positions.find? id = some ⟨x, y, pin⟩ ∧
        (pin = true ↔
          a'.mode = .hierarchical ∨ a'.pinEndpoints = true ∧ a'.isEndpoint id = true)) ∧
    ∀ (a a' : Atlas α) (g : Graph α) (generatedAt : α) (traces : List (Trace α)),
      a.refresh generatedAt traces = (.ok g, a') → (¬ ∀ i, a'.hasNode i = a.hasNode i) →
        a'.positions = (a.renewed.refresh generatedAt traces).2.positions ∧
        (a.mode = .hierarchical → a'.positions = layered a.layerGap a.nodeGap g) := by
  refine ⟨fun hshare => drag_ok h.rigged hnode hshare x y, fun p a hdrag => ?_,
    fun a a' g generatedAt traces hrefresh => positions_refresh hrefresh⟩
  obtain ⟨hanswer, hhand⟩ := inHand_drag hnode hlive hdrag
  have hmove : Move.make (.drag id x y) a₀ = .ok a := map_eq_ok.mpr ⟨_, hdrag, rfl⟩
  refine ⟨hanswer, fun a' hspared => ?_⟩
  have hstill := hspared.inHand hhand
  exact ⟨hstill.place, hstill.release ((h.make hmove).spared hspared).rigged⟩

end Moving

/-- A node is dragged in a live simulation, and the graph refreshed meanwhile. -/
theorem dragged_node_stays_settingOut : ∃ a r a', run settingOut blank = .ok a ∧
    a.drag "10.0.0.1" 40 50 = .ok r ∧ Move.make (.refresh 6 [oneStep]) r.2 = .ok a' ∧
    a'.positions.find? "10.0.0.1" = some ⟨40, 50, true⟩ ∧
    ∃ pin a'', a'.release "10.0.0.1" = .ok (some ⟨40, 50, pin⟩, a'') ∧
      a''.positions.find? "10.0.0.1" = some ⟨40, 50, pin⟩ := by
  have hchecked : (run settingOut blank).toOption.any (fun a =>
      a.live.isSome && a.hasNode "10.0.0.1" && (a.drag "10.0.0.1" 40 50).toOption.any fun r =>
        (Move.make (.refresh 6 [oneStep]) r.2).toOption.any fun a' =>
          a'.graph.map Graph.nodeIds == r.2.graph.map Graph.nodeIds) = true := by
    decide +kernel
  obtain ⟨a, hrun, hchecked⟩ := exists_of_any hchecked
  obtain ⟨hfirst, hchecked⟩ := Bool.and_eq_true_iff.mp hchecked
  obtain ⟨hlive, hnode⟩ := Bool.and_eq_true_iff.mp hfirst
  obtain ⟨r, hdrag, hchecked⟩ := exists_of_any hchecked
  obtain ⟨a', hrefresh, hids⟩ := exists_of_any hchecked
  have hnodes : ∀ i, a'.hasNode i = r.2.hasNode i := fun i => by
    have hany := congrArg (Option.any fun ids => ids.contains i) (eq_of_beq hids)
    rw [Option.any_map, Option.any_map] at hany
    exact hany
  have hreached : Reached a := (Reached.new ..).run hrun
  obtain ⟨-, hstays, -⟩ := dragged_node_stays hreached hnode (fun _ => hlive) 40 50
  obtain ⟨-, hspared⟩ := hstays r.1 r.2 hdrag
  have hspares : Move.Spares "10.0.0.1" (.refresh 6 [oneStep]) := not_false
  obtain ⟨hplace, pin, a'', hrelease, hafter, -⟩ :=
    hspared a' (.step .refl hspares hrefresh hnodes)
  exact ⟨a, r, a', hrun, hdrag, hrefresh, hplace, pin, a'', hrelease, hafter⟩

end PathAtlas.Atlas
