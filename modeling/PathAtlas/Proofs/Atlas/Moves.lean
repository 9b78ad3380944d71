/-
# What can be done with an atlas

A move (`Move`) is anything that is done with an atlas or that time does to it: a refresh, a layout,
a selection, a drag, a step of some simulation, a turn of all loops.  Each operation is taken apart
here once, into the few things that it can come to (`relayout_cases`, `drag_eq_ok`, `release_eq_ok`
and their like), so that what moves keep is proved case by case without opening them again.

Main results:

* `run_keeps`:       what every single move keeps, a run of moves keeps;
* `drag_eq_ok`:      a drag does nothing to an unknown node, and else sets a position or moves a
                     simulation along with it;
* `relayout_cases`:  a layout stands in columns or comes from a simulation of its own;
* `refresh_eq_ok`:   a refresh that succeeds is a graph of the window and its adoption.

A run ends with the first move that fails, and what that move had done by then is lost with it.
Where that matters, as for a refresh that counts although it has failed, the operation itself is
looked at and not a run.
-/
import PathAtlas.Atlas.Basic
import PathAtlas.Proofs.Outcome

namespace PathAtlas.Atlas

open PathAtlas.Topology PathAtlas.Layout PathAtlas.Motion

variable {α : Type}

/-! ## 1. Moves -/

/-- What is done with an atlas, or what time does to it. -/
inductive Move (α : Type) where
  | refresh (generatedAt : α) (traces : List (Trace α))
  | layout (mode : Option Json) (keep : Bool)
  | select (id : Option String)
  | drag (id : String) (x y : α)
  | release (id : String)
  | start
  /-- A step of the simulation of a number, be it the live one or one that was replaced. -/
  | tick (number : Nat)
  /-- A turn of all background loops. -/
  | turn
  | close

/-- The atlas after something that did not fail. -/
def done {β : Type} (r : Except Fault β × Atlas α) : Except Fault (Atlas α) := r.1.map fun _ => r.2

section Moving

variable [Scalar α] [Planar α]

/-- The atlas after a move that does not fail. -/
def Move.make : Move α → Atlas α → Except Fault (Atlas α)
  | .refresh generatedAt traces, a => done (a.refresh generatedAt traces)
  | .layout mode keep, a => a.layout mode keep
  | .select id, a => .ok (a.select id).2
  | .drag id x y, a => (a.drag id x y).map Prod.snd
  | .release id, a => (a.release id).map Prod.snd
  | .start, a => a.startSimulation.map Prod.snd
  | .tick n, a => done (a.tickNumber n)
  | .turn, a => .ok a.turn
  | .close, a => .ok a.close

/-- The atlas after some moves of which none fails. -/
def run (moves : List (Move α)) (a : Atlas α) : Except Fault (Atlas α) :=
  moves.foldlM (fun a move => move.make a) a

/-- **What every move keeps**, a run keeps. -/
theorem run_keeps {P : Atlas α → Prop}
    (hmake : ∀ {a a' : Atlas α} {move : Move α}, P a → move.make a = .ok a' → P a')
    {moves : List (Move α)} {a a' : Atlas α} (h : P a) (hrun : run moves a = .ok a') : P a' := by
  induction moves generalizing a with
  | nil =>
    cases hrun
    exact h
  | cons move moves ih =>
    obtain ⟨next, hmove, hrest⟩ := bind_eq_ok.mp hrun
    exact ih (hmake h hmove) hrest

end Moving

variable {a a' : Atlas α}

theorem done_eq_ok {β : Type} {r : Except Fault β × Atlas α} :
    done r = .ok a ↔ ∃ b, r = (.ok b, a) := by
  obtain ⟨outcome, after⟩ := r
  cases outcome <;> simp [done, Except.map]

/-! ## 2. Nodes and selections -/

theorem mem_nodeIds_of_hasNode {id : String} (h : a.hasNode id = true) {g : Graph α}
    (hg : a.graph = some g) : id ∈ g.nodeIds := by
  rw [hasNode, hg] at h
  exact List.contains_iff_mem.mp h

/-- A selection touches nothing else. -/
theorem select_eq (a : Atlas α) (id : Option String) :
    (a.select id).2 = { a with selected := id, selections := a.selections + 1 } := by
  unfold select
  simp only
  split
  · split <;> rfl
  · rfl

/-! ## 3. Simulations -/

/-- Ending the live simulation touches nothing else. -/
theorem retire_eq (a : Atlas α) :
    a.retire = { a with live := none, retired := a.retire.retired } := by
  unfold retire
  split
  · rename_i hlive
    rw [← hlive]
  · rfl

/-- A step is followed when it counts and its simulation is of this generation. -/
theorem follow_cases (a : Atlas α) (l : LiveSimulation α) (s : Simulation α) :
    s.ticks ≠ l.simulation.ticks ∧ l.generation = a.generation ∧ a.follow l s
        = { a with live := some { l with simulation := s }, positions := s.positions } ∨
      (s.ticks = l.simulation.ticks ∨ l.generation ≠ a.generation) ∧
        a.follow l s = { a with live := some { l with simulation := s } } := by
  unfold follow
  simp only
  split
  · rename_i hmoved
    exact .inl ⟨hmoved.1, hmoved.2, rfl⟩
  · rename_i hstill
    exact .inr ⟨Decidable.or_iff_not_not_and_not.mpr fun h => hstill ⟨h.1, not_not.mp h.2⟩, rfl⟩

/-- A loop begins where there is a simulation, and nothing else changes. -/
theorem start_eq_ok {r : Bool × Atlas α} (h : a.startSimulation = .ok r) :
    a.live = none ∧ r.2 = a ∨
      ∃ l s, a.live = some l ∧ l.simulation.start = .ok s ∧
        r.2 = { a with live := some { l with simulation := s } } := by
  unfold startSimulation at h
  split at h
  · rename_i hlive
    cases h
    exact .inl ⟨hlive, rfl⟩
  · rename_i l hl
    obtain ⟨s, hs, h⟩ := bind_eq_ok.mp h
    cases h
    exact .inr ⟨l, s, hl, hs, rfl⟩

section Stepping

variable [Scalar α] [Planar α]

theorem tick_of_idle (hl : a.live = none) : a.tick = (.ok none, a) := by
  rw [tick, hl]

theorem tick_of_live {l : LiveSimulation α} (hl : a.live = some l) :
    a.tick = (l.simulation.tick.1.map some, a.follow l l.simulation.tick.2) := by
  rw [tick, hl]

theorem turn_of_idle (hl : a.live = none) :
    a.turn = { a with retired := a.retired.map Simulation.turn } := by
  rw [turn]
  simp only [hl]

theorem turn_of_live {l : LiveSimulation α} (hl : a.live = some l) :
    a.turn = ({ a with retired := a.retired.map Simulation.turn } : Atlas α).follow l
      l.simulation.turn := by
  rw [turn]
  simp only [hl]

end Stepping

/-! ## 4. Hands -/

section Dragging

variable [Scalar α] {id : String} {x y : α} {r : Option (Position α) × Atlas α}

theorem drag_of_unknown (hnode : a.hasNode id = false) : a.drag id x y = .ok (none, a) := by
  rw [drag, hnode]
  rfl

theorem drag_of_idle (hnode : a.hasNode id = true) (hl : a.live = none) :
    a.drag id x y = .ok (some ⟨x, y, true⟩,
      { a with positions := a.positions.set id ⟨x, y, true⟩ }) := by
  rw [drag, hnode]
  simp only [hl]
  rw [Table.find?_set_self]
  rfl

/-- A drag takes hold of a node, unless it is in hand, and moves it. -/
theorem drag_of_live {l : LiveSimulation α} (hnode : a.hasNode id = true) (hl : a.live = some l) :
    a.drag id x y
      = ((if a.dragging.contains id then .ok l.simulation else l.simulation.dragStart id) >>=
          fun s => s.dragTo id x y).map fun s => (s.positions.find? id,
            { a with live := some { l with simulation := s }, positions := s.positions
                     dragging := Order.insertText id a.dragging }) := by
  rw [drag, hnode]
  simp only [hl]
  have hdragTo : ∀ s : Simulation α,
      (s.dragTo id x y >>= fun s => .ok (s.positions.find? id,
        { a with live := some { l with simulation := s }, positions := s.positions
                 dragging := Order.insertText id a.dragging }))
      = (s.dragTo id x y).map fun s => (s.positions.find? id,
        { a with live := some { l with simulation := s }, positions := s.positions
                 dragging := Order.insertText id a.dragging }) := fun s => by
    cases s.dragTo id x y <;> rfl
  cases a.dragging.contains id with
  | true => exact hdragTo l.simulation
  | false =>
    cases l.simulation.dragStart id with
    | error fault => rfl
    | ok s => exact hdragTo s

/-- A drag changes nothing without the node, a position without a simulation, or a body. -/
theorem drag_eq_ok (h : a.drag id x y = .ok r) :
    a.hasNode id = false ∧ r.2 = a ∨
      a.hasNode id = true ∧ a.live = none ∧
        r.2 = { a with positions := a.positions.set id ⟨x, y, true⟩ } ∨
      ∃ l s s', a.hasNode id = true ∧ a.live = some l ∧
        (a.dragging.contains id = true ∧ s = l.simulation ∨
          a.dragging.contains id = false ∧ l.simulation.dragStart id = .ok s) ∧
        s.dragTo id x y = .ok s' ∧
        r.2 = { a with live := some { l with simulation := s' }, positions := s'.positions
                       dragging := Order.insertText id a.dragging } := by
  cases hnode : a.hasNode id with
  | false =>
    rw [drag_of_unknown hnode] at h
    cases h
    exact .inl ⟨rfl, rfl⟩
  | true =>
    rcases a.live.eq_none_or_eq_some with hl | ⟨l, hl⟩
    · rw [drag_of_idle hnode hl] at h
      cases h
      exact .inr (.inl ⟨rfl, hl, rfl⟩)
    · rw [drag_of_live hnode hl] at h
      obtain ⟨s', hdrag, rfl⟩ := map_eq_ok.mp h
      obtain ⟨s, hs, hs'⟩ := bind_eq_ok.mp hdrag
      refine .inr (.inr ⟨l, s, s', rfl, hl, ?_, hs', rfl⟩)
      split at hs
      · rename_i hdragging
        exact .inl ⟨hdragging, (Except.ok.inj hs).symm⟩
      · rename_i hdragging
        exact .inr ⟨Bool.eq_false_iff.mpr hdragging, hs⟩

theorem release_of_unknown (hnode : a.hasNode id = false) : a.release id = .ok (none, a) := by
  rw [release, hnode]
  rfl

theorem release_of_idle (hnode : a.hasNode id = true) (hl : a.live = none) :
    a.release id
      = .ok (a.positions.find? id, { a with dragging := a.dragging.filter (· ≠ id) }) := by
  rw [release, hnode]
  simp only [hl]
  rfl

theorem release_of_live {l : LiveSimulation α} (hnode : a.hasNode id = true)
    (hl : a.live = some l) :
    a.release id = (l.simulation.dragEnd id (a.pinEndpoints && a.isEndpoint id)).map fun s =>
      (s.positions.find? id,
        { a with live := some { l with simulation := s }, positions := s.positions
                 dragging := a.dragging.filter (· ≠ id) }) := by
  rw [release, hnode]
  simp only [hl]
  show (l.simulation.dragEnd id (a.pinEndpoints && a.isEndpoint id) >>= _) = _
  cases l.simulation.dragEnd id (a.pinEndpoints && a.isEndpoint id) <;> rfl

/-- The end of a drag forgets it, and lets a body go when there is a simulation. -/
theorem release_eq_ok (h : a.release id = .ok r) :
    a.hasNode id = false ∧ r.2 = a ∨
      a.hasNode id = true ∧ a.live = none ∧
        r.2 = { a with dragging := a.dragging.filter (· ≠ id) } ∨
      ∃ l s, a.hasNode id = true ∧ a.live = some l ∧
        l.simulation.dragEnd id (a.pinEndpoints && a.isEndpoint id) = .ok s ∧
        r.2 = { a with live := some { l with simulation := s }, positions := s.positions
                       dragging := a.dragging.filter (· ≠ id) } := by
  cases hnode : a.hasNode id with
  | false =>
    rw [release_of_unknown hnode] at h
    cases h
    exact .inl ⟨rfl, rfl⟩
  | true =>
    rcases a.live.eq_none_or_eq_some with hl | ⟨l, hl⟩
    · rw [release_of_idle hnode hl] at h
      cases h
      exact .inr (.inl ⟨rfl, hl, rfl⟩)
    · rw [release_of_live hnode hl] at h
      obtain ⟨s, hs, rfl⟩ := map_eq_ok.mp h
      exact .inr (.inr ⟨l, s, rfl, hl, hs, rfl⟩)

end Dragging

/-! ## 5. Layouts and refreshes -/

section Laying

variable [Scalar α] [Planar α]

/-- The positions that a layout may keep. -/
def keptPositions (a : Atlas α) (keep : Bool) : Positions α := if keep then a.positions else []

/-- A layout in columns ends the live simulation, and one by forces makes another one. -/
theorem relayout_cases (a : Atlas α) (keep : Bool) :
    a.graph = none ∧ a.relayout keep = { a with positions := [] } ∨
      (∃ g, a.graph = some g ∧ a.mode = .hierarchical ∧ a.relayout keep
        = { a.retire with positions := (Layout.layered a.layerGap a.nodeGap g).map fun (id, p) =>
              (id, ((a.keptPositions keep).find? id).getD p) }) ∨
      ∃ g s, a.graph = some g ∧ a.mode = .force ∧
        s = a.retire.newSimulation g (a.keptPositions keep)
          (Layout.layered a.layerGap a.nodeGap g) ∧
        a.relayout keep
          = { a.retire with live := some ⟨s, a.generation⟩, positions := s.positions } := by
  have hmode : a.retire.mode = a.mode := by rw [retire_eq]
  have hgeneration : a.retire.generation = a.generation := by rw [retire_eq]
  unfold relayout
  cases hg : a.graph with
  | none => exact .inl ⟨rfl, rfl⟩
  | some g =>
    simp only [hmode, hgeneration]
    cases hm : a.mode with
    | hierarchical => exact .inr (.inl ⟨g, rfl, rfl, rfl⟩)
    | force => exact .inr (.inr ⟨g, _, rfl, rfl, rfl, rfl⟩)

/-- A layout changes simulations and positions alone. -/
theorem relayout_eq (a : Atlas α) (keep : Bool) :
    a.relayout keep = { a with
      live := (a.relayout keep).live
      retired := (a.relayout keep).retired
      positions := (a.relayout keep).positions } := by
  rcases a.relayout_cases keep with ⟨-, heq⟩ | ⟨g, -, -, heq⟩ | ⟨g, s, -, -, -, heq⟩
  · rw [heq]
  · rw [heq, retire_eq]
  · rw [heq, retire_eq]

theorem graph_relayout (a : Atlas α) (keep : Bool) : (a.relayout keep).graph = a.graph := by
  rw [relayout_eq]

theorem traces_relayout (a : Atlas α) (keep : Bool) : (a.relayout keep).traces = a.traces := by
  rw [relayout_eq]

theorem limits_relayout (a : Atlas α) (keep : Bool) : (a.relayout keep).limits = a.limits := by
  rw [relayout_eq]

theorem mode_relayout (a : Atlas α) (keep : Bool) : (a.relayout keep).mode = a.mode := by
  rw [relayout_eq]

theorem dragging_relayout (a : Atlas α) (keep : Bool) :
    (a.relayout keep).dragging = a.dragging := by
  rw [relayout_eq]

/-- A layout in the same mode keeps positions when that is asked for. -/
theorem layout_eq_ok {mode : Option Json} {keep : Bool} (h : a.layout mode keep = .ok a') :
    ∃ mode' keep', a' = ({ a with mode := mode' } : Atlas α).relayout keep' ∧
      (mode' = a.mode → keep' = keep) := by
  cases mode with
  | none =>
    cases h
    exact ⟨a.mode, keep, rfl, fun _ => rfl⟩
  | some value =>
    obtain ⟨mode', -, rfl⟩ := map_eq_ok.mp h
    refine ⟨mode', keep && mode' == a.mode, rfl, fun hsame => ?_⟩
    rw [hsame, beq_self_eq_true, Bool.and_true]

/-- The traces that a refresh makes a graph of. -/
def window (traces : List (Trace α)) : List (Trace α) :=
  Trace.sortByTime (traces.filter Trace.hasHops)

omit [Planar α] in
theorem window_perm (traces : List (Trace α)) :
    (window traces).Perm (traces.filter Trace.hasHops) := Order.ascending_perm Trace.time _

variable {generatedAt : α} {traces : List (Trace α)}

omit [Planar α] in
theorem mem_window {t : Trace α} : t ∈ window traces ↔ t ∈ traces ∧ t.hasHops = true := by
  rw [(window_perm traces).mem_iff, List.mem_filter]

theorem refresh_of_ok {g : Graph α}
    (h : Graph.ofTraces a.limits generatedAt (window traces) = .ok g) :
    a.refresh generatedAt traces
      = (.ok g, ({ a with generation := a.generation + 1 } : Atlas α).adopt (window traces) g) := by
  rw [window] at h ⊢
  simp only [refresh, h]

theorem refresh_of_error {fault : Fault}
    (h : Graph.ofTraces a.limits generatedAt (window traces) = .error fault) :
    a.refresh generatedAt traces
      = (.error fault, { a with generation := a.generation + 1 }) := by
  rw [window] at h
  simp only [refresh, h]

/-- What a refresh that does not fail makes of an atlas. -/
theorem refresh_eq_ok {g : Graph α}
    (h : a.refresh generatedAt traces = (.ok g, a')) :
    Graph.ofTraces a.limits generatedAt (window traces) = .ok g ∧
      a' = ({ a with generation := a.generation + 1 } : Atlas α).adopt (window traces) g := by
  cases hbuilt : Graph.ofTraces a.limits generatedAt (window traces) with
  | error fault =>
    rw [refresh_of_error hbuilt] at h
    cases h
  | ok g =>
    rw [refresh_of_ok hbuilt] at h
    cases h
    exact ⟨rfl, rfl⟩

/-- **After a refresh** an atlas holds the window and the graph that was made of it. -/
theorem holds_of_refresh {g : Graph α} (h : a.refresh generatedAt traces = (.ok g, a')) :
    Graph.ofTraces a.limits generatedAt (window traces) = .ok g ∧ a'.traces = window traces ∧
      a'.graph = some g ∧ a'.limits = a.limits := by
  obtain ⟨hbuilt, hadopt⟩ := refresh_eq_ok h
  have hclosed : ({ a with generation := a.generation + 1 } : Atlas α).close.limits = a.limits := by
    rw [close, retire_eq]
  refine ⟨hbuilt, ?_, ?_, ?_⟩
  · rw [hadopt, adopt, traces_relayout]
  · rw [hadopt, adopt, graph_relayout]
  · rw [hadopt, adopt, limits_relayout]
    exact hclosed

end Laying

end PathAtlas.Atlas
