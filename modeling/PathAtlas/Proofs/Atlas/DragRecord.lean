/-
# The record of drags

An atlas keeps a record of the nodes that are being dragged, beside the simulation that holds them.
The two agree (`Tracked`) when every node on record is pinned in the live simulation.  Hands and
time keep them in agreement, and so do refreshes and the end, which empty the record.

A layout makes another simulation, or none, and does not touch the record.  So it keeps the
agreement just when the new simulation pins the nodes on record again (`tracked_layout_iff`): when
it is one by forces that keeps the positions, or when all of those nodes are endpoints that are
held.  A node that stays on record wrongly is dragged by its next drag as if it were in hand
already, and nothing is heated up (`drag_of_recorded`).
-/
import PathAtlas.Proofs.Atlas.Handling

namespace PathAtlas.Atlas

open PathAtlas.Topology PathAtlas.Layout PathAtlas.Motion

variable {α : Type}

/-! ## 1. Agreement -/

def Pins (a : Atlas α) (id : String) : Prop :=
  ∃ l, a.live = some l ∧ l.simulation.pinned? id = some true

/-- Every node on record is pinned in the live simulation; without one there is none on record. -/
def Tracked (a : Atlas α) : Prop := ∀ id ∈ a.dragging, a.Pins id

/-- A layout of which the nodes on record are pinned again. -/
def Move.Heeds (a a' : Atlas α) : Move α → Prop
  | .layout _ keep => ∀ id ∈ a.dragging,
      a'.mode = .force ∧ (keep = true ∨ a.pinEndpoints = true ∧ a.isEndpoint id = true)
  | _ => True

section Record

variable {a a' : Atlas α} {id : String}

theorem tracked_of_empty (h : a.dragging = []) : Tracked a := by
  intro id hid
  rw [h] at hid
  cases hid

/-! ## 2. Hands and time -/

theorem Handles.pins {grips : String → Prop} (h : Handles grips a a') (hfree : ¬ grips id)
    (hpins : a.Pins id) : a'.Pins id := by
  obtain ⟨l, hl, hpinned⟩ := hpins
  obtain ⟨l', hl', hguided⟩ := h.live l hl
  exact ⟨l', hl', (Simulation.pinned?_of_follow hguided.follow hfree).trans hpinned⟩

theorem Handles.tracked {grips : String → Prop} (h : Handles grips a a') (ht : Tracked a)
    (hgripped : ∀ id, grips id → id ∈ a'.dragging → a'.Pins id) : Tracked a' := by
  intro id hid
  by_cases hgrips : grips id
  · exact hgripped id hgrips hid
  · exact h.pins hgrips (ht id ((h.recorded id hgrips).mp hid))

section Dragging

variable [Scalar α] {r : Option (Position α) × Atlas α}

/-- **A drag** pins the node that it puts on record. -/
theorem Tracked.drag (ht : Tracked a) {x y : α} (h : a.drag id x y = .ok r) : Tracked r.2 := by
  refine (handles_drag h).tracked ht ?_
  rintro _ rfl hid
  rcases drag_eq_ok h with ⟨-, heq⟩ | ⟨-, hl, heq⟩ | ⟨l, s, s', -, -, -, hs', heq⟩
  · rw [heq] at hid ⊢
    exact ht _ hid
  · rw [heq] at hid
    obtain ⟨l, hl', -⟩ := ht _ hid
    cases hl.symm.trans hl'
  · have hplace := (Simulation.holds_dragTo hs').place
    rw [heq]
    refine ⟨_, rfl, ?_⟩
    rw [← Simulation.pinned_find?_positions, hplace]
    rfl

/-- **A release** takes the node off the record. -/
theorem not_recorded_release (h : a.release id = .ok r) :
    r.2.dragging = a.dragging ∧ r.2 = a ∨ id ∉ r.2.dragging := by
  have hgone : id ∉ a.dragging.filter (· ≠ id) := by simp
  rcases release_eq_ok h with ⟨-, heq⟩ | ⟨-, -, heq⟩ | ⟨l, s, -, -, -, heq⟩
  · exact .inl ⟨heq ▸ rfl, heq⟩
  · rw [heq]
    exact .inr hgone
  · rw [heq]
    exact .inr hgone

theorem Tracked.release (ht : Tracked a) (h : a.release id = .ok r) : Tracked r.2 := by
  refine (handles_release h).tracked ht ?_
  rintro _ rfl hid
  rcases not_recorded_release h with ⟨-, heq⟩ | hgone
  · rw [heq] at hid ⊢
    exact ht _ hid
  · exact absurd hid hgone

end Dragging

/-! ## 3. Layouts -/

section Laying

variable [Scalar α] [Planar α]

/-- Which of the nodes that were pinned a layout pins again. -/
theorem pins_relayout_iff (h : Rigged a) (hpins : a.Pins id) (mode : Mode) (keep : Bool) :
    (({ a with mode } : Atlas α).relayout keep).Pins id ↔
      mode = .force ∧ (keep = true ∨ a.pinEndpoints = true ∧ a.isEndpoint id = true) := by
  obtain ⟨l, hl, hpinned⟩ := hpins
  obtain ⟨-, ⟨g, hg, hids⟩, hplaces, -⟩ := h.fits l hl
  have hid : id ∈ g.nodeIds := hids ▸ Simulation.mem_of_pinned? hpinned
  rcases Atlas.relayout_cases { a with mode } keep with
    ⟨hnone, -⟩ | ⟨g', -, hmode, heq⟩ | ⟨g', s, hg', hmode, hs, heq⟩
  · cases hnone.symm.trans hg
  · rw [heq, retire_eq]
    refine iff_of_false ?_ ?_
    · rintro ⟨l, hl, -⟩
      cases hl
    · rintro ⟨hforce, -⟩
      cases hmode.symm.trans hforce
  · cases hg.symm.trans hg'
    have hkept : (Table.find? (keptPositions { a with mode } keep) id).any Position.pinned
        = keep := by
      cases keep with
      | false => rfl
      | true =>
        have hplace := (hplaces id).trans hpinned
        obtain ⟨p, hp, hpin⟩ := Option.map_eq_some_iff.mp hplace
        rw [keptPositions, if_pos rfl, hp, Option.any_some, hpin]
    have hagain : s.pinned? id = some (a.pinEndpoints && a.isEndpoint id || keep) := by
      rw [hs, newSimulation_retire, pinned?_newSimulation hg' (h.distinct g hg) hid, hkept]
      rfl
    rw [heq]
    constructor
    · rintro ⟨l', hl', hpinned'⟩
      cases hl'
      have hpin := Option.some.inj (hagain.symm.trans hpinned')
      rw [Bool.or_eq_true, Bool.and_eq_true] at hpin
      exact ⟨hmode, hpin.symm⟩
    · rintro ⟨-, hpin⟩
      refine ⟨_, rfl, hagain.trans (congrArg some ?_)⟩
      rw [Bool.or_eq_true, Bool.and_eq_true]
      exact hpin.symm

/-- **A layout** keeps the record right when it heeds the nodes on it, and only then. -/
theorem tracked_layout_iff (h : Rigged a) (ht : Tracked a) {mode : Option Json} {keep : Bool}
    (hlayout : a.layout mode keep = .ok a') :
    Tracked a' ↔ Move.Heeds a a' (.layout mode keep) := by
  obtain ⟨mode', keep', rfl, hkeep⟩ := layout_eq_ok hlayout
  rw [Tracked, dragging_relayout, Move.Heeds, mode_relayout]
  refine forall₂_congr fun id hid => ?_
  rw [pins_relayout_iff h (ht id hid)]
  refine and_congr_right fun hmode => ?_
  -- a record that is right and not empty has a simulation, so the mode was that of forces before
  have hforce : a.mode = .force := by
    obtain ⟨l, hl, -⟩ := ht id hid
    cases hm : a.mode with
    | force => rfl
    | hierarchical => cases hl.symm.trans (h.layered hm)
  rw [hkeep (hmode.trans hforce.symm)]

theorem dragging_refresh {generatedAt : α} {traces : List (Trace α)} {g : Graph α}
    (h : a.refresh generatedAt traces = (.ok g, a')) : a'.dragging = [] := by
  obtain ⟨-, rfl⟩ := refresh_eq_ok h
  rw [adopt, dragging_relayout]
  rfl

/-! ## 4. Every move and every history -/

/-- **One move** keeps the record right unless it is a layout that does not heed it. -/
theorem tracked_make_iff (h : Rigged a) (ht : Tracked a) {move : Move α}
    (hmove : move.make a = .ok a') : Tracked a' ↔ move.Heeds a a' := by
  cases move with
  | layout mode keep => exact tracked_layout_iff h ht hmove
  | refresh generatedAt traces =>
    obtain ⟨g, hrefresh⟩ := done_eq_ok.mp hmove
    exact iff_of_true (tracked_of_empty (dragging_refresh hrefresh)) trivial
  | close =>
    cases hmove
    exact iff_of_true (tracked_of_empty rfl) trivial
  | drag id x y =>
    obtain ⟨r, hdrag, rfl⟩ := map_eq_ok.mp hmove
    exact iff_of_true (ht.drag hdrag) trivial
  | release id =>
    obtain ⟨r, hrelease, rfl⟩ := map_eq_ok.mp hmove
    exact iff_of_true (ht.release hrelease) trivial
  | select | start | tick | turn =>
    have hhandles := handles_make hmove not_false
    exact iff_of_true (hhandles.tracked ht fun _ hgrips => hgrips.elim) trivial

/-- What a new atlas can become by layouts that heed the nodes on record, and by anything else. -/
inductive Heeded : Atlas α → Prop where
  | new (limits : Thresholds α) (mode : Mode) (layerGap nodeGap : α) (pinEndpoints : Bool)
      (iterations : Int) :
      Heeded { limits, mode, layerGap, nodeGap, pinEndpoints, iterations }
  | make {a a' : Atlas α} {move : Move α} (h : Heeded a) (hmove : move.make a = .ok a')
      (hheeds : move.Heeds a a') : Heeded a'
  | failed {a : Atlas α} {generatedAt : α} {traces : List (Trace α)} (h : Heeded a)
      (hfails : Fails (a.refresh generatedAt traces).1) : Heeded (a.refresh generatedAt traces).2
  | stuck {a : Atlas α} {n : Nat} (h : Heeded a) (hfails : Fails (a.tickNumber n).1) :
      Heeded (a.tickNumber n).2

theorem Heeded.reached (h : Heeded a) : Reached a := by
  induction h with
  | new => exact .new ..
  | make _ hmove _ ih => exact ih.make hmove
  | failed _ hfails ih => exact ih.failed hfails
  | stuck _ hfails ih => exact ih.stuck hfails

/-- **In every such state** the record is right. -/
theorem Heeded.tracked (h : Heeded a) : Tracked a := by
  induction h with
  | new => exact tracked_of_empty rfl
  | make h hmove hheeds ih => exact (tracked_make_iff h.reached.rigged ih hmove).mpr hheeds
  | failed _ hfails ih =>
    rw [refresh_of_fails hfails]
    exact ih
  | @stuck a n _ _ ih =>
    have hhandles : Handles (fun _ => False) a (a.tickNumber n).2 := a.handles_tickNumber n
    exact hhandles.tracked ih fun _ hgrips => hgrips.elim

/-! ## 5. First drags -/

def Move.Drags (id : String) : Move α → Prop
  | .drag dragged _ _ => dragged = id
  | _ => False

/-- **Only a drag** puts a node on record. -/
theorem not_recorded_make {move : Move α} (hmove : move.make a = .ok a') (hother : ¬ move.Drags id)
    (h : id ∉ a.dragging) : id ∉ a'.dragging := by
  cases move with
  | refresh generatedAt traces =>
    obtain ⟨g, hrefresh⟩ := done_eq_ok.mp hmove
    rw [dragging_refresh hrefresh]
    exact List.not_mem_nil
  | layout mode keep =>
    obtain ⟨mode', keep', rfl, -⟩ := layout_eq_ok hmove
    rw [dragging_relayout]
    exact h
  | close =>
    cases hmove
    exact List.not_mem_nil
  | release released =>
    obtain ⟨r, hrelease, rfl⟩ := map_eq_ok.mp hmove
    by_cases hid : released = id
    · subst hid
      rcases not_recorded_release hrelease with ⟨heq, -⟩ | hgone
      · rw [heq]
        exact h
      · exact hgone
    · exact ((handles_release hrelease).recorded id hid).not.mpr h
  | drag | select | start | tick | turn =>
    exact ((handles_make hmove not_false).recorded id hother).not.mpr h

/-- A drag is not recorded that nobody began. -/
theorem not_recorded_run {moves : List (Move α)} (hrun : run moves a = .ok a')
    (hother : ∀ move ∈ moves, ¬ move.Drags id) (h : id ∉ a.dragging) : id ∉ a'.dragging := by
  induction moves generalizing a with
  | nil =>
    cases hrun
    exact h
  | cons move moves ih =>
    obtain ⟨next, hmove, hrest⟩ := bind_eq_ok.mp hrun
    obtain ⟨hfirst, hothers⟩ := List.forall_mem_cons.mp hother
    exact ih hrest hothers (not_recorded_make hmove hfirst h)

end Laying

section Dragging

variable [Scalar α] {x y : α} {r : Option (Position α) × Atlas α} {l : LiveSimulation α}

/-- **A first drag** begins a drag in the simulation, and heats it up. -/
theorem drag_of_unrecorded (hnode : a.hasNode id = true) (hl : a.live = some l)
    (hfirst : id ∉ a.dragging) (h : a.drag id x y = .ok r) : ∃ s l',
      l.simulation.dragStart id = .ok s ∧ s.dragTo id x y = .ok l'.simulation ∧
        r.2.live = some l' ∧ l'.simulation.cooling = Simulation.warmed l.simulation.cooling := by
  rw [drag_of_live hnode hl, if_neg fun hrec => hfirst (List.contains_iff_mem.mp hrec)] at h
  obtain ⟨s', hdrag, rfl⟩ := map_eq_ok.mp h
  obtain ⟨s, hs, hs'⟩ := bind_eq_ok.mp hdrag
  have hcooling := (Simulation.cooling_dragTo hs').trans (Simulation.cooling_dragStart hs)
  exact ⟨s, { l with simulation := s' }, hs, hs', rfl, hcooling⟩

/-- **A further drag** moves the node and heats nothing up. -/
theorem drag_of_recorded (hnode : a.hasNode id = true) (hl : a.live = some l)
    (hrec : id ∈ a.dragging) (h : a.drag id x y = .ok r) : ∃ l',
      l.simulation.dragTo id x y = .ok l'.simulation ∧ r.2.live = some l' ∧
        l'.simulation.cooling = l.simulation.cooling := by
  rw [drag_of_live hnode hl, if_pos (List.contains_iff_mem.mpr hrec)] at h
  obtain ⟨s', hdrag, rfl⟩ := map_eq_ok.mp h
  obtain ⟨s, hs, hs'⟩ := bind_eq_ok.mp hdrag
  cases hs
  exact ⟨{ l with simulation := s' }, hs', rfl, Simulation.cooling_dragTo hs'⟩

end Dragging

end Record

section Moving

variable [Scalar α] [Planar α]

/-- **The record of drags** is right in every state that is reached by layouts which heed it: the
nodes on it are pinned in the live simulation, and there are none without one.  Any other layout,
and nothing else, makes it wrong.  After a refresh the first drag of a node begins a drag in the
simulation and heats it up, and so it does after a layout unless the node was on record before; a
node on record is only moved. -/
theorem record_matches_simulation :
    (∀ a : Atlas α, Heeded a → Tracked a) ∧
    (∀ (a a' : Atlas α) (move : Move α), Reached a → Tracked a → move.make a = .ok a' →
      (Tracked a' ↔ move.Heeds a a')) ∧
    (∀ (a a₁ a₂ : Atlas α) (move : Move α) (moves : List (Move α)) (id : String) (x y : α)
      (l : LiveSimulation α), Reached a →
      move.Replaces → ((∃ mode keep, move = .layout mode keep) → id ∉ a.dragging) →
      move.make a = .ok a₁ → (∀ m ∈ moves, ¬ m.Drags id) → run moves a₁ = .ok a₂ →
      a₂.live = some l → a₂.hasNode id = true →
      ((Cooling.share? (Settings.standard : Settings α).alphaMin).isSome = true →
        ∃ r, a₂.drag id x y = .ok r) ∧
      ∀ r, a₂.drag id x y = .ok r →
        ∃ s l', l.simulation.dragStart id = .ok s ∧ s.dragTo id x y = .ok l'.simulation ∧
          r.2.live = some l' ∧ l'.simulation.cooling = Simulation.warmed l.simulation.cooling) ∧
    ∀ (a : Atlas α) (id : String) (x y : α) (l : LiveSimulation α)
      (r : Option (Position α) × Atlas α), id ∈ a.dragging → a.live = some l →
      a.hasNode id = true → a.drag id x y = .ok r →
      ∃ l', l.simulation.dragTo id x y = .ok l'.simulation ∧ r.2.live = some l' ∧
        l'.simulation.cooling = l.simulation.cooling := by
  refine ⟨fun a h => h.tracked, fun a a' move h ht hmove => tracked_make_iff h.rigged ht hmove,
    fun a a₁ a₂ move moves id x y l h hreplaces hfresh hmove hother hrun hl hnode => ?_,
    fun a id x y l r hrec hl hnode hdrag => drag_of_recorded hnode hl hrec hdrag⟩
  have hfirst : id ∉ a₁.dragging := by
    cases move with
    | refresh generatedAt traces =>
      obtain ⟨g, hrefresh⟩ := done_eq_ok.mp hmove
      rw [dragging_refresh hrefresh]
      exact List.not_mem_nil
    | layout mode keep => exact not_recorded_make hmove not_false (hfresh ⟨mode, keep, rfl⟩)
    | close =>
      cases hmove
      exact List.not_mem_nil
    | select | drag | release | start | tick | turn => exact hreplaces.elim
  exact ⟨fun hshare => drag_ok ((h.make hmove).run hrun).rigged hnode hshare x y,
    fun r => drag_of_unrecorded hnode hl (not_recorded_run hrun hother hfirst)⟩

end Moving

/-- A first drag after a refresh. -/
theorem record_matches_simulation_settingOut : ∃ a l r s l',
    run settingOut blank = .ok a ∧ a.live = some l ∧ a.drag "10.0.0.1" 40 50 = .ok r ∧
    l.simulation.dragStart "10.0.0.1" = .ok s ∧ s.dragTo "10.0.0.1" 40 50 = .ok l'.simulation ∧
    r.2.live = some l' ∧ l'.simulation.cooling = Simulation.warmed l.simulation.cooling := by
  have hchecked : (Move.make (.layout (some (.text "force")) false) blank).toOption.any (fun a =>
      (Move.make (.refresh 5 [oneStep]) a).toOption.any fun a₁ =>
        (run [.start] a₁).toOption.any fun a₂ =>
          (a₂.live.isSome && a₂.hasNode "10.0.0.1") &&
            (a₂.drag "10.0.0.1" 40 50).toOption.any fun _ => true) = true := by
    decide +kernel
  obtain ⟨a, hlayout, hchecked⟩ := exists_of_any hchecked
  obtain ⟨a₁, hrefresh, hchecked⟩ := exists_of_any hchecked
  obtain ⟨a₂, hstart, hchecked⟩ := exists_of_any hchecked
  obtain ⟨hfirst, hchecked⟩ := Bool.and_eq_true_iff.mp hchecked
  obtain ⟨hlive, hnode⟩ := Bool.and_eq_true_iff.mp hfirst
  obtain ⟨r, hdrag, -⟩ := exists_of_any hchecked
  obtain ⟨l, hl⟩ := Option.isSome_iff_exists.mp hlive
  have hreached : Reached a := (Reached.new ..).make hlayout
  have hother : ∀ m ∈ ([.start] : List (Move Float)), ¬ m.Drags "10.0.0.1" := by
    simp [Move.Drags]
  obtain ⟨-, -, hafter, -⟩ := record_matches_simulation (α := Float)
  obtain ⟨-, hbegins⟩ := hafter a a₁ a₂ (.refresh 5 [oneStep]) [.start] "10.0.0.1" 40 50 l hreached
    trivial (fun ⟨_, _, h⟩ => nomatch h) hrefresh hother hstart hl hnode
  obtain ⟨s, l', hs, hs', hl', hcooling⟩ := hbegins r hdrag
  have hrun : run settingOut blank = .ok a₂ :=
    bind_eq_ok.mpr ⟨a, hlayout, bind_eq_ok.mpr ⟨a₁, hrefresh, hstart⟩⟩
  exact ⟨a₂, l, r, s, l', hrun, hl, hdrag, hs, hs', hl', hcooling⟩

/-- A node is dragged in a simulation, and then the graph is laid out in columns. -/
def turningAway : List (Move Float) :=
  [.layout (some (.text "force")) false, .refresh 5 [oneStep], .drag "10.0.0.1" 40 50,
   .layout (some (.text "hierarchical")) false]

/-- The layout leaves the node on record without a simulation.  When the graph is laid out by forces
again, the next drag of the node moves it in the new simulation and heats nothing up. -/
theorem record_outlives_simulation : ∃ a a' l r l',
    run turningAway blank = .ok a ∧ Reached a ∧ a.dragging = ["10.0.0.1"] ∧ a.live = none ∧
    ¬ Tracked a ∧ a.layout (some (.text "force")) false = .ok a' ∧ a'.live = some l ∧
    a'.drag "10.0.0.1" 4 5 = .ok r ∧ r.2.live = some l' ∧
    l.simulation.dragTo "10.0.0.1" 4 5 = .ok l'.simulation ∧
    l'.simulation.cooling = l.simulation.cooling := by
  have hchecked : (run turningAway blank).toOption.any (fun a =>
      (a.dragging == ["10.0.0.1"] && a.live.isNone) &&
        (a.layout (some (.text "force")) false).toOption.any fun a' =>
          (a'.live.isSome && a'.hasNode "10.0.0.1" && a'.dragging == ["10.0.0.1"]) &&
            (a'.drag "10.0.0.1" 4 5).toOption.any fun _ => true) = true := by
    decide +kernel
  obtain ⟨a, hrun, hchecked⟩ := exists_of_any hchecked
  obtain ⟨haway, hchecked⟩ := Bool.and_eq_true_iff.mp hchecked
  obtain ⟨a', hlayout, hchecked⟩ := exists_of_any hchecked
  obtain ⟨hback, hchecked⟩ := Bool.and_eq_true_iff.mp hchecked
  obtain ⟨r, hdrag, -⟩ := exists_of_any hchecked
  simp only [Bool.and_eq_true, beq_iff_eq, Option.isNone_iff_eq_none] at haway hback
  obtain ⟨hrecord, hidle⟩ := haway
  obtain ⟨⟨hlive, hnode⟩, hrecord'⟩ := hback
  obtain ⟨l, hl⟩ := Option.isSome_iff_exists.mp hlive
  have hrec : "10.0.0.1" ∈ a'.dragging := hrecord' ▸ List.mem_singleton_self _
  obtain ⟨l', hdragTo, hl', hcooling⟩ := drag_of_recorded hnode hl hrec hdrag
  have hwrong : ¬ Tracked a := by
    intro htracked
    obtain ⟨l, hl, -⟩ := htracked "10.0.0.1" (hrecord ▸ List.mem_singleton_self _)
    cases hidle.symm.trans hl
  exact ⟨a, a', l, r, l', hrun, (Reached.new ..).run hrun, hrecord, hidle, hwrong, hlayout, hl,
    hdrag, hl', hdragTo, hcooling⟩

end PathAtlas.Atlas
