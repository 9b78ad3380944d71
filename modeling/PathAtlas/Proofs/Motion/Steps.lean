/-
# What a step of a simulation keeps

Forces act on velocities and on nothing else (`map_atRest_pullAll`, `map_atRest_applyCollisions`,
`map_atRest_applyCenter`), so a step moves nodes at its very end or not at all.  What it can come to
is told once (`StepsTo`, `stepsTo_advance`): it goes on or settles; it fails before it is counted,
and nothing has moved; or it is counted and fails, because its heat is no real number.  Every later
proof about steps goes through these cases, and none looks into the forces again.

Whatever happens to a simulation as time goes on, a step, one that fails, or a turn of its loops, it
has the same nodes afterwards, it is over just when it was over before, and its nodes stand where
they stood unless a step was counted (`Onward`).  Hands that drag a node move it and keep the rest
(`Endures`).  The two calls that heat a simulation up can fail half way (`heatUp_cases`,
`grab_cases`); the other ones do what they do or nothing.

A simulation that was ended is `Spent`: no loop of it takes a step any more, and turns do nothing
but let its loops come to their ends.
-/
import PathAtlas.Motion.Simulation
import PathAtlas.Proofs.Order.Grouping
import PathAtlas.Proofs.Outcome

namespace PathAtlas.Motion

variable {α : Type}

/-! ## 1. Forces -/

section Forces

variable [Scalar α] {settings : Settings α} {alpha k : α} {places : Table (α × α)}

/-- A body without its velocity. -/
def Body.atRest (body : Body α) : Body α := { body with vx := Scalar.zero, vy := Scalar.zero }

@[simp] theorem Body.atRest_accelerate (body : Body α) (dx dy : α) :
    (body.accelerate dx dy).atRest = body.atRest := rfl

@[simp] theorem Body.position_atRest (body : Body α) : body.atRest.position = body.position := rfl

theorem map_id_of_map_atRest {bodies bodies' : List (Body α)}
    (h : bodies'.map Body.atRest = bodies.map Body.atRest) :
    bodies'.map Body.id = bodies.map Body.id := by
  have hids : ∀ bodies : List (Body α),
      (bodies.map Body.atRest).map Body.id = bodies.map Body.id := by
    intro bodies
    rw [List.map_map]
    rfl
  rw [← hids bodies', h, hids]

theorem atRest_centered {x y strength : Figure α} {body body' : Body α}
    (h : body.centered x y strength alpha = .ok body') : body'.atRest = body.atRest := by
  obtain ⟨_, -, h⟩ := bind_eq_ok.mp h
  obtain ⟨_, -, h⟩ := bind_eq_ok.mp h
  obtain ⟨_, -, h⟩ := bind_eq_ok.mp h
  rw [← Except.ok.inj h, Body.atRest_accelerate]

/-- The centre acts on velocities alone. -/
theorem map_atRest_applyCenter {bodies drawn : List (Body α)}
    (h : applyCenter settings alpha bodies = .ok drawn) :
    drawn.map Body.atRest = bodies.map Body.atRest := by
  obtain ⟨center, -, h⟩ := bind_eq_ok.mp h
  exact map_eq_of_mapM (fun _ _ => atRest_centered) h

theorem id_move {body body' : Body α} (h : body.move settings = .ok body') :
    body'.id = body.id := by
  rw [Body.move] at h
  split at h
  · rw [← Except.ok.inj h]
  · obtain ⟨kept, -, h⟩ := bind_eq_ok.mp h
    rw [← Except.ok.inj h]

section Planar

variable [Planar α]

theorem atRest_pullBody {body body' : Body α} (h : pullBody k alpha places body = .ok body') :
    body'.atRest = body.atRest := by
  rw [pullBody] at h
  split at h
  · rw [← Except.ok.inj h]
  · obtain ⟨step, -, h⟩ := bind_eq_ok.mp h
    rw [← Except.ok.inj h, Body.atRest_accelerate]

/-- Springs act on velocities alone, also when one of them fails. -/
theorem map_atRest_pullAll (bodies : List (Body α)) :
    (pullAll k alpha places bodies).2.map Body.atRest = bodies.map Body.atRest := by
  induction bodies with
  | nil => rfl
  | cons body rest ih =>
    rw [pullAll]
    split
    · rfl
    · rename_i body' hbody
      rw [List.map_cons, List.map_cons, atRest_pullBody hbody, ih]

theorem map_atRest_applySprings (settings : Settings α) (alpha : α) (bodies : List (Body α)) :
    (applySprings settings alpha bodies).2.map Body.atRest = bodies.map Body.atRest := by
  rw [applySprings]
  split
  · rfl
  · split
    · rfl
    · exact map_atRest_pullAll bodies

theorem atRest_pushApart (least : α) (a b : Body α) :
    (pushApart least a b).1.atRest = a.atRest ∧ (pushApart least a b).2.atRest = b.atRest := by
  unfold pushApart
  simp only
  split
  · exact ⟨rfl, rfl⟩
  · exact ⟨rfl, rfl⟩

/-- Collisions of one body with others act on velocities alone. -/
theorem atRest_pushFrom (least : α) (a : Body α) (bs : List (Body α)) :
    (pushFrom least a bs).1.atRest = a.atRest ∧
      (pushFrom least a bs).2.map Body.atRest = bs.map Body.atRest := by
  induction bs generalizing a with
  | nil => exact ⟨rfl, rfl⟩
  | cons b bs ih =>
    obtain ⟨ha, hb⟩ := atRest_pushApart least a b
    obtain ⟨ha', hbs⟩ := ih (pushApart least a b).1
    refine ⟨ha'.trans ha, ?_⟩
    rw [pushFrom, List.map_cons, List.map_cons, hb, hbs]

/-- Collisions act on velocities alone. -/
theorem map_atRest_applyCollisions (least : α) (bodies : List (Body α)) :
    (applyCollisions least bodies).map Body.atRest = bodies.map Body.atRest := by
  induction bodies using applyCollisions.induct least with
  | case1 => rw [applyCollisions]
  | case2 a bs ih =>
    obtain ⟨ha, hbs⟩ := atRest_pushFrom least a bs
    rw [applyCollisions, List.map_cons, List.map_cons, ih, ha, hbs]

theorem map_atRest_applyCollide {bodies apart : List (Body α)}
    (h : applyCollide settings bodies = .ok apart) :
    apart.map Body.atRest = bodies.map Body.atRest := by
  rw [applyCollide] at h
  split at h
  · rw [← Except.ok.inj h]
  · obtain ⟨least, -, h⟩ := bind_eq_ok.mp h
    rw [← Except.ok.inj h, map_atRest_applyCollisions]

theorem map_id_moveAll {bodies moved : List (Body α)}
    (h : moveAll settings alpha bodies = .ok moved) :
    moved.map Body.id = bodies.map Body.id := by
  obtain ⟨apart, hapart, h⟩ := bind_eq_ok.mp h
  obtain ⟨drawn, hdrawn, h⟩ := bind_eq_ok.mp h
  rw [map_eq_of_mapM (fun _ _ => id_move) h, map_id_of_map_atRest (map_atRest_applyCenter hdrawn),
    map_id_of_map_atRest (map_atRest_applyCollide hapart)]

end Planar

end Forces

namespace Simulation

/-! ## 2. Places -/

theorem bodyOf?_map_atRest [Scalar α] (bodies : List (Body α)) (id : String) :
    bodyOf? (bodies.map Body.atRest) id = (bodyOf? bodies id).map Body.atRest := by
  rw [bodyOf?, bodyOf?, ← List.map_reverse, List.find?_map]
  rfl

/-- Where nodes stand does not depend on how fast they are. -/
theorem positions_of_map_atRest [Scalar α] {s s' : Simulation α}
    (h : s'.bodies.map Body.atRest = s.bodies.map Body.atRest) : s'.positions = s.positions := by
  have hplace : ∀ id, (bodyOf? s'.bodies id).map (fun b => (id, b.position))
      = (bodyOf? s.bodies id).map fun b => (id, b.position) := by
    intro id
    have hbody := congrArg (fun bodies => (bodyOf? bodies id).map fun b => (id, b.position)) h
    simpa only [bodyOf?_map_atRest, Option.map_map, Function.comp_def, Body.position_atRest]
      using hbody
  rw [positions, positions, map_id_of_map_atRest h]
  exact List.filterMap_congr fun id _ => hplace id

/-- Every node of a simulation has its place, and nothing else has. -/
theorem names_positions (s : Simulation α) :
    s.positions.names = Order.distinct (s.bodies.map Body.id) := by
  have hplaced : ∀ id ∈ Order.distinct (s.bodies.map Body.id),
      ((bodyOf? s.bodies id).map fun b => (id, b.position)).map Prod.fst = some id := by
    intro id hid
    obtain ⟨b, hb, hid⟩ := List.mem_map.mp (Order.mem_distinct.mp hid)
    have hfound : (bodyOf? s.bodies id).isSome :=
      List.find?_isSome.mpr ⟨b, List.mem_reverse.mpr hb, beq_iff_eq.mpr hid⟩
    obtain ⟨last, hlast⟩ := Option.isSome_iff_exists.mp hfound
    rw [hlast]
    rfl
  rw [positions, Table.names, List.map_filterMap, List.filterMap_congr hplaced,
    List.filterMap_some]

theorem ids_create [Scalar α] [Planar α] (settings : Settings α) (g : Topology.Graph α)
    (starts : Layout.Positions α) (pinned : List String) :
    (create settings g starts pinned).bodies.map Body.id = g.nodeIds := by
  rw [create, List.map_map]
  exact List.zipIdx_map_fst 0 g.nodeIds

/-! ## 3. Time -/

/-- One simulation and what it is later: the same nodes, no step taken back, and once over always
over. -/
structure Continues (s s' : Simulation α) : Prop where
  ids : s'.bodies.map Body.id = s.bodies.map Body.id
  ticks : s.ticks ≤ s'.ticks
  ended : s.destroyed = true → s'.destroyed = true

/-- A simulation that nobody has ended meanwhile. -/
structure Endures (s s' : Simulation α) : Prop extends Continues s s' where
  alive : s.destroyed = false → s'.destroyed = false

/-- A simulation as time goes on: nothing moves unless a step is counted. -/
structure Onward (s s' : Simulation α) : Prop extends Endures s s' where
  rests : s'.ticks = s.ticks → s'.positions = s.positions

@[refl] theorem Continues.refl (s : Simulation α) : Continues s s := ⟨rfl, le_rfl, id⟩

@[refl] theorem Endures.refl (s : Simulation α) : Endures s s := ⟨.refl s, id⟩

@[refl] theorem Onward.refl (s : Simulation α) : Onward s s := ⟨.refl s, fun _ => rfl⟩

section Composition

variable {s s' s'' : Simulation α}

theorem Continues.trans (h : Continues s s') (h' : Continues s' s'') : Continues s s'' :=
  ⟨h'.ids.trans h.ids, h.ticks.trans h'.ticks, h'.ended ∘ h.ended⟩

theorem Endures.trans (h : Endures s s') (h' : Endures s' s'') : Endures s s'' :=
  ⟨h.toContinues.trans h'.toContinues, h'.alive ∘ h.alive⟩

theorem Onward.trans (h : Onward s s') (h' : Onward s' s'') : Onward s s'' := by
  refine ⟨h.toEndures.trans h'.toEndures, fun heq => ?_⟩
  have hfirst : s'.ticks = s.ticks := le_antisymm (heq ▸ h'.ticks) h.ticks
  exact (h'.rests (heq.trans hfirst.symm)).trans (h.rests hfirst)

theorem endures_of_eq (hids : s'.bodies.map Body.id = s.bodies.map Body.id)
    (hticks : s.ticks ≤ s'.ticks) (hdestroyed : s'.destroyed = s.destroyed) : Endures s s' :=
  ⟨⟨hids, hticks, hdestroyed.trans⟩, hdestroyed.trans⟩

end Composition

theorem onward_loops (s : Simulation α) (loops : List LoopPhase) : Onward s { s with loops } :=
  ⟨endures_of_eq rfl le_rfl rfl, fun _ => rfl⟩

section Stepping

variable [Scalar α] [Planar α]

/-- Bodies that a counted step leaves: moved after the springs have acted, or not at all. -/
def Moved (s : Simulation α) (bodies : List (Body α)) : Prop :=
  ∃ sprung, sprung.map Body.atRest = s.bodies.map Body.atRest ∧
    (moveAll s.settings s.cooling.step.alpha sprung = .ok bodies ∨ bodies = sprung)

/-- What a step can come to. -/
inductive StepsTo (s : Simulation α) : Except Fault Bool × Simulation α → Prop
  /-- It fails before it is counted, and nothing has moved. -/
  | fails {fault : Fault} {bodies : List (Body α)} {unreal : Bool}
      (rests : bodies.map Body.atRest = s.bodies.map Body.atRest) :
      StepsTo s (.error fault, { s with cooling := s.cooling.step, bodies, unreal })
  /-- It is counted, and fails because its heat is no real number. -/
  | stalls {bodies : List (Body α)} {unreal : Bool} (lost : s.cooling.step.lost = true)
      (moved : Moved s bodies) :
      StepsTo s (.error .heatNotReal,
        ({ s with cooling := s.cooling.step, unreal } : Simulation α).count bodies)
  | goesOn {bodies : List (Body α)} (moves : s.cooling.step.settled = false)
      (moved : Moved s bodies) :
      StepsTo s (.ok true, ({ s with cooling := s.cooling.step } : Simulation α).count bodies)
  | settles {bodies : List (Body α)} (rests : s.cooling.step.settled = true)
      (moved : Moved s bodies) :
      StepsTo s (.ok false,
        (({ s with cooling := s.cooling.step } : Simulation α).count bodies).tellEnd)

/-- A step whose heat is no real number fails, counted or not. -/
theorem stepsTo_stall {s : Simulation α} (hlost : s.cooling.step.lost = true) (unreal : Bool) :
    StepsTo s ({ s with cooling := s.cooling.step, unreal } : Simulation α).stall := by
  rw [stall]
  split
  · dsimp only
    cases s.settings.leastDistance with
    | error fault => exact .fails rfl
    | ok least => exact .fails rfl
  · split
    · exact .fails rfl
    · rename_i moved hmoved
      refine .stalls hlost ⟨s.bodies, rfl, ?_⟩
      split
      · exact .inl hmoved
      · exact .inr rfl

/-- **A step** comes to one of these. -/
theorem stepsTo_advance (s : Simulation α) : StepsTo s s.advance := by
  have hsprung := map_atRest_applySprings s.settings s.cooling.step.alpha s.bodies
  unfold advance
  dsimp only
  split <;> rename_i bodies hs <;> rw [hs] at hsprung
  · exact .fails hsprung
  · split
    · rename_i hlost
      exact stepsTo_stall hlost _
    · split
      · exact .fails rfl
      · rename_i moved hmoved
        split
        · rename_i hsettled
          exact .settles hsettled ⟨bodies, hsprung, .inl hmoved⟩
        · rename_i hsettled
          exact .goesOn (Bool.eq_false_iff.mpr hsettled) ⟨bodies, hsprung, .inl hmoved⟩

theorem Moved.map_id {s : Simulation α} {bodies : List (Body α)} (h : Moved s bodies) :
    bodies.map Body.id = s.bodies.map Body.id := by
  obtain ⟨sprung, hsprung, hmoved | rfl⟩ := h
  · exact (map_id_moveAll hmoved).trans (map_id_of_map_atRest hsprung)
  · exact map_id_of_map_atRest hsprung

/-- **A step** either counts or leaves every node where it stands. -/
theorem onward_advance (s : Simulation α) : Onward s s.advance.2 := by
  have hsteps := s.stepsTo_advance
  generalize s.advance = r at hsteps
  have hcounted : s.ticks + 1 ≠ s.ticks := Nat.succ_ne_self _
  cases hsteps with
  | fails rests =>
    exact ⟨endures_of_eq (map_id_of_map_atRest rests) le_rfl rfl,
      fun _ => positions_of_map_atRest rests⟩
  | stalls _ moved | goesOn _ moved | settles _ moved =>
    exact ⟨endures_of_eq moved.map_id (Nat.le_succ _) rfl, fun h => absurd h hcounted⟩

/-- What a step keeps, some steps one after the other keep. -/
theorem advanceUpTo_keeps {P : Simulation α → Prop}
    (hadvance : ∀ {s : Simulation α}, P s → P s.advance.2) (n : Nat) {s : Simulation α} (h : P s) :
    P (advanceUpTo n s).2 := by
  induction n generalizing s with
  | zero => exact h
  | succ n ih =>
    have hstep := hadvance h
    rw [advanceUpTo]
    split <;> rename_i s' hs <;> rw [hs] at hstep
    · exact ih hstep
    · exact hstep
    · exact hstep

theorem tick_keeps {P : Simulation α → Prop}
    (hadvance : ∀ {s : Simulation α}, P s → P s.advance.2) {s : Simulation α} (h : P s) :
    P s.tick.2 := by
  unfold tick
  split
  · exact h
  · exact hadvance h

/-- What a step keeps, a run without a limit keeps when it comes to its end. -/
theorem runOut_keeps {P : Simulation α → Prop}
    (hadvance : ∀ {s : Simulation α}, P s → P s.advance.2) {s : Simulation α} (h : P s)
    {r : Except Fault Unit × Simulation α} (hr : s.runOut = some r) : P r.2 := by
  refine runOut.partial_correctness (fun s r => P s → P r.2) ?_ s r hr h
  intro runOut' ih s r hr h
  have hstep := hadvance h
  split at hr <;> rename_i s' hs <;> rw [hs] at hstep
  · exact ih s' r hr hstep
  · exact Option.some.inj hr ▸ hstep
  · exact Option.some.inj hr ▸ hstep

/-- What a step keeps, a run keeps, whatever limits it. -/
theorem run_keeps {P : Simulation α → Prop}
    (hadvance : ∀ {s : Simulation α}, P s → P s.advance.2) (limit : Option Int)
    {s : Simulation α} (h : P s) : P (s.run limit).2 := by
  unfold run
  split
  · exact h
  · split
    · exact advanceUpTo_keeps hadvance _ h
    · cases hr : s.runOut with
      | none => exact h
      | some r => exact runOut_keeps hadvance h hr

/-- **A turn of one loop** takes a step when the loop is live, and one that is stopped ends. -/
theorem turnLoop_cases (s : Simulation α) (i : Nat) :
    s.loops[i]? = some .live ∧ (s.turnLoop i = s.advance.2 ∨
        ∃ ended, ended.isOver = true ∧
          s.turnLoop i = { s.advance.2 with loops := s.advance.2.loops.set i ended }) ∨
      s.loops[i]? = some .cancelling ∧
        s.turnLoop i = { s with loops := s.loops.set i .cancelled } ∨
      s.loops[i]? ≠ some .live ∧ s.turnLoop i = s := by
  unfold turnLoop
  split
  · rename_i hlive
    refine .inl ⟨hlive, ?_⟩
    split <;> rename_i hs <;> rw [hs]
    · exact .inl rfl
    · exact .inr ⟨.finished, rfl, rfl⟩
    · exact .inr ⟨.failed _, rfl, rfl⟩
  · rename_i hcancelling
    exact .inr (.inl ⟨hcancelling, rfl⟩)
  · rename_i hlive _
    exact .inr (.inr ⟨hlive, rfl⟩)

/-- What a step keeps, whatever the loops are, a turn of one loop keeps. -/
theorem turnLoop_keeps {P : Simulation α → Prop}
    (hadvance : ∀ {s : Simulation α}, P s → P s.advance.2)
    (hloops : ∀ {s : Simulation α} (loops : List LoopPhase), P s → P { s with loops })
    {s : Simulation α} (h : P s) (i : Nat) : P (s.turnLoop i) := by
  rcases s.turnLoop_cases i with ⟨-, heq | ⟨ended, -, heq⟩⟩ | ⟨-, heq⟩ | ⟨-, heq⟩
  · rw [heq]
    exact hadvance h
  · rw [heq]
    exact hloops _ (hadvance h)
  · rw [heq]
    exact hloops _ h
  · rw [heq]
    exact h

/-- What a turn of one loop keeps, a turn of all loops keeps. -/
theorem turn_keeps {P : Simulation α → Prop}
    (hturnLoop : ∀ {s : Simulation α} (i : Nat), P s → P (s.turnLoop i)) {s : Simulation α}
    (h : P s) : P s.turn := by
  rw [turn]
  generalize List.range s.loops.length = places
  induction places generalizing s with
  | nil => exact h
  | cons i places ih => exact ih (hturnLoop i h)

theorem onward_advanceUpTo (n : Nat) (s : Simulation α) : Onward s (advanceUpTo n s).2 :=
  advanceUpTo_keeps (fun h => h.trans (onward_advance _)) n (.refl s)

theorem onward_tick (s : Simulation α) : Onward s s.tick.2 :=
  tick_keeps (fun h => h.trans (onward_advance _)) (.refl s)

theorem onward_turnLoop (s : Simulation α) (i : Nat) : Onward s (s.turnLoop i) :=
  turnLoop_keeps (fun h => h.trans (onward_advance _))
    (fun loops h => h.trans (onward_loops _ loops)) (.refl s) i

/-- **A turn** of all loops counts a step or leaves every node where it stands. -/
theorem onward_turn (s : Simulation α) : Onward s s.turn :=
  turn_keeps (fun i h => h.trans (onward_turnLoop _ i)) (.refl s)

end Stepping

/-! ## 4. Hands -/

theorem checkAlive_eq_ok {s : Simulation α} {u : Unit} :
    s.checkAlive = .ok u ↔ s.destroyed = false := by
  rw [checkAlive]
  cases s.destroyed <;> simp

/-- To change a node is to change neither its name nor any other node. -/
theorem endures_modifyBody (s : Simulation α) (id : String) {f : Body α → Body α}
    (hf : ∀ b, (f b).id = b.id) : Endures s (s.modifyBody id f) := by
  refine endures_of_eq ?_ le_rfl rfl
  show (modifyLast id f s.bodies).map Body.id = s.bodies.map Body.id
  induction s.bodies with
  | nil => rfl
  | cons b bs ih =>
    rw [modifyLast]
    split
    · rw [List.map_cons, List.map_cons, hf]
    · rw [List.map_cons, List.map_cons, ih]

theorem endures_hold (s : Simulation α) (id : String) : Endures s (s.hold id) :=
  s.endures_modifyBody id fun _ => rfl

/-- A new loop touches nothing but the loops. -/
theorem spawn_eq (s : Simulation α) :
    s.spawn = { s with loops := s.spawn.loops, current := s.spawn.current } := by
  rw [spawn]
  split <;> rfl

theorem endures_spawn (s : Simulation α) : Endures s s.spawn := by
  rw [spawn_eq]
  exact endures_of_eq rfl le_rfl rfl

section Heating

variable [Scalar α] {s s' : Simulation α} {target : α} {id : String}

/-- A simulation that is on its way to another target. -/
def aimed (s : Simulation α) (target : α) : Simulation α :=
  { s with cooling := (s.cooling.reheat target).2 }

/-- **Heating up** does nothing after the end.  Otherwise there is another target, also when the
call fails, and there may be a new loop. -/
theorem heatUp_cases (s : Simulation α) (target : α) :
    (∃ fault, s.heatUp target = (.error fault, s)) ∨
      s.destroyed = false ∧ (s.heatUp target).1 = (s.cooling.reheat target).1 ∧
        ((s.heatUp target).2 = s.aimed target ∨ (s.heatUp target).2 = (s.aimed target).spawn) := by
  rw [heatUp]
  split
  · exact .inl ⟨_, rfl⟩
  · rename_i halive
    refine .inr ⟨checkAlive_eq_ok.mp halive, ?_⟩
    rw [aimed]
    split <;> rename_i hreheat <;> rw [hreheat]
    · exact ⟨rfl, .inl rfl⟩
    · dsimp only
      split
      · exact ⟨rfl, .inr rfl⟩
      · exact ⟨rfl, .inl rfl⟩

/-- **Taking a node** does nothing when there is no such node.  Otherwise it is held, also when the
simulation cannot be heated up. -/
theorem grab_cases (s : Simulation α) (id : String) :
    (∃ fault, s.grab id = (.error fault, s)) ∨
      s.checkNode id = .ok () ∧ s.grab id = (s.hold id).heatUp dragHeat := by
  rw [grab]
  split
  · exact .inl ⟨_, rfl⟩
  · rename_i hnode
    exact .inr ⟨hnode, rfl⟩

theorem restart_eq_ok : s.restart target = .ok s' ↔ s.heatUp target = (.ok (), s') := by
  rw [restart]
  rcases s.heatUp target with ⟨_ | ⟨⟩, _⟩ <;> simp [Except.map]

theorem dragStart_eq_ok : s.dragStart id = .ok s' ↔ s.grab id = (.ok (), s') := by
  rw [dragStart]
  rcases s.grab id with ⟨_ | ⟨⟩, _⟩ <;> simp [Except.map]

theorem endures_heatUp (s : Simulation α) (target : α) : Endures s (s.heatUp target).2 := by
  have haimed : Endures s (s.aimed target) := endures_of_eq rfl le_rfl rfl
  rcases s.heatUp_cases target with ⟨_, heq⟩ | ⟨-, -, heq | heq⟩ <;> rw [heq]
  · exact haimed
  · exact haimed.trans (endures_spawn _)

theorem endures_grab (s : Simulation α) (id : String) : Endures s (s.grab id).2 := by
  rcases s.grab_cases id with ⟨_, heq⟩ | ⟨-, heq⟩ <;> rw [heq]
  exact (s.endures_hold id).trans (endures_heatUp _ _)

theorem endures_dragStart (h : s.dragStart id = .ok s') : Endures s s' := by
  have hgrab := s.endures_grab id
  rwa [dragStart_eq_ok.mp h] at hgrab

end Heating

theorem endures_dragTo {s s' : Simulation α} {id : String} {x y : α}
    (h : s.dragTo id x y = .ok s') : Endures s s' := by
  obtain ⟨_, -, h⟩ := bind_eq_ok.mp h
  rw [← Except.ok.inj h]
  exact s.endures_modifyBody id fun _ => rfl

theorem endures_dragEnd [Scalar α] {s s' : Simulation α} {id : String} {keep : Bool}
    (h : s.dragEnd id keep = .ok s') : Endures s s' := by
  obtain ⟨_, -, h⟩ := bind_eq_ok.mp h
  rw [← Except.ok.inj h]
  cases keep with
  | true => exact endures_of_eq rfl le_rfl rfl
  | false =>
    have hfree := s.endures_modifyBody id
      (f := fun b => { b with fixed := (none, none) }) fun _ => rfl
    exact endures_of_eq hfree.ids le_rfl rfl

/-- Asking for a loop moves nothing. -/
theorem onward_start {s s' : Simulation α} (h : s.start = .ok s') :
    Onward s s' ∧ s'.ticks = s.ticks := by
  obtain ⟨_, -, h⟩ := bind_eq_ok.mp h
  rw [← Except.ok.inj h, spawn_eq]
  exact ⟨⟨endures_of_eq rfl le_rfl rfl, fun _ => rfl⟩, rfl⟩

/-! ## 5. After the end -/

/-- A simulation that was ended, with no loop that could take another step. -/
structure Spent (s : Simulation α) : Prop where
  destroyed : s.destroyed = true
  idle : LoopPhase.live ∉ s.loops

theorem continues_destroy (s : Simulation α) : Continues s s.destroy := by
  unfold destroy
  split
  · exact .refl s
  · exact ⟨rfl, le_rfl, fun _ => rfl⟩

/-- **The end** of a simulation. -/
theorem spent_destroy {s : Simulation α} (h : s.destroyed = false) : s.destroy.Spent := by
  have hnot : ¬ s.destroyed = true := by simp [h]
  rw [destroy, if_neg hnot]
  refine ⟨rfl, fun hlive => ?_⟩
  obtain ⟨phase, -, hphase⟩ := List.mem_map.mp hlive
  split at hphase
  · cases hphase
  · contradiction

section Stepping

variable [Scalar α] [Planar α] {s : Simulation α}

theorem Spent.tick (h : s.Spent) : s.tick = (.error .simulationDestroyed, s) := by
  rw [Simulation.tick, checkAlive, if_pos h.destroyed]

theorem Spent.turnLoop (h : s.Spent) (i : Nat) :
    ∃ loops, LoopPhase.live ∉ loops ∧ s.turnLoop i = { s with loops } := by
  rcases s.turnLoop_cases i with ⟨hlive, -⟩ | ⟨-, heq⟩ | ⟨-, heq⟩
  · exact absurd (List.mem_of_getElem? hlive) h.idle
  · refine ⟨_, fun hlive => ?_, heq⟩
    rcases List.mem_or_eq_of_mem_set hlive with hlive | hlive
    · exact h.idle hlive
    · cases hlive
  · exact ⟨s.loops, h.idle, heq⟩

/-- **Turns after the end** do nothing but let the loops come to their ends. -/
theorem Spent.turn (h : s.Spent) : ∃ loops, LoopPhase.live ∉ loops ∧ s.turn = { s with loops } := by
  rw [Simulation.turn]
  generalize List.range s.loops.length = places
  induction places generalizing s with
  | nil => exact ⟨s.loops, h.idle, rfl⟩
  | cons i places ih =>
    obtain ⟨loops, hidle, hs⟩ := h.turnLoop i
    rw [List.foldl_cons, hs]
    exact ih ⟨h.destroyed, hidle⟩

theorem Spent.turns (h : s.Spent) (n : Nat) :
    ∃ loops, LoopPhase.live ∉ loops ∧ turns n s = { s with loops } := by
  induction n generalizing s with
  | zero => exact ⟨s.loops, h.idle, rfl⟩
  | succ n ih =>
    obtain ⟨loops, hidle, hs⟩ := h.turn
    rw [Simulation.turns, hs]
    exact ih ⟨h.destroyed, hidle⟩

end Stepping

end Simulation

end PathAtlas.Motion
