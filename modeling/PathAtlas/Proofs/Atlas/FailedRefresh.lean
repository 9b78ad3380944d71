/-
# A refresh that fails

A refresh takes its window in order, builds the graph, and only then ends the simulation and lays
the graph out.  It fails when no graph can be made of the window, which is when host names in it are
`Misnamed`, and then all that was there is there still.  Only the count of refreshes went up before
the graph was built.

That count is what a live simulation is compared with whenever it has moved.  After a failed refresh
it goes on as if nothing had happened, but the atlas does not follow any more: the positions stand
still while time passes (`run_behind`, `refresh_of_misnamed`).  This rests on one invariant, that no
simulation was made at a count that is yet to come (`Dated`), and every state has it, those after
failed refreshes and failed steps too (`Reached.dated`).
-/
import PathAtlas.Proofs.Atlas.Lifecycle

namespace PathAtlas

open PathAtlas.Topology PathAtlas.Layout PathAtlas.Motion

variable {α : Type}

/-! ## 1. When a refresh fails -/

/-- Some host name cannot be in a set, or the host names of one node have no order. -/
def Topology.Misnamed (traces : List (Trace α)) : Prop :=
  (∃ v ∈ traces.flatMap visits, Fails (checkName v.hostName)) ∨
    ∃ id ∈ nodeNames traces, Fails (leastName ((visitsAt traces id).map Visit.hostName))

/-- Nothing but the names of hosts keeps a graph from being built. -/
theorem Topology.fails_ofTraces_iff_misnamed [Scalar α] (limits : Thresholds α) (time : α)
    (traces : List (Trace α)) : Fails (Graph.ofTraces limits time traces) ↔ Misnamed traces := by
  rw [fails_ofTraces_iff]
  constructor
  · rintro (h | ⟨-, h⟩)
    · exact .inl h
    · exact .inr h
  · rintro (h | h)
    · exact .inl h
    · by_cases hset : ∃ v ∈ traces.flatMap visits, Fails (checkName v.hostName)
      · exact .inl hset
      · refine .inr ⟨fun v hv => ?_, h⟩
        obtain ⟨⟨⟩, hv⟩ := not_fails_iff.mp fun hfails => hset ⟨v, hv, hfails⟩
        exact hv

namespace Atlas

variable {a a' : Atlas α}

section Refreshing

variable [Scalar α] [Planar α] {generatedAt : α} {traces : List (Trace α)}

theorem fails_refresh_iff (a : Atlas α) (generatedAt : α) (traces : List (Trace α)) :
    Fails (a.refresh generatedAt traces).1 ↔ Misnamed (window traces) := by
  rw [← fails_ofTraces_iff_misnamed a.limits generatedAt]
  cases hbuilt : Graph.ofTraces a.limits generatedAt (window traces) with
  | error fault => rw [refresh_of_error hbuilt]
  | ok g => rw [refresh_of_ok hbuilt]

/-- A refresh that fails has counted all the same, and did nothing else. -/
theorem refresh_of_fails (h : Fails (a.refresh generatedAt traces).1) :
    (a.refresh generatedAt traces).2 = { a with generation := a.generation + 1 } := by
  cases hbuilt : Graph.ofTraces a.limits generatedAt (window traces) with
  | error fault => rw [refresh_of_error hbuilt]
  | ok g =>
    rw [refresh_of_ok hbuilt] at h
    exact absurd h (not_fails_ok _)

/-- Host names that are texts or absent do not keep a refresh from coming through. -/
theorem exists_refresh (a : Atlas α) (generatedAt : α) (h : Named traces) :
    ∃ g b, a.refresh generatedAt traces = (.ok g, b) := by
  have hwindow : Named (window traces) := fun t ht => h t (mem_window.mp ht).1
  obtain ⟨g, hg⟩ := ofTraces_of_named a.limits generatedAt hwindow
  exact ⟨g, _, refresh_of_ok hg⟩

end Refreshing

/-! ## 2. When simulations are made -/

/-- A later state at the same count, with the same live simulation or none. -/
structure GoesOn (a a' : Atlas α) : Prop where
  generation : a'.generation = a.generation
  live : ∀ l', a'.live = some l' → ∃ l, a.live = some l ∧ l'.generation = l.generation

theorem GoesOn.refl (a : Atlas α) : GoesOn a a := ⟨rfl, fun l hl => ⟨l, hl, rfl⟩⟩

theorem GoesOn.trans {a'' : Atlas α} (h : GoesOn a a') (h' : GoesOn a' a'') : GoesOn a a'' := by
  refine ⟨h'.generation.trans h.generation, fun l'' hl'' => ?_⟩
  obtain ⟨l', hl', hmade'⟩ := h'.live l'' hl''
  obtain ⟨l, hl, hmade⟩ := h.live l' hl'
  exact ⟨l, hl, hmade'.trans hmade⟩

theorem goesOn_of_live {l : LiveSimulation α} {s : Simulation α} (hl : a.live = some l)
    (hl' : a'.live = some { l with simulation := s }) (h : a'.generation = a.generation) :
    GoesOn a a' := by
  refine ⟨h, fun l' h' => ⟨l, hl, ?_⟩⟩
  cases hl'.symm.trans h'
  rfl

theorem goesOn_of_idle (hl' : a'.live = none) (h : a'.generation = a.generation) : GoesOn a a' :=
  ⟨h, fun _ h' => nomatch hl'.symm.trans h'⟩

theorem goesOn_follow {l : LiveSimulation α} (hl : a.live = some l) (s : Simulation α) :
    GoesOn a (a.follow l s) := by
  rcases a.follow_cases l s with ⟨-, -, heq⟩ | ⟨-, heq⟩
  · rw [heq]
    exact goesOn_of_live hl rfl rfl
  · rw [heq]
    exact goesOn_of_live hl rfl rfl

theorem goesOn_start {r : Bool × Atlas α} (h : a.startSimulation = .ok r) : GoesOn a r.2 := by
  rcases start_eq_ok h with ⟨-, heq⟩ | ⟨l, s, hl, -, heq⟩
  · rw [heq]
    exact .refl a
  · rw [heq]
    exact goesOn_of_live hl rfl rfl

theorem goesOn_drag [Scalar α] {id : String} {x y : α} {r : Option (Position α) × Atlas α}
    (h : a.drag id x y = .ok r) : GoesOn a r.2 := by
  rcases drag_eq_ok h with ⟨-, heq⟩ | ⟨-, hl, heq⟩ | ⟨l, s, s', -, hl, -, -, heq⟩
  · rw [heq]
    exact .refl a
  · rw [heq]
    exact goesOn_of_idle hl rfl
  · rw [heq]
    exact goesOn_of_live hl rfl rfl

theorem goesOn_release [Scalar α] {id : String} {r : Option (Position α) × Atlas α}
    (h : a.release id = .ok r) : GoesOn a r.2 := by
  rcases release_eq_ok h with ⟨-, heq⟩ | ⟨-, hl, heq⟩ | ⟨l, s, -, hl, -, heq⟩
  · rw [heq]
    exact .refl a
  · rw [heq]
    exact goesOn_of_idle hl rfl
  · rw [heq]
    exact goesOn_of_live hl rfl rfl

section Stepping

variable [Scalar α] [Planar α]

theorem goesOn_tick (a : Atlas α) : GoesOn a a.tick.2 := by
  cases hl : a.live with
  | none =>
    rw [tick_of_idle hl]
    exact .refl a
  | some l =>
    rw [tick_of_live hl]
    exact goesOn_follow hl _

theorem goesOn_tickNumber (a : Atlas α) (n : Nat) : GoesOn a (a.tickNumber n).2 := by
  unfold tickNumber
  split
  · split
    · exact a.goesOn_tick
    · exact .refl a
  · exact ⟨rfl, fun l hl => ⟨l, hl, rfl⟩⟩

/-- A turn of the loops makes no simulation. -/
theorem goesOn_turn (a : Atlas α) : GoesOn a a.turn := by
  cases hl : a.live with
  | none =>
    rw [turn_of_idle hl]
    exact goesOn_of_idle hl rfl
  | some l =>
    have hturned : GoesOn a { a with retired := a.retired.map Simulation.turn } :=
      ⟨rfl, fun l hl => ⟨l, hl, rfl⟩⟩
    rw [turn_of_live hl]
    exact hturned.trans
      (goesOn_follow (a := { a with retired := a.retired.map Simulation.turn }) hl _)

end Stepping

/-- No simulation was made at a count that is yet to come. -/
def Dated (a : Atlas α) : Prop := ∀ l, a.live = some l → l.generation ≤ a.generation

theorem GoesOn.dated (h : GoesOn a a') (hdated : Dated a) : Dated a' := by
  intro l' hl'
  obtain ⟨l, hl, hmade⟩ := h.live l' hl'
  rw [hmade, h.generation]
  exact hdated l hl

theorem dated_of_idle (h : a.live = none) : Dated a := fun _ hl => nomatch h.symm.trans hl

theorem live_close (a : Atlas α) : a.close.live = none := by
  rw [close, retire_eq]

section Moving

variable [Scalar α] [Planar α]

/-- A simulation that a layout makes is of the present count. -/
theorem Dated.relayout (h : Dated a) (keep : Bool) : Dated (a.relayout keep) := by
  rcases a.relayout_cases keep with ⟨-, heq⟩ | ⟨g, -, -, heq⟩ | ⟨g, s, -, -, -, heq⟩
  · rw [heq]
    exact h
  · rw [heq, retire_eq]
    exact dated_of_idle rfl
  · rw [heq, retire_eq]
    intro l hl
    cases hl
    exact le_rfl

theorem Dated.layout (h : Dated a) {mode : Option Json} {keep : Bool}
    (hlayout : a.layout mode keep = .ok a') : Dated a' := by
  obtain ⟨mode', keep', rfl, -⟩ := layout_eq_ok hlayout
  exact Dated.relayout (a := { a with mode := mode' }) h keep'

theorem dated_adopt (a : Atlas α) (window : List (Trace α)) (g : Graph α) :
    Dated (a.adopt window g) := by
  have hidle : Dated { a.close with traces := window, graph := some g } :=
    dated_of_idle a.live_close
  exact hidle.relayout _

/-- A refresh makes its simulation at the count that it has just raised. -/
theorem dated_refresh {generatedAt : α} {traces : List (Trace α)} {g : Graph α}
    (hrefresh : a.refresh generatedAt traces = (.ok g, a')) : Dated a' := by
  obtain ⟨-, rfl⟩ := refresh_eq_ok hrefresh
  exact dated_adopt _ _ _

/-- **Whatever is done** with an atlas, simulations are made at the count of that time. -/
theorem Dated.make (h : Dated a) {move : Move α} (hmove : move.make a = .ok a') : Dated a' := by
  cases move with
  | refresh generatedAt traces =>
    obtain ⟨g, hrefresh⟩ := done_eq_ok.mp hmove
    exact dated_refresh hrefresh
  | layout mode keep => exact h.layout hmove
  | select id =>
    cases hmove
    rw [select_eq]
    exact h
  | drag id x y =>
    obtain ⟨r, hdrag, rfl⟩ := map_eq_ok.mp hmove
    exact (goesOn_drag hdrag).dated h
  | release id =>
    obtain ⟨r, hrelease, rfl⟩ := map_eq_ok.mp hmove
    exact (goesOn_release hrelease).dated h
  | start =>
    obtain ⟨r, hstart, rfl⟩ := map_eq_ok.mp hmove
    exact (goesOn_start hstart).dated h
  | tick n =>
    obtain ⟨b, htick⟩ := done_eq_ok.mp hmove
    have hgoes := a.goesOn_tickNumber n
    rw [htick] at hgoes
    exact hgoes.dated h
  | turn =>
    cases hmove
    exact a.goesOn_turn.dated h
  | close =>
    cases hmove
    exact dated_of_idle a.live_close

/-- A refresh that fails does not make one either. -/
theorem Dated.refresh (h : Dated a) {generatedAt : α} {traces : List (Trace α)}
    (hfails : Fails (a.refresh generatedAt traces).1) : Dated (a.refresh generatedAt traces).2 := by
  rw [refresh_of_fails hfails]
  exact fun l hl => (h l hl).trans (Nat.le_succ _)

/-- What a new atlas can become: by moves that do not fail, and by those that do and leave something
behind, which are refreshes and steps. -/
inductive Reached : Atlas α → Prop where
  | new (limits : Thresholds α) (mode : Mode) (layerGap nodeGap : α) (pinEndpoints : Bool)
      (iterations : Int) :
      Reached { limits, mode, layerGap, nodeGap, pinEndpoints, iterations }
  | make {a a' : Atlas α} {move : Move α} (h : Reached a) (hmove : move.make a = .ok a') :
      Reached a'
  | failed {a : Atlas α} {generatedAt : α} {traces : List (Trace α)} (h : Reached a)
      (hfails : Fails (a.refresh generatedAt traces).1) : Reached (a.refresh generatedAt traces).2
  | stuck {a : Atlas α} {n : Nat} (h : Reached a) (hfails : Fails (a.tickNumber n).1) :
      Reached (a.tickNumber n).2

/-- **In every state that is reached** no simulation was made at a count to come. -/
theorem Reached.dated (h : Reached a) : Dated a := by
  induction h with
  | new => exact dated_of_idle rfl
  | make _ hmove ih => exact ih.make hmove
  | failed _ hfails ih => exact ih.refresh hfails
  | stuck _ _ ih => exact (goesOn_tickNumber _ _).dated ih

theorem Reached.run (h : Reached a) {moves : List (Move α)} (hrun : Atlas.run moves a = .ok a') :
    Reached a' := run_keeps (fun h hmove => h.make hmove) h hrun

end Moving

/-! ## 3. Time after a failed refresh -/

/-- An atlas with another count and other positions. -/
def behind (generation : Nat) (positions : Positions α) (a : Atlas α) : Atlas α :=
  { a with generation, positions }

/-- The live simulation was not made at a count. -/
def OutOfDate (generation : Nat) (a : Atlas α) : Prop :=
  ∀ l, a.live = some l → l.generation ≠ generation

/-- Time goes on, and nothing else happens. -/
def Move.Passes : Move α → Prop
  | .start | .tick _ | .turn => True
  | _ => False

variable {generation : Nat} {positions : Positions α}

theorem GoesOn.outOfDate (h : GoesOn a a') (hout : OutOfDate generation a) :
    OutOfDate generation a' := by
  intro l' hl'
  obtain ⟨l, hl, hmade⟩ := h.live l' hl'
  rw [hmade]
  exact hout l hl

/-- A step of a simulation that is out of date is not followed, whatever the count. -/
theorem follow_behind {l : LiveSimulation α} (h : l.generation ≠ generation) (s : Simulation α) :
    (a.behind generation positions).follow l s = (a.follow l s).behind generation positions := by
  have hstill : (a.behind generation positions).follow l s
      = { a.behind generation positions with live := some { l with simulation := s } } := by
    rcases (a.behind generation positions).follow_cases l s with ⟨-, hmade, -⟩ | ⟨-, heq⟩
    · exact absurd hmade h
    · exact heq
  rw [hstill]
  rcases a.follow_cases l s with ⟨-, -, heq⟩ | ⟨-, heq⟩
  · rw [heq]
    rfl
  · rw [heq]
    rfl

/-- A loop begins whatever the count and the positions are. -/
theorem startSimulation_behind :
    (a.behind generation positions).startSimulation
      = a.startSimulation.map fun r => (r.1, r.2.behind generation positions) := by
  have hlive : (a.behind generation positions).live = a.live := rfl
  unfold startSimulation
  rw [hlive]
  cases a.live with
  | none => rfl
  | some l =>
    cases hs : l.simulation.start with
    | error fault =>
      simp only [hs]
      rfl
    | ok s =>
      simp only [hs]
      rfl

section Passing

variable [Scalar α] [Planar α]

theorem tick_behind (h : OutOfDate generation a) :
    (a.behind generation positions).tick = (a.tick.1, a.tick.2.behind generation positions) := by
  cases hl : a.live with
  | none =>
    have hl' : (a.behind generation positions).live = none := hl
    rw [tick_of_idle hl, tick_of_idle hl']
  | some l =>
    have hl' : (a.behind generation positions).live = some l := hl
    rw [tick_of_live hl, tick_of_live hl', follow_behind (h l hl)]

/-- A step comes to the same for a simulation that is out of date. -/
theorem tickNumber_behind (h : OutOfDate generation a) (n : Nat) :
    (a.behind generation positions).tickNumber n
      = ((a.tickNumber n).1, (a.tickNumber n).2.behind generation positions) := by
  have hretired : (a.behind generation positions).retired = a.retired := rfl
  unfold tickNumber
  rw [hretired]
  cases a.retired[n]? with
  | none =>
    by_cases hn : n = a.retired.length
    · simp only [if_pos hn, tick_behind h]
    · simp only [if_neg hn]
  | some s => rfl

/-- A turn comes to the same when the live simulation is out of date. -/
theorem turn_behind (h : OutOfDate generation a) :
    (a.behind generation positions).turn = a.turn.behind generation positions := by
  cases hl : a.live with
  | none =>
    have hl' : (a.behind generation positions).live = none := hl
    rw [turn_of_idle hl, turn_of_idle hl']
    rfl
  | some l =>
    have hl' : (a.behind generation positions).live = some l := hl
    rw [turn_of_live hl, turn_of_live hl', ← follow_behind (h l hl)]
    rfl

/-- While time only goes on, nothing depends on the count or the positions any more. -/
theorem make_behind {move : Move α} (hpasses : move.Passes) (h : OutOfDate generation a) :
    move.make (a.behind generation positions)
      = (move.make a).map (behind generation positions) := by
  cases move with
  | start =>
    simp only [Move.make, startSimulation_behind]
    cases a.startSimulation <;> rfl
  | tick n =>
    simp only [Move.make, tickNumber_behind h]
    cases houtcome : (a.tickNumber n).1 <;> simp only [done, houtcome] <;> rfl
  | turn =>
    simp only [Move.make, turn_behind h]
    rfl
  | _ => cases hpasses

/-- While time only goes on, no simulation is made. -/
theorem goesOn_make {move : Move α} (hpasses : move.Passes) (hmove : move.make a = .ok a') :
    GoesOn a a' := by
  cases move with
  | start =>
    obtain ⟨r, hstart, rfl⟩ := map_eq_ok.mp hmove
    exact goesOn_start hstart
  | tick n =>
    obtain ⟨b, htick⟩ := done_eq_ok.mp hmove
    have hgoes := a.goesOn_tickNumber n
    rw [htick] at hgoes
    exact hgoes
  | turn =>
    cases hmove
    exact a.goesOn_turn
  | _ => cases hpasses

/-- **Time passes by an atlas that is out of date**: everything goes on as it would, but the
positions stand still. -/
theorem run_behind {moves : List (Move α)} (hpass : ∀ move ∈ moves, move.Passes)
    (h : OutOfDate generation a) :
    run moves (a.behind generation positions)
      = (run moves a).map (behind generation positions) := by
  induction moves generalizing a with
  | nil => rfl
  | cons move moves ih =>
    obtain ⟨hfirst, hrest⟩ := List.forall_mem_cons.mp hpass
    show (move.make (a.behind generation positions) >>= run moves)
      = (move.make a >>= run moves).map (behind generation positions)
    rw [make_behind hfirst h]
    cases hmove : move.make a with
    | error fault => rfl
    | ok a' => exact ih hrest ((goesOn_make hfirst hmove).outOfDate h)

/-- **A refresh that fails** leaves graph, traces, positions, simulations, drags and selection as
they are, and counts itself; it fails just for the host names in its window.  While time passes
afterwards every simulation goes on as it would have, but the positions stay where they were.  That
the atlas is dated holds in every state (`Reached.dated`). -/
theorem refresh_of_misnamed (a : Atlas α) (generatedAt : α) (traces : List (Trace α)) :
    (Fails (a.refresh generatedAt traces).1 ↔ Misnamed (window traces)) ∧
    (Misnamed (window traces) →
      (a.refresh generatedAt traces).2 = { a with generation := a.generation + 1 } ∧
      (Dated a → ∀ moves : List (Move α), (∀ move ∈ moves, move.Passes) →
        run moves (a.refresh generatedAt traces).2 = (run moves a).map fun a' =>
          { a' with generation := a.generation + 1, positions := a.positions })) := by
  refine ⟨a.fails_refresh_iff generatedAt traces, fun hnames => ?_⟩
  have hfails := (a.fails_refresh_iff generatedAt traces).mpr hnames
  refine ⟨refresh_of_fails hfails, fun hdated moves hpass => ?_⟩
  have hstale : OutOfDate (a.generation + 1) a := by
    intro l hl
    have hmade := hdated l hl
    omega
  rw [refresh_of_fails hfails]
  exact run_behind hpass hstale

end Passing

/-- A trace of which the answering host has a list for a name. -/
def listNamed : Trace Float where
  source := "7"
  target := "10.0.0.9"
  hops :=
    [{ ttl := .whole 1, hosts := [⟨"10.0.0.1", .list [.whole 1]⟩], loss := 0
       average := some 12, best := some 11, worst := some 14, jitter := some 1
       sent := .whole 3, received := .whole 3 }]
  time := 6

theorem misnamed_listNamed : Misnamed (window [listNamed]) := by
  rw [← fails_ofTraces_iff_misnamed .standard 0]
  have hfails : (Graph.ofTraces .standard 0 (window [listNamed])).isOk = false := by
    decide +kernel
  cases hgraph : Graph.ofTraces .standard 0 (window [listNamed]) with
  | error fault => exact fails_error fault
  | ok g =>
    rw [hgraph] at hfails
    cases hfails

/-- A graph is laid out by forces, and the simulation left to itself. -/
def settingOut : List (Move Float) :=
  [.layout (some (.text "force")) false, .refresh 5 [oneStep], .start]

/-- After these moves there is a simulation of the present count. -/
theorem live_settingOut : ∃ a l, run settingOut blank = .ok a ∧ a.live = some l ∧
    l.generation = a.generation := by
  have hlive : ((run settingOut blank).toOption.any fun a => a.live.isSome) = true := by
    decide +kernel
  cases hrun : run settingOut blank with
  | error fault =>
    rw [hrun] at hlive
    cases hlive
  | ok a =>
    rw [hrun] at hlive
    obtain ⟨l, hl⟩ := Option.isSome_iff_exists.mp (show a.live.isSome = true from hlive)
    have hsound := ((sound_new ..).run hrun).sound
    exact ⟨a, l, rfl, hl, (hsound.driven l hl).current⟩

/-- After a failed refresh the live simulation is the one that it was, and out of date. -/
theorem refresh_of_listNamed : ∃ a l, run settingOut blank = .ok a ∧ a.live = some l ∧
    l.generation = a.generation ∧ Fails (a.refresh 6 [listNamed]).1 ∧
    (a.refresh 6 [listNamed]).2.live = some l ∧
    l.generation ≠ (a.refresh 6 [listNamed]).2.generation := by
  obtain ⟨a, l, hrun, hl, hmade⟩ := live_settingOut
  have hfails := (a.fails_refresh_iff 6 [listNamed]).mpr misnamed_listNamed
  refine ⟨a, l, hrun, hl, hmade, hfails, ?_⟩
  rw [refresh_of_fails hfails]
  exact ⟨hl, hmade ▸ (Nat.succ_ne_self _).symm⟩

theorem refresh_of_misnamed_settingOut : ∃ a, run settingOut blank = .ok a ∧
    (a.refresh 6 [listNamed]).2 = { a with generation := a.generation + 1 } ∧
    run [.turn, .tick 0, .turn] (a.refresh 6 [listNamed]).2
      = (run [.turn, .tick 0, .turn] a).map fun a' =>
          { a' with generation := a.generation + 1, positions := a.positions } := by
  obtain ⟨a, l, hrun, hl, hmade⟩ := live_settingOut
  have hdated : Dated a := ((Reached.new ..).run hrun).dated
  obtain ⟨hafter, htime⟩ := (refresh_of_misnamed a 6 [listNamed]).2 misnamed_listNamed
  exact ⟨a, hrun, hafter, htime hdated _ (by simp [Move.Passes])⟩

end Atlas

end PathAtlas
