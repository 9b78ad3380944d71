/-
# A loop in the background

A run takes its steps at once, and a loop takes one of them at every turn.  They stop for different
reasons: a run counts its steps and looks at what each of them says, while a turn comes to all loops
that there ever were, and each is looked up anew.  Still a loop that is left alone does what a run
does (`RunsAlong`), and this rests on three facts.

* What a step does has nothing to do with loops (`MovesAlike.advance`).
* While a simulation goes on, nothing stops a loop (`Unstopped.perform`), and all loops are over but
  the one that belongs to it.  So a turn is a turn of that loop (`turn_eq_turnLoop`).
* A loop that is over stays as it is (`turns_of_isOver`), as a run does that has come to its end.

The end is told by the step that settles and by no other (`Lasts.settle_heard`,
`Ends.settle_heard`).
-/
import PathAtlas.Proofs.Motion.Cooling
import PathAtlas.Proofs.Motion.Loops

namespace PathAtlas.Motion

open PathAtlas.Topology PathAtlas.Layout

variable {α : Type}

/-- How a loop ends whose last step came to this. -/
def LoopPhase.ofOutcome : Except Fault Unit → LoopPhase
  | .ok () => .finished
  | .error fault => .failed fault

theorem LoopPhase.isOver_ofOutcome (outcome : Except Fault Unit) :
    (ofOutcome outcome).isOver = true := by
  cases outcome <;> rfl

namespace Simulation

/-! ## 1. Steps know nothing of loops -/

/-- Two simulations that differ in nothing but their loops. -/
structure MovesAlike (s s' : Simulation α) : Prop where
  settings : s'.settings = s.settings
  bodies : s'.bodies = s.bodies
  cooling : s'.cooling = s.cooling
  ticks : s'.ticks = s.ticks
  destroyed : s'.destroyed = s.destroyed
  listeners : s'.listeners = s.listeners
  heard : s'.heard = s.heard
  unreal : s'.unreal = s.unreal

@[refl] theorem MovesAlike.refl (s : Simulation α) : MovesAlike s s :=
  ⟨rfl, rfl, rfl, rfl, rfl, rfl, rfl, rfl⟩

theorem MovesAlike.positions {s s' : Simulation α} (h : MovesAlike s s') :
    s'.positions = s.positions := by
  rw [Simulation.positions, h.bodies, Simulation.positions]

theorem movesAlike_loops (s : Simulation α) (loops : List LoopPhase) :
    MovesAlike s { s with loops } := ⟨rfl, rfl, rfl, rfl, rfl, rfl, rfl, rfl⟩

/-- Simulations that differ from one in their loops alone do so from one another. -/
theorem MovesAlike.trans {s s' s'' : Simulation α} (h : MovesAlike s s')
    (h' : MovesAlike s' s'') : MovesAlike s s'' where
  settings := h'.settings.trans h.settings
  bodies := h'.bodies.trans h.bodies
  cooling := h'.cooling.trans h.cooling
  ticks := h'.ticks.trans h.ticks
  destroyed := h'.destroyed.trans h.destroyed
  listeners := h'.listeners.trans h.listeners
  heard := h'.heard.trans h.heard
  unreal := h'.unreal.trans h.unreal

theorem MovesAlike.eq {s s' : Simulation α} (h : MovesAlike s s') :
    s' = { s with loops := s'.loops, current := s'.current, looping := s'.looping } := by
  obtain ⟨_, _, _, _, _, _, _, _, _, _, _⟩ := s'
  obtain ⟨rfl, rfl, rfl, rfl, rfl, rfl, rfl, rfl⟩ := h
  rfl

section Stepping

variable [Scalar α] [Planar α] {s s' s'' : Simulation α} {n : Nat}
  {r : Except Fault Unit × Simulation α}

theorem stall_loops (s : Simulation α) (loops : List LoopPhase) (current : Option Nat)
    (looping : Bool) :
    ({ s with loops, current, looping } : Simulation α).stall
      = (s.stall.1, { s.stall.2 with loops, current, looping }) := by
  unfold stall
  dsimp only
  split
  · rfl
  · split <;> rfl

/-- **A step** is the same whatever the loops are. -/
theorem advance_loops (s : Simulation α) (loops : List LoopPhase) (current : Option Nat)
    (looping : Bool) :
    ({ s with loops, current, looping } : Simulation α).advance
      = (s.advance.1, { s.advance.2 with loops, current, looping }) := by
  unfold Simulation.advance
  dsimp only
  split
  · rfl
  · split
    · exact stall_loops
        { s with
          cooling := s.cooling.step
          unreal := s.unreal || (s.cooling.step.lost && springsAct s.settings s.bodies) }
        loops current looping
    · split
      · rfl
      · split <;> rfl

theorem MovesAlike.advance (h : MovesAlike s s') {outcome : Except Fault Bool} {t : Simulation α}
    (hs : s.advance = (outcome, t)) : ∃ t', s'.advance = (outcome, t') ∧ MovesAlike t t' := by
  rw [h.eq, advance_loops, hs]
  exact ⟨_, rfl, rfl, rfl, rfl, rfl, rfl, rfl, rfl, rfl⟩

theorem MovesAlike.lasts (h : MovesAlike s s') {t : Simulation α} (hlasts : Lasts s n t) :
    ∃ t', Lasts s' n t' ∧ MovesAlike t t' := by
  induction hlasts generalizing s' with
  | start s => exact ⟨s', .start s', h⟩
  | step first _ ih =>
    obtain ⟨u, hfirst, halike⟩ := h.advance first
    obtain ⟨t', hlasts, halike⟩ := ih halike
    exact ⟨t', .step hfirst hlasts, halike⟩

/-- A run comes to the same end whatever the loops are. -/
theorem MovesAlike.ends (h : MovesAlike s s') (hends : Ends s n r) :
    ∃ t', Ends s' n (r.1, t') ∧ MovesAlike r.2 t' := by
  induction hends generalizing s' with
  | settles last =>
    obtain ⟨t', hlast, halike⟩ := h.advance last
    exact ⟨t', .settles hlast, halike⟩
  | fails last =>
    obtain ⟨t', hlast, halike⟩ := h.advance last
    exact ⟨t', .fails hlast, halike⟩
  | step first _ ih =>
    obtain ⟨u, hfirst, halike⟩ := h.advance first
    obtain ⟨t', hends, halike⟩ := ih halike
    exact ⟨t', .step hfirst hends, halike⟩

/-! ## 2. The end is told once -/

/-- A step that does not fail tells the end when it does not go on. -/
theorem settle_heard_advance {goesOn : Bool} (h : s.advance = (.ok goesOn, s')) :
    s'.listeners = s.listeners ∧
      s'.heard.settle = s.heard.settle + if goesOn then 0 else s.listeners.settle := by
  have hsteps := s.stepsTo_advance
  rw [h] at hsteps
  cases hsteps <;> exact ⟨rfl, rfl⟩

/-- A step that fails tells no end. -/
theorem settle_heard_advance_of_error {fault : Fault} (h : s.advance = (.error fault, s')) :
    s'.heard.settle = s.heard.settle := by
  have hsteps := s.stepsTo_advance
  rw [h] at hsteps
  cases hsteps <;> rfl

/-- Steps that go on tell no end. -/
theorem Lasts.settle_heard (h : Lasts s n s') : s'.heard.settle = s.heard.settle := by
  induction h with
  | start s => rfl
  | step first _ ih => exact ih.trans (settle_heard_advance first).2

/-- **The end** is told once, when the last step settles. -/
theorem Ends.settle_heard (h : Ends s n r) :
    r.2.heard.settle = s.heard.settle + if r.1 = .ok () then s.listeners.settle else 0 := by
  induction h with
  | settles last => exact (settle_heard_advance last).2
  | fails last => exact settle_heard_advance_of_error last
  | step first _ ih =>
    obtain ⟨hlisteners, hheard⟩ := settle_heard_advance first
    rw [ih, hheard, hlisteners, if_pos rfl, Nat.add_zero]

/-! ## 3. Turns of one loop -/

/-- Every loop but one is over. -/
def OnlyLoop (s : Simulation α) (i : Nat) : Prop :=
  ∀ j, j ≠ i → ∀ phase ∈ s.loops[j]?, phase.isOver = true

theorem turnLoop_of_isOver {i : Nat} (h : ∀ phase ∈ s.loops[i]?, phase.isOver = true) :
    s.turnLoop i = s := by
  rcases s.turnLoop_cases i with ⟨hi, -⟩ | ⟨hi, -⟩ | ⟨-, heq⟩
  · cases h _ hi
  · cases h _ hi
  · exact heq

theorem foldl_turnLoop_of_isOver {places : List Nat}
    (h : ∀ i ∈ places, ∀ phase ∈ s.loops[i]?, phase.isOver = true) :
    places.foldl turnLoop s = s := by
  induction places with
  | nil => rfl
  | cons i places ih =>
    obtain ⟨hi, hplaces⟩ := List.forall_mem_cons.mp h
    rw [List.foldl_cons, turnLoop_of_isOver hi, ih hplaces]

/-- **A turn** is a turn of the only loop that is not over. -/
theorem turn_eq_turnLoop {i : Nat} (h : OnlyLoop s i) (hi : i < s.loops.length) :
    s.turn = s.turnLoop i := by
  obtain ⟨front, back, hsplit⟩ := List.append_of_mem (List.mem_range.mpr hi)
  have hnodup : (front ++ i :: back).Nodup := hsplit ▸ List.nodup_range
  obtain ⟨-, hback, hfront⟩ := List.nodup_append.mp hnodup
  have hfront : ∀ j ∈ front, j ≠ i := fun j hj => hfront j hj i List.mem_cons_self
  have hback : ∀ j ∈ back, j ≠ i := fun j hj he => (List.nodup_cons.mp hback).1 (he ▸ hj)
  rw [turn, hsplit, List.foldl_append, List.foldl_cons,
    foldl_turnLoop_of_isOver (s := s) fun j hj => h j (hfront j hj)]
  refine foldl_turnLoop_of_isOver fun j hj phase hphase => ?_
  rw [s.loops_turnLoop_of_ne (hback j hj).symm] at hphase
  exact h j (hback j hj) phase hphase

/-- When all loops are over nothing happens any more. -/
theorem turns_of_isOver (h : ∀ phase ∈ s.loops, phase.isOver = true) (n : Nat) :
    turns n s = s := by
  have hturn : s.turn = s :=
    foldl_turnLoop_of_isOver fun _ _ phase hphase => h phase (List.mem_of_getElem? hphase)
  induction n with
  | zero => rfl
  | succ n ih => rw [turns, hturn, ih]

theorem turns_add (m n : Nat) (s : Simulation α) : turns (m + n) s = turns n (turns m s) := by
  induction m generalizing s with
  | zero => rw [Nat.zero_add, turns]
  | succ m ih => rw [Nat.succ_add, turns, turns, ih]

/-! ## 4. A loop and a run -/

theorem loops_of_advance {outcome : Except Fault Bool} (h : s.advance = (outcome, s')) :
    s'.loops = s.loops := by
  have hsame := s.sameLoops_advance.loops
  rwa [h] at hsame

section Loop

variable {i : Nat}

/-- Steps that go on are turns, after which there is the same loop. -/
theorem turns_of_lasts (honly : OnlyLoop s i) (hlive : s.loops[i]? = some .live)
    (h : Lasts s n s') : turns n s = s' ∧ s'.loops = s.loops := by
  induction h with
  | start s => exact ⟨rfl, rfl⟩
  | @step s u s' n first _ ih =>
    have hloops : u.loops = s.loops := loops_of_advance first
    have hturn : s.turn = u := by
      rw [turn_eq_turnLoop honly (List.getElem?_eq_some_iff.mp hlive).1, turnLoop, hlive]
      simp only [first]
    have honly' : OnlyLoop u i := by rwa [OnlyLoop, hloops]
    rw [turns, hturn, ← hloops]
    exact ih honly' (hloops ▸ hlive)

/-- **The last step** is a turn in which the loop comes to its end. -/
theorem turns_of_ends (honly : OnlyLoop s i) (hlive : s.loops[i]? = some .live)
    (h : Ends s n r) : turns n s = { r.2 with loops := s.loops.set i (.ofOutcome r.1) } := by
  have hi : i < s.loops.length := (List.getElem?_eq_some_iff.mp hlive).1
  induction h with
  | settles last | fails last =>
    rw [turns, turns, turn_eq_turnLoop honly hi, turnLoop, hlive]
    simp only [last, loops_of_advance last]
    rfl
  | @step s u n r first _ ih =>
    obtain ⟨hturn, hloops⟩ := turns_of_lasts honly hlive (.step first (.start u))
    have honly' : OnlyLoop u i := by rwa [OnlyLoop, hloops]
    rw [Nat.add_comm, turns_add, hturn, ← hloops]
    exact ih honly' (hloops ▸ hlive) (hloops ▸ hi)

/-- After the last step nothing happens any more. -/
theorem turns_of_ends_of_le (honly : OnlyLoop s i) (hlive : s.loops[i]? = some .live)
    (h : Ends s n r) {k : Nat} (hk : n ≤ k) :
    turns k s = { r.2 with loops := s.loops.set i (.ofOutcome r.1) } := by
  obtain ⟨more, rfl⟩ := Nat.exists_eq_add_of_le hk
  rw [turns_add, turns_of_ends honly hlive h]
  refine turns_of_isOver (fun phase hphase => ?_) more
  obtain ⟨j, hj⟩ := List.mem_iff_getElem?.mp hphase
  by_cases hne : j = i
  · subst hne
    rw [List.getElem?_set_self (List.getElem?_eq_some_iff.mp hlive).1] at hj
    exact Option.some.inj hj ▸ LoopPhase.isOver_ofOutcome r.1
  · rw [List.getElem?_set_ne (Ne.symm hne)] at hj
    exact honly j hne phase hj

end Loop

/-- Before the last step a run goes on. -/
theorem Ends.lasts (h : Ends s n r) {k : Nat} (hk : k < n) : ∃ s', Lasts s k s' := by
  induction h generalizing k with
  | @settles s | @fails s =>
    obtain rfl : k = 0 := by omega
    exact ⟨s, .start s⟩
  | @step s _ _ _ first _ ih =>
    cases k with
    | zero => exact ⟨s, .start s⟩
    | succ k =>
      obtain ⟨s', hlasts⟩ := ih (Nat.lt_of_succ_lt_succ hk)
      exact ⟨s', .step first hlasts⟩

/-- A limit that is not reached does not matter. -/
theorem advanceUpTo_of_ends (h : Ends s n r) {k : Nat} (hk : n ≤ k) : advanceUpTo k s = r := by
  induction h generalizing k with
  | settles last | fails last =>
    obtain ⟨k, rfl⟩ := Nat.exists_eq_add_of_lt hk
    rw [Nat.zero_add, advanceUpTo, last]
  | step first _ ih =>
    obtain ⟨k, rfl⟩ := Nat.exists_eq_add_of_lt (Nat.zero_lt_of_lt hk)
    rw [Nat.zero_add] at hk ⊢
    rw [advanceUpTo, first]
    exact ih (Nat.le_of_succ_le_succ hk)

end Stepping

/-! ## 5. Loops that nobody stops -/

/-- While a simulation goes on nobody stops a loop of it. -/
def Unstopped (s : Simulation α) : Prop := s.destroyed = false → LoopPhase.cancelling ∉ s.loops

section Unstopped

variable {s s' : Simulation α}

theorem Unstopped.of_same (h : Unstopped s) (hsame : SameLoops s s') : Unstopped s' := by
  intro halive
  rw [hsame.loops]
  exact h (hsame.destroyed ▸ halive)

theorem Unstopped.spawn (h : Unstopped s) : Unstopped s.spawn := by
  unfold Simulation.spawn
  split
  · exact h
  · intro halive hmem
    rcases List.mem_append.mp hmem with hmem | hmem
    · exact h halive hmem
    · cases List.mem_singleton.mp hmem

theorem Unstopped.heatUp [Scalar α] (h : Unstopped s) (target : α) :
    Unstopped (s.heatUp target).2 := by
  have haimed : Unstopped (s.aimed target) := h.of_same ⟨rfl, rfl, rfl⟩
  rcases s.heatUp_cases target with ⟨_, heq⟩ | ⟨-, -, heq | heq⟩ <;> rw [heq]
  · exact h
  · exact haimed
  · exact haimed.spawn

theorem Unstopped.grab [Scalar α] (h : Unstopped s) (id : String) : Unstopped (s.grab id).2 := by
  have hheld : Unstopped (s.hold id) := h.of_same ⟨rfl, rfl, rfl⟩
  rcases s.grab_cases id with ⟨_, heq⟩ | ⟨-, heq⟩ <;> rw [heq]
  · exact h
  · exact hheld.heatUp dragHeat

variable [Scalar α] [Planar α]

theorem Unstopped.advance (h : Unstopped s) : Unstopped s.advance.2 :=
  h.of_same s.sameLoops_advance

/-- Loops that come to an end by themselves are not stopped. -/
theorem Unstopped.turnLoop (h : Unstopped s) (i : Nat) : Unstopped (s.turnLoop i) := by
  have hset : ∀ {s : Simulation α} {ended : LoopPhase}, Unstopped s → ended.isOver = true →
      Unstopped { s with loops := s.loops.set i ended } := by
    intro s ended h hended halive hmem
    rcases List.mem_or_eq_of_mem_set hmem with hmem | rfl
    · exact h halive hmem
    · cases hended
  rcases s.turnLoop_cases i with ⟨-, heq | ⟨ended, hended, heq⟩⟩ | ⟨-, heq⟩ | ⟨-, heq⟩
  · rw [heq]
    exact h.advance
  · rw [heq]
    exact hset h.advance hended
  · rw [heq]
    exact hset h rfl
  · rw [heq]
    exact h

/-- No act but the end stops a loop. -/
theorem Unstopped.perform (h : Unstopped s) (act : Act α) : Unstopped (act.perform s).2 := by
  cases act with
  | tick => exact tick_keeps Unstopped.advance h
  | run limit => exact run_keeps Unstopped.advance limit h
  | listen event => exact orSame_keeps h fun _ hs => h.of_same (sameLoops_listen hs)
  | start =>
    refine orSame_keeps h fun s' hs => ?_
    obtain ⟨_, -, hs⟩ := bind_eq_ok.mp hs
    have hasked : Unstopped { s with looping := true } := h.of_same ⟨rfl, rfl, rfl⟩
    exact Except.ok.inj hs ▸ hasked.spawn
  | restart target => exact h.heatUp target
  | dragStart id => exact h.grab id
  | dragTo id x y => exact orSame_keeps h fun _ hs => h.of_same (sameLoops_dragTo hs)
  | dragEnd id keep => exact orSame_keeps h fun _ hs => h.of_same (sameLoops_dragEnd hs)
  | destroy =>
    intro halive
    rw [Act.perform, destroyed_destroy] at halive
    cases halive
  | resume loop => exact h.turnLoop loop
  | turn => exact turn_keeps (fun i h => h.turnLoop i) h

end Unstopped

/-! ## 6. Beginning a loop -/

/-- A loop that is not over is the only one. -/
theorem Tended.onlyLoop {s : Simulation α} (h : Tended s) {i : Nat}
    (hlive : s.loops[i]? = some .live) : OnlyLoop s i := by
  obtain ⟨hi, hget⟩ := List.getElem?_eq_some_iff.mp hlive
  intro j hne phase hphase
  have hnone : (s.loops.set i .finished).countP (fun phase => !phase.isOver) = 0 :=
    h.countP_set hlive rfl rfl
  have hj : (s.loops.set i .finished)[j]? = some phase := by
    rw [List.getElem?_set_ne hne.symm]
    exact hphase
  simpa using List.countP_eq_zero.mp hnone phase (List.mem_of_getElem? hj)

/-- **Asking for a loop** gives the one that is live, and a new one when there is none. -/
theorem start_live {s : Simulation α} (h : Tended s) (hfree : Unstopped s)
    (halive : s.destroyed = false) :
    ∃ begun i, s.start = .ok begun ∧ begun.current = some i ∧ begun.loops[i]? = some .live ∧
      OnlyLoop begun i ∧ MovesAlike s begun := by
  have hstart : s.start = .ok ({ s with looping := true } : Simulation α).spawn := by
    have hcheck : s.checkAlive = .ok () := checkAlive_eq_ok.mpr halive
    rw [start, hcheck]
    rfl
  have htended := h.start hstart
  have halike : MovesAlike s ({ s with looping := true } : Simulation α).spawn := by
    rw [spawn_eq]
    exact ⟨rfl, rfl, rfl, rfl, rfl, rfl, rfl, rfl⟩
  obtain ⟨i, hcurrent, hlive⟩ : ∃ i,
      ({ s with looping := true } : Simulation α).spawn.current = some i ∧
        ({ s with looping := true } : Simulation α).spawn.loops[i]? = some .live := by
    unfold spawn
    split
    · rename_i hrunning
      obtain ⟨phase, hphase, hopen⟩ := (Option.any_eq_true ..).mp hrunning
      obtain ⟨i, hcurrent, hi⟩ := Option.bind_eq_some_iff.mp hphase
      refine ⟨i, hcurrent, ?_⟩
      cases phase with
      | live => exact hi
      | cancelling => exact absurd (List.mem_of_getElem? hi) (hfree halive)
      | finished | cancelled | failed => cases hopen
    · exact ⟨s.loops.length, rfl, by simp⟩
  exact ⟨_, i, hstart, hcurrent, hlive, htended.onlyLoop hlive, halike⟩

/-! ## 7. Main result -/

variable [Scalar α] [Planar α]

/-- The loop `i` of a simulation `begun` does at its turns what a run of `s` does at once. -/
structure RunsAlong (s begun : Simulation α) (i : Nat) : Prop where
  /-- So many turns leave everything as a run of so many steps does. -/
  alike (k : Nat) : MovesAlike (s.run (some k)).2 (turns k begun) ∧
    (turns k begun).positions = (s.run (some k)).2.positions
  /-- While the run goes on the loop is live, and no end was told. -/
  live {k : Nat} {s' : Simulation α} : Lasts s k s' →
    (turns k begun).loops[i]? = some .live ∧ (turns k begun).heard.settle = s.heard.settle
  /-- A run that is over after `n` steps, with a limit or without, goes on until then. -/
  stops {n : Nat} {r : Except Fault Unit × Simulation α} : Ends s n r →
    s.run none = r ∧ (∀ k : Nat, n ≤ k → s.run (some k) = r) ∧ ∀ k < n, ∃ s', Lasts s k s'
  /-- The loop comes to its end, as the run does, at the very turn of the last step, and the end is
  told once if that step settles. -/
  ends {n : Nat} {r : Except Fault Unit × Simulation α} : Ends s n r → ∀ k ≥ n,
    (turns k begun).loops[i]? = some (.ofOutcome r.1) ∧
      (turns k begun).heard.settle
        = s.heard.settle + if r.1 = .ok () then s.listeners.settle else 0

/-- A loop that is alone in being live keeps up with a run. -/
theorem runsAlong {s begun : Simulation α} {i : Nat} (halive : s.destroyed = false)
    (hlive : begun.loops[i]? = some .live) (honly : OnlyLoop begun i)
    (halike : MovesAlike s begun) : RunsAlong s begun i where
  alike k := by
    have hmoves : MovesAlike (s.run (some k)).2 (turns k begun) := by
      rw [run_some halive, Int.toNat_natCast]
      rcases advanceUpTo_cases k s with ⟨n, hn, hends⟩ | ⟨-, hlasts⟩
      · obtain ⟨t, hbegun, hsame⟩ := halike.ends hends
        rw [turns_of_ends_of_le honly hlive hbegun hn]
        exact hsame.trans (movesAlike_loops _ _)
      · obtain ⟨t, hbegun, hsame⟩ := halike.lasts hlasts
        rw [(turns_of_lasts honly hlive hbegun).1]
        exact hsame
    exact ⟨hmoves, hmoves.positions⟩
  live hlasts := by
    obtain ⟨t, hbegun, hsame⟩ := halike.lasts hlasts
    obtain ⟨hturns, hloops⟩ := turns_of_lasts honly hlive hbegun
    rw [hturns, hloops, hsame.heard]
    exact ⟨hlive, hlasts.settle_heard⟩
  stops hends := by
    refine ⟨run_of_ends halive hends, fun k hk => ?_, fun k => hends.lasts⟩
    rw [run_some halive, Int.toNat_natCast, advanceUpTo_of_ends hends hk]
  ends hends k hk := by
    obtain ⟨t, hbegun, hsame⟩ := halike.ends hends
    rw [turns_of_ends_of_le honly hlive hbegun hk]
    refine ⟨List.getElem?_set_self (List.getElem?_eq_some_iff.mp hlive).1, ?_⟩
    exact (congrArg EventCounts.settle hsame.heard).trans hends.settle_heard

/-- **A loop in the background.**  Whatever was done with a simulation that still goes on, asking
for a loop gives one that does at its turns what a run does at once, when nothing else is done
meanwhile. -/
theorem background_matches_run (settings : Settings α) (g : Graph α) (starts : Positions α)
    (pinned : List String) (acts : List (Act α))
    (halive : (after acts (create settings g starts pinned)).destroyed = false) :
    ∃ begun i, (after acts (create settings g starts pinned)).start = .ok begun ∧
      begun.current = some i ∧
      RunsAlong (after acts (create settings g starts pinned)) begun i := by
  have htended : Tended (after acts (create settings g starts pinned)) :=
    after_keeps (fun act h => h.perform act) (tended_create ..) acts
  have hfree : Unstopped (after acts (create settings g starts pinned)) :=
    after_keeps (fun act h => h.perform act) (fun _ => List.not_mem_nil) acts
  obtain ⟨begun, i, hstart, hcurrent, hlive, honly, halike⟩ := start_live htended hfree halive
  exact ⟨begun, i, hstart, hcurrent, runsAlong halive hlive honly halike⟩

/-- A couple that was dragged about and heated up comes to rest once it was let go. -/
theorem exists_ends_hands : ∃ n r, Ends (after hands (create .standard couple [] [])) n r := by
  have hleast : (0 : ℝ) < (Settings.standard : Settings ℝ).alphaMin := by
    show (0 : ℝ) < Scalar.fraction 1 1000
    rw [Scalar.fraction_real]
    norm_num
  have hlt : (Settings.standard : Settings ℝ).alphaMin < 1 := by
    show (Scalar.fraction 1 1000 : ℝ) < 1
    rw [Scalar.fraction_real]
    norm_num
  refine exists_ends (cools_after hleast hlt couple [] [] hands) ?_
  have hacts : .destroy ∉ hands.dropLast := by simp [hands]
  have hheld := endures_after hacts (create .standard couple [] [])
  generalize hs : after hands.dropLast (create .standard couple [] []) = s at hheld
  have hnode : s.hasNode "b" = true := by
    rw [hasNode_iff, hheld.ids, ids_create]
    simp [couple, Graph.nodeIds]
  obtain ⟨s', hs'⟩ : ∃ s', s.dragEnd "b" true = .ok s' :=
    ⟨_, bind_eq_ok.mpr ⟨(), checkNode_eq_ok.mpr ⟨hheld.alive rfl, hnode⟩, rfl⟩⟩
  have hlast : after hands (create .standard couple [] []) = s' := by
    show (Act.perform (.dragEnd "b" true) (after hands.dropLast (create .standard couple [] []))).2
      = s'
    rw [hs, Act.perform, hs']
    rfl
  rw [hlast, cooling_dragEnd hs']
  exact Scalar.zero_real.trans_lt hleast

/-- A couple that was dragged about steps in the background until it rests, as in a run. -/
theorem background_matches_run_hands :
    (after hands (create .standard couple [] [])).destroyed = false ∧
      ∃ begun i, (after hands (create .standard couple [] [])).start = .ok begun ∧
        begun.current = some i ∧
        RunsAlong (after hands (create .standard couple [] [])) begun i ∧
        ∃ n outcome, (turns n begun).loops[i]? = some (.ofOutcome outcome) := by
  have hacts : .destroy ∉ hands := by simp [hands]
  have halive := (endures_after hacts (create .standard couple [] [])).alive rfl
  obtain ⟨begun, i, hstart, hcurrent, halong⟩ :=
    background_matches_run .standard couple [] [] hands halive
  obtain ⟨n, r, hends⟩ := exists_ends_hands
  exact ⟨halive, begun, i, hstart, hcurrent, halong, n, r.1, (halong.ends hends n le_rfl).1⟩

end Simulation

end PathAtlas.Motion
