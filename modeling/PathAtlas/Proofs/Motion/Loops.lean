/-
# The loops of a simulation

A simulation can be asked for a loop time and again, and heating it up may bring a loop back that
had come to its end.  Still there is never more than one that is not over: a new one begins only
when the one before it is, and the simulation knows of the one it has (`Tended`).  So a step of the
event loop takes one step of the simulation at most, whichever loops it comes to (`ticks_turn_le`).

The end of a simulation stops its loop, and what is `Spent` stays as it is: calls are refused, and
the event loop does nothing but let a stopped loop come to its end (`Spent.after`).
-/
import PathAtlas.Proofs.Motion.Acts
import PathAtlas.Proofs.Motion.Steps

namespace PathAtlas.Motion

variable {α : Type}

namespace Simulation

/-! ## 1. Loops that are not over -/

def openLoops (s : Simulation α) : Nat := s.loops.countP fun phase => !phase.isOver

/-- A simulation with its loops in hand.  At most one of them is not over, and while the simulation
goes on it is the one that belongs to it; after the end there is none that takes a step. -/
structure Tended (s : Simulation α) : Prop where
  single : s.openLoops ≤ 1
  known : s.destroyed = false → s.running = false → s.openLoops = 0
  ended : s.destroyed = true → s.current = none ∧ LoopPhase.live ∉ s.loops

/-- The same loops, and over just when it was over. -/
structure SameLoops (s s' : Simulation α) : Prop where
  loops : s'.loops = s.loops
  current : s'.current = s.current
  destroyed : s'.destroyed = s.destroyed

/-- Whatever leaves the loops alone leaves them in hand. -/
theorem Tended.of_same {s s' : Simulation α} (h : Tended s) (hsame : SameLoops s s') :
    Tended s' := by
  obtain ⟨hloops, hcurrent, hdestroyed⟩ := hsame
  have hopen : s'.openLoops = s.openLoops := by rw [openLoops, hloops, openLoops]
  have hrunning : s'.running = s.running := by rw [running, hloops, hcurrent, running]
  refine ⟨hopen ▸ h.single, fun halive hidle => ?_, fun hended => ?_⟩
  · rw [hopen]
    exact h.known (hdestroyed ▸ halive) (hrunning ▸ hidle)
  · rw [hcurrent, hloops]
    exact h.ended (hdestroyed ▸ hended)

/-- Ending a simulation leaves a loop that is not over to end by itself. -/
theorem openLoops_destroy (s : Simulation α) : s.destroy.openLoops = s.openLoops := by
  unfold destroy
  split
  · rfl
  · unfold openLoops
    simp only [List.countP_map]
    refine List.countP_congr fun phase _ => ?_
    cases phase <;> simp [LoopPhase.isOver]

theorem destroyed_destroy (s : Simulation α) : s.destroy.destroyed = true := by
  unfold destroy
  split
  · assumption
  · rfl

theorem Spent.destroy {s : Simulation α} (h : s.Spent) : s.destroy = s := if_pos h.destroyed

/-- The end stops the live loop and forgets it. -/
theorem Tended.destroy {s : Simulation α} (h : Tended s) : Tended s.destroy := by
  have hsingle : s.destroy.openLoops ≤ 1 := s.openLoops_destroy ▸ h.single
  cases hdestroyed : s.destroyed with
  | true =>
    have hsame : s.destroy = s := if_pos hdestroyed
    rw [hsame]
    exact h
  | false =>
    have hspent := spent_destroy hdestroyed
    have hcurrent : s.destroy.current = none := by
      rw [Simulation.destroy, if_neg (by simp [hdestroyed])]
    refine ⟨hsingle, fun halive => ?_, fun _ => ⟨hcurrent, hspent.idle⟩⟩
    rw [hspent.destroyed] at halive
    cases halive

theorem Tended.spent {s : Simulation α} (h : Tended s) : s.destroy.Spent :=
  ⟨s.destroyed_destroy, (h.destroy.ended s.destroyed_destroy).2⟩

/-- A loop begins only when none is left. -/
theorem Tended.spawn {s : Simulation α} (h : Tended s) (halive : s.destroyed = false) :
    Tended s.spawn := by
  unfold Simulation.spawn
  split
  · exact h
  · rename_i hidle
    -- a loop that was let go but is not over yet would be a second one: `known` rules it out
    have hnone : s.openLoops = 0 := h.known halive (Bool.not_eq_true _ ▸ hidle)
    refine ⟨?_, fun _ hrunning => ?_, fun hended => ?_⟩
    · unfold openLoops at hnone ⊢
      rw [List.countP_append, hnone]
      exact le_rfl
    · simp [running, LoopPhase.isOver] at hrunning
    · cases halive.symm.trans hended

/-- Without the one loop that is not over there is none. -/
theorem Tended.countP_set {s : Simulation α} (h : Tended s) {i : Nat} {phase ended : LoopPhase}
    (hi : s.loops[i]? = some phase) (hphase : phase.isOver = false)
    (hphase' : ended.isOver = true) :
    (s.loops.set i ended).countP (fun phase => !phase.isOver) = 0 := by
  obtain ⟨hlt, hget⟩ := List.getElem?_eq_some_iff.mp hi
  have hsingle : s.loops.countP (fun phase => !phase.isOver) ≤ 1 := h.single
  rw [List.countP_set hlt, hget]
  simp only [hphase, hphase', Bool.not_false, Bool.not_true, if_true, Bool.false_eq_true, if_false]
  omega

/-- One loop fewer that is not over, at the place of one that was not. -/
theorem Tended.close {s : Simulation α} (h : Tended s) {i : Nat} {phase ended : LoopPhase}
    (hi : s.loops[i]? = some phase) (hphase : phase.isOver = false)
    (hphase' : ended.isOver = true) :
    Tended { s with loops := s.loops.set i ended } := by
  have hnone := h.countP_set hi hphase hphase'
  refine ⟨hnone.le.trans (Nat.zero_le 1), fun _ _ => hnone, fun hended => ?_⟩
  obtain ⟨hcurrent, hidle⟩ := h.ended hended
  refine ⟨hcurrent, fun hlive => ?_⟩
  rcases List.mem_or_eq_of_mem_set hlive with hlive | rfl
  · exact hidle hlive
  · cases hphase'

/-! ## 2. Calls -/

section Calls

variable {s s' : Simulation α}

theorem sameLoops_listen {event : String} (h : s.listen event = .ok s') : SameLoops s s' := by
  obtain ⟨_, -, h⟩ := bind_eq_ok.mp h
  obtain ⟨_, -, h⟩ := bind_eq_ok.mp h
  rw [← Except.ok.inj h]
  exact ⟨rfl, rfl, rfl⟩

theorem sameLoops_dragTo {id : String} {x y : α} (h : s.dragTo id x y = .ok s') :
    SameLoops s s' := by
  obtain ⟨_, -, h⟩ := bind_eq_ok.mp h
  rw [← Except.ok.inj h]
  exact ⟨rfl, rfl, rfl⟩

theorem sameLoops_dragEnd [Scalar α] {id : String} {keep : Bool} (h : s.dragEnd id keep = .ok s') :
    SameLoops s s' := by
  obtain ⟨_, -, h⟩ := bind_eq_ok.mp h
  rw [← Except.ok.inj h]
  cases keep <;> exact ⟨rfl, rfl, rfl⟩

theorem Tended.start (h : Tended s) (hstart : s.start = .ok s') : Tended s' := by
  obtain ⟨_, halive, hstart⟩ := bind_eq_ok.mp hstart
  have hasked : Tended { s with looping := true } := h.of_same ⟨rfl, rfl, rfl⟩
  rw [← Except.ok.inj hstart]
  exact hasked.spawn (checkAlive_eq_ok.mp halive)

theorem Tended.heatUp [Scalar α] (h : Tended s) (target : α) : Tended (s.heatUp target).2 := by
  have haimed : Tended (s.aimed target) := h.of_same ⟨rfl, rfl, rfl⟩
  rcases s.heatUp_cases target with ⟨_, heq⟩ | ⟨halive, -, heq | heq⟩ <;> rw [heq]
  · exact h
  · exact haimed
  · exact haimed.spawn halive

theorem Tended.grab [Scalar α] (h : Tended s) (id : String) : Tended (s.grab id).2 := by
  have hheld : Tended (s.hold id) := h.of_same ⟨rfl, rfl, rfl⟩
  rcases s.grab_cases id with ⟨_, heq⟩ | ⟨-, heq⟩ <;> rw [heq]
  · exact h
  · exact hheld.heatUp dragHeat

end Calls

/-! ## 3. Steps -/

section Stepping

variable [Scalar α] [Planar α] {s : Simulation α}

theorem sameLoops_advance (s : Simulation α) : SameLoops s s.advance.2 := by
  have hsteps := s.stepsTo_advance
  generalize s.advance = r at hsteps
  cases hsteps <;> exact ⟨rfl, rfl, rfl⟩

theorem ticks_advance_le (s : Simulation α) : s.advance.2.ticks ≤ s.ticks + 1 := by
  have hsteps := s.stepsTo_advance
  generalize s.advance = r at hsteps
  cases hsteps with
  | fails => exact Nat.le_succ _
  | stalls | goesOn | settles => exact le_rfl

theorem Tended.advance (h : Tended s) : Tended s.advance.2 := h.of_same s.sameLoops_advance

/-- A turn of a loop keeps the loops in hand. -/
theorem Tended.turnLoop (h : Tended s) (i : Nat) : Tended (s.turnLoop i) := by
  rcases s.turnLoop_cases i with ⟨hlive, heq | ⟨ended, hended, heq⟩⟩ | ⟨hstopped, heq⟩ | ⟨-, heq⟩
  · rw [heq]
    exact h.advance
  · rw [heq]
    exact h.advance.close (s.sameLoops_advance.loops ▸ hlive) rfl hended
  · rw [heq]
    exact h.close hstopped rfl rfl
  · rw [heq]
    exact h

/-- A turn of one loop touches no other. -/
theorem loops_turnLoop_of_ne (s : Simulation α) {i j : Nat} (hne : i ≠ j) :
    (s.turnLoop i).loops[j]? = s.loops[j]? := by
  have hadvance := s.sameLoops_advance.loops
  rcases s.turnLoop_cases i with ⟨-, heq | ⟨ended, -, heq⟩⟩ | ⟨-, heq⟩ | ⟨-, heq⟩
  · rw [heq, hadvance]
  · rw [heq, hadvance]
    exact List.getElem?_set_ne hne
  · rw [heq]
    exact List.getElem?_set_ne hne
  · rw [heq]

/-- Only a live loop takes a step at its turn, and only one. -/
theorem ticks_turnLoop_le (s : Simulation α) (i : Nat) :
    (s.turnLoop i).ticks ≤ s.ticks + if s.loops[i]? = some .live then 1 else 0 := by
  have hadvance := s.ticks_advance_le
  rcases s.turnLoop_cases i with ⟨hlive, heq | ⟨ended, -, heq⟩⟩ | ⟨-, heq⟩ | ⟨-, heq⟩
  · rw [heq, if_pos hlive]
    exact hadvance
  · rw [heq, if_pos hlive]
    exact hadvance
  · rw [heq]
    exact Nat.le_add_right _ _
  · rw [heq]
    exact Nat.le_add_right _ _

/-- Turns of some loops take a step for each live one among them. -/
theorem ticks_foldl_turnLoop_le {places : List Nat} (hnodup : places.Nodup) (s : Simulation α) :
    (places.foldl turnLoop s).ticks
      ≤ s.ticks + places.countP fun i => s.loops[i]? = some .live := by
  -- no place comes twice, so those still to come are as they were at the beginning of the turn
  induction places generalizing s with
  | nil => exact Nat.le_add_right _ _
  | cons i places ih =>
    obtain ⟨hi, hplaces⟩ := List.nodup_cons.mp hnodup
    have hrest := ih hplaces (s.turnLoop i)
    have hothers : (places.countP fun j => (s.turnLoop i).loops[j]? = some .live)
        = places.countP fun j => s.loops[j]? = some .live := by
      refine List.countP_congr fun j hj => ?_
      have hne : i ≠ j := fun h => hi (h ▸ hj)
      rw [s.loops_turnLoop_of_ne hne]
    have hfirst := s.ticks_turnLoop_le i
    rw [List.foldl_cons, List.countP_cons]
    simp only [decide_eq_true_eq]
    omega

/-- **A turn** takes one step at most. -/
theorem ticks_turn_le (h : Tended s) : s.turn.ticks ≤ s.ticks + 1 := by
  have hplaces : (List.range s.loops.length).map (s.loops[·]?) = s.loops.map some :=
    List.ext_getElem (by simp) (by simp)
  have hlive : ((List.range s.loops.length).countP fun i => s.loops[i]? = some .live)
      = s.loops.countP fun phase => phase = .live := by
    have hcount := congrArg (List.countP fun phase => phase = some LoopPhase.live) hplaces
    simpa only [List.countP_map, Function.comp_def, Option.some.injEq] using hcount
  have hopen : (s.loops.countP fun phase => phase = .live) ≤ s.openLoops := by
    refine List.countP_mono_left fun phase _ hphase => ?_
    rw [of_decide_eq_true hphase]
    rfl
  have hturn := ticks_foldl_turnLoop_le (List.nodup_range (n := s.loops.length)) s
  have hsingle := h.single
  rw [turn]
  omega

/-! ## 4. Runs -/

theorem tended_create (settings : Settings α) (g : Topology.Graph α) (starts : Layout.Positions α)
    (pinned : List String) : Tended (create settings g starts pinned) where
  single := Nat.zero_le 1
  known _ _ := rfl
  ended hdestroyed := nomatch hdestroyed

/-- **Every act** leaves the loops in hand. -/
theorem Tended.perform (h : Tended s) (act : Act α) : Tended (act.perform s).2 := by
  cases act with
  | tick => exact tick_keeps Tended.advance h
  | run limit => exact run_keeps Tended.advance limit h
  | listen event => exact orSame_keeps h fun _ hs => h.of_same (sameLoops_listen hs)
  | start => exact orSame_keeps h fun _ => h.start
  | restart target => exact h.heatUp target
  | dragStart id => exact h.grab id
  | dragTo id x y => exact orSame_keeps h fun _ hs => h.of_same (sameLoops_dragTo hs)
  | dragEnd id keep => exact orSame_keeps h fun _ hs => h.of_same (sameLoops_dragEnd hs)
  | destroy => exact h.destroy
  | resume loop => exact h.turnLoop loop
  | turn => exact turn_keeps (fun i h => h.turnLoop i) h

/-! ## 5. After the end -/

/-- **Calls are refused** after the end. -/
theorem Spent.refuses (h : s.Spent) {act : Act α} (hcall : act.IsCall) :
    act.perform s = (.error .simulationDestroyed, s) := by
  have hdead : s.checkAlive = .error .simulationDestroyed := if_pos h.destroyed
  have hnode : ∀ id, s.checkNode id = .error .simulationDestroyed := by
    intro id
    rw [checkNode, hdead]
    rfl
  cases act with
  | tick =>
    rw [Act.perform, h.tick]
    rfl
  | run limit => simp only [Act.perform, run, hdead]
  | listen event =>
    rw [Act.perform, listen, hdead]
    rfl
  | start =>
    rw [Act.perform, start, hdead]
    rfl
  | restart target =>
    rw [Act.perform, heatUp, hdead]
  | dragStart id =>
    rw [Act.perform, grab, hnode]
  | dragTo id x y =>
    rw [Act.perform, dragTo, hnode]
    rfl
  | dragEnd id keep =>
    rw [Act.perform, dragEnd, hnode]
    rfl
  | destroy | resume | turn => cases hcall

/-- Whatever is done after the end, only loops that are stopped come to their ends. -/
theorem Spent.perform (h : s.Spent) (act : Act α) :
    ∃ loops, LoopPhase.live ∉ loops ∧ (act.perform s).2 = { s with loops } := by
  by_cases hcall : act.IsCall
  · refine ⟨s.loops, h.idle, ?_⟩
    rw [h.refuses hcall]
  · cases act with
    | destroy => exact ⟨s.loops, h.idle, h.destroy⟩
    | resume loop => exact h.turnLoop loop
    | turn => exact h.turn
    | _ => exact absurd trivial hcall

theorem Spent.after (h : s.Spent) (acts : List (Act α)) :
    ∃ loops, LoopPhase.live ∉ loops ∧ after acts s = { s with loops } := by
  induction acts generalizing s with
  | nil => exact ⟨s.loops, h.idle, rfl⟩
  | cons act acts ih =>
    obtain ⟨loops, hidle, hs⟩ := h.perform act
    show ∃ loops, LoopPhase.live ∉ loops ∧ after acts (act.perform s).2 = { s with loops }
    rw [hs]
    exact ih ⟨h.destroyed, hidle⟩

/-- **The loops of a simulation and its end.**  Whatever is done with a simulation and in whatever
order, at most one of its loops is not over, and a step of the event loop takes one step at most,
whether it comes to one loop or to all.  Once the simulation was ended, nothing moves any more,
whatever is done: steps, heat, places and events are what they were, no loop is live, every call is
refused and changes nothing, and neither does another end. -/
theorem single_loop_and_still_after_destroy (settings : Settings α) (g : Topology.Graph α)
    (starts : Layout.Positions α) (pinned : List String) (acts later : List (Act α)) :
    let s := after acts (create settings g starts pinned)
    let ended := after later s.destroy
    (s.openLoops ≤ 1 ∧ (∀ i, (s.turnLoop i).ticks ≤ s.ticks + 1) ∧ s.turn.ticks ≤ s.ticks + 1) ∧
      (ended.ticks = s.ticks ∧ ended.cooling = s.cooling ∧ ended.positions = s.positions ∧
        ended.heard = s.heard) ∧
      (ended.running = false ∧ LoopPhase.live ∉ ended.loops) ∧
      (∀ act : Act α, act.IsCall → act.perform ended = (.error .simulationDestroyed, ended)) ∧
      ended.destroy = ended := by
  intro s ended
  have htended : Tended s := after_keeps (fun act h => h.perform act) (tended_create ..) acts
  have hstill : s.destroy.ticks = s.ticks ∧ s.destroy.cooling = s.cooling ∧
      s.destroy.positions = s.positions ∧ s.destroy.heard = s.heard := by
    unfold Simulation.destroy
    split <;> exact ⟨rfl, rfl, rfl, rfl⟩
  obtain ⟨loops, hidle, hended⟩ : ∃ loops, LoopPhase.live ∉ loops ∧
      ended = { s.destroy with loops } := htended.spent.after later
  have hspent : ended.Spent := by
    rw [hended]
    exact ⟨s.destroyed_destroy, hidle⟩
  have hcurrent : ended.current = none := by
    rw [hended]
    exact (htended.destroy.ended s.destroyed_destroy).1
  refine ⟨⟨htended.single, fun i => ?_, ticks_turn_le htended⟩, ?_, ⟨?_, hspent.idle⟩,
    fun act hcall => hspent.refuses hcall, hspent.destroy⟩
  · have hstep : (if s.loops[i]? = some LoopPhase.live then 1 else 0) ≤ 1 := by
      split <;> omega
    exact (s.ticks_turnLoop_le i).trans (Nat.add_le_add_left hstep _)
  · rw [hended]
    exact hstill
  · rw [running, hcurrent]
    rfl

end Stepping

end Simulation

end PathAtlas.Motion
