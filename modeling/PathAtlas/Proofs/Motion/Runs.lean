/-
# Runs and how many steps they take

A run takes steps while they go on (`Lasts`), and it is over with the first one that settles or
fails (`Ends`).  Both count their steps, so that what a run comes to can be told without the run: a
run without a limit comes to an outcome exactly when finitely many steps end it
(`runOut_eq_some_iff`), and one with a limit is over within it or reaches it (`advanceUpTo_cases`).

The heat knows nothing of the bodies.  Every step takes it one step further (`cooling_advance`), and
a step that goes on or settles says whether the heat has (`settled_of_advance`).  So what cooling
does in `n` steps is what a run of `n` steps finds (`Lasts.cooling`, `Ends.cooling`), and what holds
of the heat throughout holds whatever is done with the simulation (`perform_keeps_cooling`).
-/
import Mathlib.Logic.Function.Iterate
import PathAtlas.Proofs.Motion.Acts
import PathAtlas.Proofs.Motion.Holding

namespace PathAtlas.Motion

open PathAtlas.Topology PathAtlas.Layout

variable {α : Type} [Scalar α] [Planar α]

namespace Simulation

/-! ## 1. Runs -/

/-- So many steps, after each of which the simulation goes on. -/
inductive Lasts : Simulation α → Nat → Simulation α → Prop
  | start (s : Simulation α) : Lasts s 0 s
  | step {s s' s'' : Simulation α} {n : Nat} (first : s.advance = (.ok true, s'))
      (rest : Lasts s' n s'') : Lasts s (n + 1) s''

/-- So many steps, the last of which settles or fails. -/
inductive Ends : Simulation α → Nat → Except Fault Unit × Simulation α → Prop
  | settles {s s' : Simulation α} (last : s.advance = (.ok false, s')) : Ends s 1 (.ok (), s')
  | fails {s s' : Simulation α} {fault : Fault} (last : s.advance = (.error fault, s')) :
      Ends s 1 (.error fault, s')
  | step {s s' : Simulation α} {n : Nat} {r : Except Fault Unit × Simulation α}
      (first : s.advance = (.ok true, s')) (rest : Ends s' n r) : Ends s (n + 1) r

variable {s s' : Simulation α} {n : Nat} {r : Except Fault Unit × Simulation α}

/-- **A run without a limit** comes to an outcome when finitely many steps do. -/
theorem runOut_eq_some_iff : s.runOut = some r ↔ ∃ n, Ends s n r := by
  constructor
  · refine runOut.partial_correctness (fun s r => ∃ n, Ends s n r) ?_ s r
    intro runOut' ih s r hr
    split at hr <;> rename_i s' hs
    · obtain ⟨n, hends⟩ := ih s' r hr
      exact ⟨n + 1, .step hs hends⟩
    · exact Option.some.inj hr ▸ ⟨1, .settles hs⟩
    · exact Option.some.inj hr ▸ ⟨1, .fails hs⟩
  · rintro ⟨n, hends⟩
    induction hends with
    | settles last => rw [runOut, last]
    | fails last => rw [runOut, last]
    | step first _ ih =>
      rw [runOut, first]
      exact ih

/-- **A run with a limit** is over within the limit, or takes as many steps as it allows. -/
theorem advanceUpTo_cases (n : Nat) (s : Simulation α) :
    (∃ k ≤ n, Ends s k (advanceUpTo n s)) ∨
      (advanceUpTo n s).1 = .ok () ∧ Lasts s n (advanceUpTo n s).2 := by
  induction n generalizing s with
  | zero => exact .inr ⟨rfl, .start s⟩
  | succ n ih =>
    rw [advanceUpTo]
    split <;> rename_i s' hs
    · rcases ih s' with ⟨k, hk, hends⟩ | ⟨hok, hlasts⟩
      · exact .inl ⟨k + 1, Nat.succ_le_succ hk, .step hs hends⟩
      · exact .inr ⟨hok, .step hs hlasts⟩
    · exact .inl ⟨1, Nat.le_add_left 1 n, .settles hs⟩
    · exact .inl ⟨1, Nat.le_add_left 1 n, .fails hs⟩

/-- Any number of steps is taken unless the run is over before. -/
theorem ends_or_lasts (s : Simulation α) (n : Nat) :
    (∃ k ≤ n, ∃ r, Ends s k r) ∨ ∃ s', Lasts s n s' :=
  (advanceUpTo_cases n s).imp (fun ⟨k, hk, hends⟩ => ⟨k, hk, _, hends⟩) fun h => ⟨_, h.2⟩

theorem run_of_ends (halive : s.destroyed = false) (h : Ends s n r) : s.run none = r := by
  have hcheck : s.checkAlive = .ok () := checkAlive_eq_ok.mpr halive
  simp only [run, hcheck]
  rw [runOut_eq_some_iff.mpr ⟨n, h⟩, Option.getD_some]

theorem run_some (halive : s.destroyed = false) (limit : Int) :
    s.run (some limit) = advanceUpTo limit.toNat s := by
  have hcheck : s.checkAlive = .ok () := checkAlive_eq_ok.mpr halive
  simp only [run, hcheck]

theorem tick_eq (halive : s.destroyed = false) : s.tick = s.advance := by
  have hcheck : s.checkAlive = .ok () := checkAlive_eq_ok.mpr halive
  simp only [tick, hcheck]

/-! ## 2. Heat -/

/-- A step that does not fail goes on unless the heat has settled. -/
theorem settled_of_advance {goesOn : Bool} (h : s.advance.1 = .ok goesOn) :
    s.cooling.step.settled = !goesOn := by
  have hsteps := s.stepsTo_advance
  generalize s.advance = r at hsteps h
  cases hsteps with
  | fails | stalls => cases h
  | goesOn moves => exact Except.ok.inj h ▸ moves
  | settles rests => exact Except.ok.inj h ▸ rests

theorem Lasts.cooling (h : Lasts s n s') : s'.cooling = Cooling.step^[n] s.cooling := by
  induction h with
  | start s => rfl
  | step first _ ih =>
    rw [Function.iterate_succ_apply, ih, ← cooling_advance, first]

theorem Lasts.settled (h : Lasts s n s') (hn : n ≠ 0) : s'.cooling.settled = false := by
  induction h with
  | start s => exact absurd rfl hn
  | @step s s' s'' n first rest ih =>
    rcases Nat.eq_zero_or_pos n with rfl | hpos
    · cases rest
      have hgoes := settled_of_advance (congrArg Prod.fst first)
      rwa [← cooling_advance, first] at hgoes
    · exact ih hpos.ne'

theorem Ends.cooling (h : Ends s n r) : r.2.cooling = Cooling.step^[n] s.cooling := by
  induction h with
  | settles last | fails last => rw [Function.iterate_one, ← cooling_advance, last]
  | step first _ ih => rw [Function.iterate_succ_apply, ih, ← cooling_advance, first]

theorem Ends.settled (h : Ends s n r) (hok : r.1 = .ok ()) : r.2.cooling.settled = true := by
  induction h with
  | settles last =>
    have hsettled := settled_of_advance (congrArg Prod.fst last)
    rwa [← cooling_advance, last] at hsettled
  | fails last => cases hok
  | step first _ ih => exact ih hok

/-! ## 3. Heat throughout -/

/-- **What holds of the heat** whenever it cools, is heated up or comes to rest, holds whatever is
done with the simulation. -/
theorem perform_keeps_cooling {P : Cooling α → Prop} (hstep : ∀ {c : Cooling α}, P c → P c.step)
    (hreheat : ∀ {c : Cooling α} (target : α), P c → P (c.reheat target).2)
    (hrelax : ∀ {c : Cooling α}, P c → P c.relax) (act : Act α) {s : Simulation α}
    (h : P s.cooling) : P (act.perform s).2.cooling := by
  have hadvance : ∀ {s : Simulation α}, P s.cooling → P s.advance.2.cooling := by
    intro s h
    rw [cooling_advance]
    exact hstep h
  have hturnLoop : ∀ {s : Simulation α} (i : Nat), P s.cooling → P (s.turnLoop i).cooling :=
    fun i h => turnLoop_keeps (P := fun s => P s.cooling) hadvance (fun _ h => h) h i
  have hsame : ∀ {result : Except Fault (Simulation α)},
      (∀ s', result = .ok s' → P s'.cooling) → P (s.orSame result).2.cooling :=
    fun hr => orSame_keeps (P := fun s => P s.cooling) h hr
  cases act with
  | tick => exact tick_keeps (P := fun s => P s.cooling) hadvance h
  | run limit => exact run_keeps (P := fun s => P s.cooling) hadvance limit h
  | listen event => exact hsame fun _ hs => cooling_listen hs ▸ h
  | start => exact hsame fun _ hs => cooling_start hs ▸ h
  | restart target =>
    rcases s.cooling_heatUp target with heq | heq <;> rw [Act.perform, heq]
    · exact h
    · exact hreheat target h
  | dragStart id =>
    rcases s.cooling_grab id with heq | heq <;> rw [Act.perform, heq]
    · exact h
    · exact hreheat dragHeat h
  | dragTo id x y => exact hsame fun _ hs => cooling_dragTo hs ▸ h
  | dragEnd id keep => exact hsame fun _ hs => cooling_dragEnd hs ▸ hrelax h
  | destroy =>
    show P s.destroy.cooling
    rw [destroy]
    split <;> exact h
  | resume loop => exact hturnLoop loop h
  | turn => exact turn_keeps (P := fun s => P s.cooling) (fun i h => hturnLoop i h) h

/-! ## 4. Lasting -/

/-- A simulation is not over until it is ended. -/
theorem endures_perform {act : Act α} (hact : act ≠ .destroy) (s : Simulation α) :
    Endures s (act.perform s).2 := by
  have hadvance : ∀ {s' : Simulation α}, Endures s s' → Endures s s'.advance.2 :=
    fun h => h.trans (onward_advance _).toEndures
  have hsame : ∀ {result : Except Fault (Simulation α)},
      (∀ s', result = .ok s' → Endures s s') → Endures s (s.orSame result).2 :=
    fun h => orSame_keeps (.refl s) h
  cases act with
  | tick => exact (onward_tick s).toEndures
  | run limit => exact run_keeps hadvance limit (.refl s)
  | listen event =>
    refine hsame fun s' hs => ?_
    obtain ⟨_, -, hs⟩ := bind_eq_ok.mp hs
    obtain ⟨_, -, hs⟩ := bind_eq_ok.mp hs
    rw [← Except.ok.inj hs]
    exact endures_of_eq rfl le_rfl rfl
  | start => exact hsame fun _ hs => (onward_start hs).1.toEndures
  | restart target => exact s.endures_heatUp target
  | dragStart id => exact s.endures_grab id
  | dragTo id x y => exact hsame fun _ hs => endures_dragTo hs
  | dragEnd id keep => exact hsame fun _ hs => endures_dragEnd hs
  | destroy => exact absurd rfl hact
  | resume loop => exact (onward_turnLoop s loop).toEndures
  | turn => exact (onward_turn s).toEndures

theorem endures_after {acts : List (Act α)} (hacts : .destroy ∉ acts) (s : Simulation α) :
    Endures s (after acts s) := by
  induction acts generalizing s with
  | nil => exact .refl s
  | cons act acts ih =>
    obtain ⟨hact, hrest⟩ := List.ne_and_not_mem_of_not_mem_cons hacts
    exact (endures_perform hact.symm s).trans (ih hrest _)

end Simulation

end PathAtlas.Motion
