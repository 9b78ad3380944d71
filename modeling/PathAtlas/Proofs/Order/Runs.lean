/-
# Sorting by runs

The run at the front of a list is found by asking only neighbours, and filled up by asking the
elements that follow it (`filledRun_pairwise`).  Runs wait for each other with the last one first
(`Ready`), and merging neighbours keeps them so.  So a list comes out in the order for which the
comparison answers rightly, whenever it is asked of an element and a LATER one (`sort_pairwise`).

What is known of the comparison (`Answers`) is weak on purpose.  It is about the pairs of one list,
in the order in which they stand there, and asks for nothing but a transitive relation to compare
with: no totality, no symmetry of ties and no answer about an element and itself.

The proofs follow the scheme stage by stage, with one lemma for each of its functions that says
what holds of its result.  How runs are chosen for merging matters nowhere, only that neighbours
are merged; and how a merge searches is the matter of the module about merging.
-/
import PathAtlas.Proofs.Order.Merging

namespace PathAtlas.Order.Runs

variable {β : Type} {R : β → β → Prop} {before : β → β → Bool} {xs ys : List β}

/-! ## 1. The run at the front -/

/-- Neighbours in a stretch pass the test, and whatever neighbours in the list have in common. -/
theorem isChain_stretch (test : β → β → Bool) {S : β → β → Prop} {x : β} {ys : List β}
    (h : (x :: ys).IsChain S) :
    ((x :: ys).take (stretch test x ys + 1)).IsChain fun a b => test a b = true ∧ S a b := by
  induction ys generalizing x with
  | nil => simp
  | cons y ys ih =>
    obtain ⟨hxy, hys⟩ := List.isChain_cons_cons.mp h
    unfold stretch
    split
    · rename_i htest
      rw [List.take_succ_cons]
      exact List.isChain_cons_cons.mpr ⟨⟨htest, hxy⟩, by simpa using ih hys⟩
    · simp

/-- **The run at the front** of a list is in order. -/
theorem firstRun_pairwise [IsTrans β R] (answers : xs.Pairwise (Answers before R)) :
    (firstRun before xs).1.Pairwise R := by
  unfold firstRun
  split
  · exact .nil
  · exact List.pairwise_singleton _ _
  · rename_i x y rest
    dsimp only
    generalize before y x = falls
    have hchain := isChain_stretch (fun a b => before b a == falls) answers.isChain
    generalize (x :: y :: rest).take _ = run at hchain ⊢
    cases falls with
    | true =>
      rw [if_pos rfl]
      have hdown : run.IsChain fun a b => R b a :=
        hchain.imp fun a b ⟨hfalls, h⟩ => h.forward (by simpa using hfalls)
      exact List.pairwise_reverse.mpr hdown.pairwise
    | false =>
      rw [if_neg (by simp)]
      have hup : run.IsChain R := hchain.imp fun a b ⟨hstays, h⟩ => h.stays (by simpa using hstays)
      exact hup.pairwise

/-! ## 2. Filling a run up -/

/-- What is put into a run goes behind all that it does not stand before. -/
theorem insert_pairwise [IsTrans β R] {run : List β} {x : β} (hrun : run.Pairwise R)
    (answers : ∀ y ∈ run, Answers before R y x) : (insert before run x).Pairwise R := by
  unfold insert
  have hend := endsAt_halve (passes (fun y => !before x y) run) 0 (Nat.zero_le run.length)
  dsimp only
  generalize halve (passes (fun y => !before x y) run) 0 0 run.length = place at hend ⊢
  have hfront : ∀ y ∈ run.take place, R y x := hend.of_mem_take hrun fun y hy h =>
    (answers y hy).stays (by simpa using h)
  have hback : ∀ y ∈ run.drop place, R x y := hend.of_mem_drop hrun fun y hy h =>
    (answers y hy).forward (by simpa using h)
  obtain ⟨htake, hdrop, hcross⟩ := pairwise_take_drop hrun place
  refine List.pairwise_append.mpr
    ⟨htake, List.pairwise_cons.mpr ⟨hback, hdrop⟩, fun a ha b hb => ?_⟩
  rcases List.mem_cons.mp hb with rfl | hb
  · exact hfront a ha
  · exact hcross a ha b hb

/-- A run that is filled up stays in order. -/
theorem foldl_insert_pairwise [IsTrans β R] {run : List β} (hrun : run.Pairwise R)
    (answers : ∀ y ∈ run, ∀ x ∈ xs, Answers before R y x)
    (hxs : xs.Pairwise (Answers before R)) : (xs.foldl (insert before) run).Pairwise R := by
  induction xs generalizing run with
  | nil => exact hrun
  | cons x xs ih =>
    obtain ⟨hx, hxs⟩ := List.pairwise_cons.mp hxs
    refine ih (insert_pairwise hrun fun y hy => answers y hy x (by simp)) (fun y hy z hz => ?_) hxs
    rcases List.mem_cons.mp ((insert_perm before run x).mem_iff.mp hy) with rfl | hy
    · exact hx z hz
    · exact answers y hy z (by simp [hz])

/-- What is in the run at the front of a list comes before what is in the rest. -/
theorem firstRun_answers (answers : xs.Pairwise (Answers before R)) :
    (∀ a ∈ (firstRun before xs).1, ∀ b ∈ (firstRun before xs).2, Answers before R a b) ∧
      (firstRun before xs).2.Pairwise (Answers before R) := by
  unfold firstRun
  split
  · simp
  · simp
  · rename_i x y rest
    dsimp only
    generalize stretch _ _ _ + 1 = size
    obtain ⟨-, hdrop, hcross⟩ := pairwise_take_drop answers size
    refine ⟨fun a ha => hcross a ?_, hdrop⟩
    split at ha
    · exact List.mem_reverse.mp ha
    · exact ha

/-- **The run at the front** of a list, filled up, is in order. -/
theorem filledRun_pairwise [IsTrans β R] (answers : xs.Pairwise (Answers before R)) (least : Nat) :
    (filledRun before least xs).1.Pairwise R := by
  obtain ⟨hcross, hrest⟩ := firstRun_answers answers
  exact foldl_insert_pairwise (firstRun_pairwise answers)
    (fun y hy x hx => hcross y hy x (List.mem_of_mem_take hx))
    (hrest.sublist (List.take_sublist _ _))

/-- What is in a run that is filled up comes before what is in the rest. -/
theorem filledRun_answers (answers : xs.Pairwise (Answers before R)) (least : Nat) :
    (∀ a ∈ (filledRun before least xs).1, ∀ b ∈ (filledRun before least xs).2,
        Answers before R a b) ∧
      (filledRun before least xs).2.Pairwise (Answers before R) := by
  obtain ⟨hcross, hrest⟩ := firstRun_answers answers
  unfold filledRun
  dsimp only
  generalize least - (firstRun before xs).1.length = missing
  obtain ⟨-, hdrop, hfilled⟩ := pairwise_take_drop hrest missing
  refine ⟨fun a ha b hb => ?_, hdrop⟩
  rcases List.mem_append.mp ((foldl_insert_perm before _ _).mem_iff.mp ha) with ha | ha
  · exact hcross a ha b (List.mem_of_mem_drop hb)
  · exact hfilled a ha b hb

/-- A run takes something off a list that has anything. -/
theorem length_filledRun_lt (before : β → β → Bool) (least : Nat) (h : xs ≠ []) :
    (filledRun before least xs).2.length < xs.length := by
  have hfirst : 0 < (firstRun before xs).1.length := by
    unfold firstRun
    split
    · exact absurd rfl h
    · exact Nat.one_pos
    · dsimp only
      split <;> simp
  have hfilled := (foldl_insert_perm before (firstRun before xs).1
    ((firstRun before xs).2.take (least - (firstRun before xs).1.length))).length_eq
  have htotal := (filledRun_perm before least xs).length_eq
  unfold filledRun at htotal ⊢
  dsimp only at htotal ⊢
  simp only [List.length_append] at hfilled htotal
  omega

/-! ## 3. Runs that wait -/

/-- Runs that wait to be merged, the last one first: each is in order, and the comparison answers
rightly about an element of one and an element of a later one. -/
structure Ready (before : β → β → Bool) (R : β → β → Prop) (runs : List (List β)) : Prop where
  sorted : ∀ run ∈ runs, run.Pairwise R
  answers : runs.Pairwise fun later earlier =>
    ∀ a ∈ earlier, ∀ b ∈ later, Answers before R a b

namespace Ready

variable {last previous : List β} {rest : List (List β)}

theorem tail (h : Ready before R (last :: rest)) : Ready before R rest :=
  ⟨fun run hrun => h.sorted run (List.mem_cons_of_mem _ hrun), (List.pairwise_cons.mp h.answers).2⟩

theorem cons (h : Ready before R rest) (hlast : last.Pairwise R)
    (hanswers : ∀ run ∈ rest, ∀ a ∈ run, ∀ b ∈ last, Answers before R a b) :
    Ready before R (last :: rest) :=
  ⟨List.forall_mem_cons.mpr ⟨hlast, h.sorted⟩, List.pairwise_cons.mpr ⟨hanswers, h.answers⟩⟩

/-- A run before which others wait. -/
theorem answers_last (h : Ready before R (last :: rest)) :
    ∀ run ∈ rest, ∀ a ∈ run, ∀ b ∈ last, Answers before R a b :=
  (List.pairwise_cons.mp h.answers).1

/-- Two neighbours are merged into a run that is in order. -/
theorem merged [IsTrans β R] (h : Ready before R (last :: previous :: rest)) (patience : Nat) :
    (mergeRuns before patience previous last).1.Pairwise R :=
  mergeRuns_pairwise (h.answers_last previous (by simp)) (h.sorted previous (by simp))
    (h.sorted last (by simp)) patience

/-- The last two runs are merged. -/
theorem merge [IsTrans β R] (h : Ready before R (last :: previous :: rest)) (patience : Nat) :
    Ready before R ((mergeRuns before patience previous last).1 :: rest) := by
  refine h.tail.tail.cons (h.merged patience) fun run hrun a ha b hb => ?_
  rcases List.mem_append.mp ((mergeRuns_perm before patience _ _).mem_iff.mp hb) with hb | hb
  · exact h.tail.answers_last run hrun a ha b hb
  · exact h.answers_last run (by simp [hrun]) a ha b hb

/-- The two runs before the last are merged. -/
theorem merge_earlier [IsTrans β R] {earlier : List β}
    (h : Ready before R (last :: previous :: earlier :: rest)) (patience : Nat) :
    Ready before R (last :: (mergeRuns before patience earlier previous).1 :: rest) := by
  refine (h.tail.merge patience).cons (h.sorted last (by simp)) fun run hrun a ha b hb => ?_
  rcases List.mem_cons.mp hrun with rfl | hrun
  · rcases List.mem_append.mp ((mergeRuns_perm before patience _ _).mem_iff.mp ha) with ha | ha
    · exact h.answers_last earlier (by simp) a ha b hb
    · exact h.answers_last previous (by simp) a ha b hb
  · exact h.answers_last run (by simp [hrun]) a ha b hb

end Ready

/-! ## 4. Merging all runs -/

namespace Pending

/-- Merging neighbours for the sake of balance keeps the runs ready. -/
theorem ready_settle [IsTrans β R] (depth patience : Nat) (runs : List (Run β))
    (h : Ready before R (runs.map Run.items)) :
    Ready before R ((settle before depth patience runs).runs.map Run.items) := by
  fun_induction settle before depth patience runs with
  | case1 patience last previous rest _ items next hm ih =>
    have hmerged := h.merge patience
    rw [hm] at hmerged
    exact ih hmerged
  | case2 => exact h
  | case3 => exact h
  | case4 => exact h

theorem mem_settle {depth patience : Nat} {runs : List (Run β)} {a : β} :
    (∃ run ∈ (settle before depth patience runs).runs.map Run.items, a ∈ run)
      ↔ ∃ run ∈ runs.map Run.items, a ∈ run := by
  have h := (settle_perm before depth patience runs).mem_iff (a := a)
  simpa [content] using h

/-- One more run may wait when it is in order and comes from behind. -/
theorem ready_add [IsTrans β R] (size : Nat) {items : List β} {p : Pending β}
    (h : Ready before R (p.runs.map Run.items)) (hitems : items.Pairwise R)
    (hanswers : ∀ a ∈ p.content, ∀ b ∈ items, Answers before R a b) :
    Ready before R ((p.add before size items).runs.map Run.items) := by
  unfold add
  split
  · rename_i hruns
    rw [hruns] at h
    exact h.cons hitems nofun
  · refine (ready_settle _ _ _ h).cons hitems fun run hrun a ha => hanswers a ?_
    obtain ⟨run, hrun, ha⟩ := mem_settle.mp ⟨run, hrun, ha⟩
    obtain ⟨r, hr, rfl⟩ := List.mem_map.mp hrun
    exact List.mem_flatMap.mpr ⟨r, hr, ha⟩

/-- **All runs are merged** into one that is in order. -/
theorem collapse_pairwise [IsTrans β R] (patience : Nat) (runs : List (Run β))
    (h : Ready before R (runs.map Run.items)) : (collapse before patience runs).Pairwise R := by
  fun_induction collapse before patience runs with
  | case1 patience last previous earlier rest _ items next hm ih =>
    have hmerged := h.merge_earlier patience
    rw [hm] at hmerged
    exact ih hmerged
  | case2 patience last previous earlier rest _ items next hm ih =>
    have hmerged := h.merge patience
    rw [hm] at hmerged
    exact ih hmerged
  | case3 patience last previous => exact h.merged patience
  | case4 => exact h.sorted _ (by simp)
  | case5 => exact .nil

/-- Runs are cut off as long as there are elements left, so that nothing is put behind as it is
unless it is in order. -/
theorem ready_collect [IsTrans β R] (size least fuel : Nat) {xs : List β} {p : Pending β}
    (hfuel : xs.length ≤ fuel) (h : Ready before R (p.runs.map Run.items))
    (hxs : xs.Pairwise (Answers before R))
    (hanswers : ∀ a ∈ p.content, ∀ b ∈ xs, Answers before R a b) :
    Ready before R ((collect before size least fuel xs p).runs.map Run.items) := by
  induction fuel generalizing xs p with
  | zero =>
    obtain rfl : xs = [] := List.length_eq_zero_iff.mp (Nat.le_zero.mp hfuel)
    exact ready_add size h .nil hanswers
  | succ fuel ih =>
    unfold collect
    split
    · exact h
    · rename_i hne
      have hlength := length_filledRun_lt before least (List.isEmpty_eq_false_iff.mp
        (Bool.eq_false_iff.mpr hne))
      obtain ⟨hcross, hrest⟩ := filledRun_answers hxs least
      have hmem : ∀ b ∈ (filledRun before least xs).1 ++ (filledRun before least xs).2, b ∈ xs :=
        fun b hb => (filledRun_perm before least xs).mem_iff.mp hb
      have hready := ready_add size h (filledRun_pairwise hxs least) fun a ha b hb =>
        hanswers a ha b (hmem b (List.mem_append_left _ hb))
      refine ih (Nat.le_of_lt_succ (hlength.trans_le hfuel)) hready hrest fun a ha b hb => ?_
      rcases List.mem_append.mp ((add_perm before size _ p).mem_iff.mp ha) with ha | ha
      · exact hcross a ha b hb
      · exact hanswers a ha b (hmem b (List.mem_append_right _ hb))

end Pending

/-- **Sorting by runs** brings a list into the order for which the comparison answers rightly
whenever it is asked of an element and a later one. -/
theorem sort_pairwise [IsTrans β R] (h : xs.Pairwise (Answers before R)) :
    (sort before xs).Pairwise R := by
  unfold sort
  refine Pending.collapse_pairwise _ _ (Pending.ready_collect _ _ _ (Nat.le_refl _) ?_ h ?_)
  · exact ⟨nofun, .nil⟩
  · intro a ha
    cases ha

end PathAtlas.Order.Runs
