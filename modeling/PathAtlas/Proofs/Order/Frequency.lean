/-
# The most frequent element

`Order.mostFrequent?` goes through a tally and keeps the best entry so far, where one entry is
better than another one only if it counts more.  So it ends with an entry that counts more than all
entries ahead of it and no less than those behind it (`foldl_better_splits`), and a tally has its
entries in the order in which the elements first appear.  This is all there is to say: the most
frequent element is the earliest of those that occur most often (`mostFrequent?_eq_some_iff`).

Being the most frequent in this sense is a property that one element has at most
(`MostFrequent.unique`), and in every list that is not empty some element has it
(`exists_mostFrequent`).  So a result about the dominant route of a bucket can be stated by the
property and need not mention the loop.
-/
import PathAtlas.Proofs.Order.Grouping
import PathAtlas.Proofs.Order.Stability

namespace PathAtlas.Order

variable {κ : Type}

/-! ## 1. Tallies -/

/-- Whether one entry of a tally counts more than another one. -/
def countsMore (a b : κ × Nat) : Bool := decide (b.2 < a.2)

theorem ranks_countsMore (entries : List (κ × Nat)) : Ranks countsMore entries := by
  have hless : Ranks (fun a b => countsMore b a) entries :=
    ranks_of_lt_iff Prod.snd fun _ _ _ _ => decide_eq_true_iff
  exact hless.flip

variable [BEq κ] {ks : List κ}

theorem mostFrequent?_of_tally {entry : κ × Nat} {rest : List (κ × Nat)}
    (h : tally ks = entry :: rest) :
    mostFrequent? ks = some (rest.foldl (better countsMore) entry).1 := by
  rw [mostFrequent?, h, List.foldl_cons]
  refine congrArg (Option.map Prod.fst) (List.foldl_hom some fun best entry => ?_)
  simp only [better, countsMore, decide_eq_true_eq]
  split <;> rfl

/-! ## 2. The earliest of the most frequent -/

variable [LawfulBEq κ] {k : κ}

/-- An element of a list that occurs most often, the earliest of all that do. -/
structure MostFrequent (ks : List κ) (k : κ) : Prop where
  mem : k ∈ ks
  count_le : ∀ k', ks.count k' ≤ ks.count k
  earliest : ∀ k' ∈ ks, ks.count k' = ks.count k → ks.idxOf k ≤ ks.idxOf k'

/-- There is at most one such element. -/
theorem MostFrequent.unique {k' : κ} (h : MostFrequent ks k) (h' : MostFrequent ks k') :
    k = k' := by
  have hcount : ks.count k = ks.count k' := le_antisymm (h'.count_le k) (h.count_le k')
  have hplace : ks.idxOf k = ks.idxOf k' :=
    le_antisymm (h.earliest k' h'.mem hcount.symm) (h'.earliest k h.mem hcount)
  exact (List.idxOf_inj h.mem).mp hplace

/-- The elements of a list in the order in which they appear: the ones ahead of the most frequent
one are less frequent, and the ones behind it are not more so. -/
theorem mostFrequent?_splits (hne : ks ≠ []) :
    ∃ ahead k behind, distinct ks = ahead ++ k :: behind ∧ mostFrequent? ks = some k ∧
      (∀ k' ∈ ahead, ks.count k' < ks.count k) ∧ ∀ k' ∈ behind, ks.count k' ≤ ks.count k := by
  obtain ⟨entry, rest, htally⟩ : ∃ entry rest, tally ks = entry :: rest := by
    refine List.exists_cons_of_ne_nil fun hnil => ?_
    obtain ⟨k, hk⟩ := List.exists_mem_of_ne_nil ks hne
    rw [tally_eq, List.map_eq_nil_iff] at hnil
    exact List.ne_nil_of_mem (mem_distinct.mpr hk) hnil
  obtain ⟨front, back, hsplit, hfront, hback⟩ :=
    foldl_better_splits (ranks_countsMore (entry :: rest))
  have hbest := mostFrequent?_of_tally htally
  rw [← htally, tally_eq] at hsplit
  generalize rest.foldl (better countsMore) entry = best at *
  -- the entries are the elements with their counts
  obtain ⟨ahead, others, hdistinct, rfl, hothers⟩ := List.map_eq_append_iff.mp hsplit
  obtain ⟨k, behind, rfl, rfl, rfl⟩ := List.map_eq_cons_iff.mp hothers
  refine ⟨ahead, k, behind, hdistinct, hbest, fun k' hk' => ?_, fun k' hk' => ?_⟩
  · exact of_decide_eq_true (hfront _ (List.mem_map_of_mem hk'))
  · exact not_lt.mp (of_decide_eq_false (hback _ (List.mem_map_of_mem hk')))

/-- A list with elements has a most frequent one. -/
theorem exists_mostFrequent (hne : ks ≠ []) :
    ∃ k, mostFrequent? ks = some k ∧ MostFrequent ks k := by
  obtain ⟨ahead, k, behind, hdistinct, hbest, hahead, hbehind⟩ := mostFrequent?_splits hne
  have hmem : ∀ {k'}, k' ∈ ks ↔ k' ∈ ahead ∨ k' = k ∨ k' ∈ behind := fun {k'} => by
    rw [← mem_distinct, hdistinct, List.mem_append, List.mem_cons]
  have hplaces := groupBy_pairwise_idxOf id ks
  rw [List.map_id, ← distinct, hdistinct] at hplaces
  refine ⟨k, hbest, hmem.mpr (.inr (.inl rfl)), fun k' => ?_, fun k' hk' hcount => ?_⟩
  · by_cases hk' : k' ∈ ks
    · rcases hmem.mp hk' with hk' | rfl | hk'
      · exact (hahead k' hk').le
      · exact le_rfl
      · exact hbehind k' hk'
    · rw [List.count_eq_zero_of_not_mem hk']
      exact Nat.zero_le _
  · rcases hmem.mp hk' with hk' | rfl | hk'
    · exact absurd hcount (hahead k' hk').ne
    · exact le_rfl
    · have hlater := (List.pairwise_append.mp hplaces).2.1
      exact ((List.pairwise_cons.mp hlater).1 k' hk').le

/-- **The most frequent element** is the earliest of those that occur most often. -/
theorem mostFrequent?_eq_some_iff : mostFrequent? ks = some k ↔ MostFrequent ks k := by
  constructor
  · intro h
    have hne : ks ≠ [] := by
      rintro rfl
      cases h
    obtain ⟨k', hbest, hk'⟩ := exists_mostFrequent hne
    obtain rfl : k' = k := Option.some.inj (hbest.symm.trans h)
    exact hk'
  · intro h
    obtain ⟨k', hbest, hk'⟩ := exists_mostFrequent (List.ne_nil_of_mem h.mem)
    rw [hbest, h.unique hk']

end PathAtlas.Order
