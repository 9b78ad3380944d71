/-
# Stable sorting

`Order.sortBy` sorts by any comparison that tells which of two elements stands first, and elements
may tie.  Where the comparison ranks all elements of a list (`Ranks`), nothing stands behind
anything that ranks after it (`sortBy_ascending`), and the elements of any kind come out as they
would come out by themselves (`filter_sortBy`).  Since a list that is in order already stays as it
is (`sortBy_eq_self`), elements that tie keep the order in which they came.  Where no tie crosses
it, a cut divides all lists of the same elements in order at one place (`Ascending.cut`).

`Ranks` is a strict weak order on the elements of the list, stated by two laws.  Every key into a
linear order gives one (`ranks_of_lt_iff`), which is how texts, whole numbers, exact fractions and
floating point numbers other than NaN come in.  The same loop that finds a greatest element by a
comparison ends, under the same laws, with the first of the greatest (`foldl_better_splits`).
-/
import Mathlib
import PathAtlas.Order

namespace PathAtlas.Order

variable {β : Type} {before : β → β → Bool} {xs ys : List β} {x : β}

/-! ## 1. Rankings -/

/-- A comparison ranks the elements of a list: of two at most one stands before the other, and what
lies between two ranks is told from one of them. -/
structure Ranks (before : β → β → Bool) (xs : List β) : Prop where
  asymm : ∀ a ∈ xs, ∀ b ∈ xs, before a b = true → before b a = false
  between : ∀ a ∈ xs, ∀ b ∈ xs, ∀ c ∈ xs, before a c = true →
    before a b = true ∨ before b c = true

theorem Ranks.of_subset (h : Ranks before xs) (hsub : ys ⊆ xs) : Ranks before ys where
  asymm a ha b hb := h.asymm a (hsub ha) b (hsub hb)
  between a ha b hb c hc := h.between a (hsub ha) b (hsub hb) c (hsub hc)

/-- Places in a linear order rank whatever has one. -/
theorem ranks_of_lt_iff {κ : Type} [LinearOrder κ] (place : β → κ)
    (h : ∀ a ∈ xs, ∀ b ∈ xs, before a b = true ↔ place a < place b) : Ranks before xs where
  asymm a ha b hb hab := by
    rw [← Bool.not_eq_true, h b hb a ha]
    exact lt_asymm ((h a ha b hb).mp hab)
  between a ha b hb c hc hac := by
    rw [h a ha b hb, h b hb c hc]
    have hplaces : place a < place c := (h a ha c hc).mp hac
    exact (lt_or_ge (place a) (place b)).imp_right fun hba => lt_of_le_of_lt hba hplaces

/-- The other way round a ranking is one too. -/
theorem Ranks.flip (h : Ranks before xs) : Ranks (fun a b => before b a) xs where
  asymm a ha b hb := h.asymm b hb a ha
  between a ha b hb c hc hca := (h.between c hc b hb a ha hca).symm

/-- Nothing stands behind an element that ranks after it. -/
def Ascending (before : β → β → Bool) (xs : List β) : Prop :=
  xs.Pairwise fun a b => before b a = false

/-! ## 2. One element more -/

/-- An element goes in front of a list in which nothing ranks before it. -/
theorem insertBy_of_forall (h : ∀ y ∈ ys, before y x = false) :
    insertBy before x ys = x :: ys := by
  cases ys with
  | nil => rfl
  | cons y ys => rw [insertBy, if_neg (by simp [h y])]

/-- What stands before nothing of a list in order is before none of it. -/
theorem Ranks.of_first_not_before {y : β} (h : Ranks before (x :: y :: ys))
    (hasc : Ascending before (y :: ys)) (hyx : ¬ before y x = true) :
    ∀ z ∈ y :: ys, before z x = false := by
  intro z hz
  rcases List.mem_cons.mp hz with rfl | hzs
  · exact Bool.eq_false_iff.mpr hyx
  · have hzy : before z y = false := (List.pairwise_cons.mp hasc).1 z hzs
    rw [Bool.eq_false_iff]
    intro hzx
    rcases h.between z (by simp [hzs]) y (by simp) x (by simp) hzx with hbad | hbad
    · exact absurd hbad (by simp [hzy])
    · exact hyx hbad

/-- Putting an element at its place keeps a list in order. -/
theorem insertBy_ascending (h : Ranks before (x :: ys)) (hasc : Ascending before ys) :
    Ascending before (insertBy before x ys) := by
  induction ys with
  | nil => exact List.pairwise_singleton _ _
  | cons y ys ih =>
    obtain ⟨hy, hys⟩ := List.pairwise_cons.mp hasc
    by_cases hyx : before y x = true
    · rw [insertBy, if_pos hyx]
      have hrest : Ranks before (x :: ys) := h.of_subset (by simp)
      refine List.pairwise_cons.mpr ⟨fun z hz => ?_, ih hrest hys⟩
      rcases List.mem_cons.mp ((insertBy_perm before x ys).mem_iff.mp hz) with rfl | hz
      · exact h.asymm y (by simp) z (by simp) hyx
      · exact hy z hz
    · rw [insertBy, if_neg hyx]
      exact List.pairwise_cons.mpr ⟨h.of_first_not_before hasc hyx, hasc⟩

/-- Elements are picked out of a list in order before or after one more is put into it. -/
theorem filter_insertBy (h : Ranks before (x :: ys)) (hasc : Ascending before ys) (p : β → Bool) :
    (insertBy before x ys).filter p
      = if p x then insertBy before x (ys.filter p) else ys.filter p := by
  induction ys with
  | nil => cases hpx : p x <;> simp [insertBy, hpx]
  | cons y ys ih =>
    by_cases hyx : before y x = true
    · have hrest : Ranks before (x :: ys) := h.of_subset (by simp)
      rw [insertBy, if_pos hyx, List.filter_cons, ih hrest (List.pairwise_cons.mp hasc).2]
      cases hpx : p x <;> cases hpy : p y <;> simp [insertBy, hpy, hyx]
    · -- the element goes in front, and nothing that is picked ranks before it either
      have hfront := h.of_first_not_before hasc hyx
      have hpicked : insertBy before x ((y :: ys).filter p) = x :: (y :: ys).filter p :=
        insertBy_of_forall fun z hz => hfront z (List.mem_filter.mp hz).1
      rw [insertBy, if_neg hyx, hpicked, List.filter_cons]

/-! ## 3. Whole lists -/

/-- **Sorting** leaves nothing behind an element that ranks after it. -/
theorem sortBy_ascending (h : Ranks before xs) : Ascending before (sortBy before xs) := by
  induction xs with
  | nil => exact .nil
  | cons x xs ih =>
    have hrest : Ranks before xs := h.of_subset (List.subset_cons_self x xs)
    refine insertBy_ascending (h.of_subset fun z hz => ?_) (ih hrest)
    exact ((sortBy_perm before xs).cons x).mem_iff.mp hz

/-- **What is picked out** of a sorted list is what has been picked, sorted by itself. -/
theorem filter_sortBy (h : Ranks before xs) (p : β → Bool) :
    (sortBy before xs).filter p = sortBy before (xs.filter p) := by
  induction xs with
  | nil => rfl
  | cons x xs ih =>
    have hrest : Ranks before xs := h.of_subset (List.subset_cons_self x xs)
    have hsorted : Ranks before (x :: sortBy before xs) :=
      h.of_subset fun z hz => ((sortBy_perm before xs).cons x).mem_iff.mp hz
    rw [sortBy, filter_insertBy hsorted (sortBy_ascending hrest), ih hrest, List.filter_cons]
    split <;> rfl

/-- A list that is in order stays as it is. -/
theorem sortBy_eq_self (h : Ascending before xs) : sortBy before xs = xs := by
  induction xs with
  | nil => rfl
  | cons x xs ih =>
    obtain ⟨hx, hxs⟩ := List.pairwise_cons.mp h
    rw [sortBy, ih hxs, insertBy_of_forall hx]

/-! ## 4. Cuts -/

/-- What is passed on to everything ahead divides a list at one place. -/
theorem filter_append_filter_not {p : β → Bool}
    (h : xs.Pairwise fun a b => p b = true → p a = true) :
    xs.filter p ++ xs.filter (fun x => !p x) = xs := by
  induction xs with
  | nil => rfl
  | cons x xs ih =>
    obtain ⟨hx, hxs⟩ := List.pairwise_cons.mp h
    cases hpx : p x with
    | true => simp [hpx, ih hxs]
    | false =>
      have hnone : ∀ y ∈ xs, p y = false := fun y hy =>
        Bool.eq_false_iff.mpr fun hpy => by simp [hx y hy hpy] at hpx
      have hfront : xs.filter p = [] := List.filter_eq_nil_iff.mpr fun y hy => by simp [hnone y hy]
      have hback : xs.filter (fun y => !p y) = xs :=
        List.filter_eq_self.mpr fun y hy => by simp [hnone y hy]
      simp [hpx, hfront, hback]

/-- **A cut that no tie crosses** is at the same place of every list of these elements in order. -/
theorem Ascending.cut {front back : List β} (h : Ranks before xs) (hasc : Ascending before xs)
    (hperm : xs.Perm (front ++ back)) (hcut : ∀ a ∈ front, ∀ b ∈ back, before a b = true) :
    ∃ front' back', xs = front' ++ back' ∧ front'.Perm front ∧ back'.Perm back := by
  have hfront : ∀ a ∈ front, a ∈ xs := fun a ha => hperm.mem_iff.mpr (List.mem_append_left _ ha)
  have hback : ∀ b ∈ back, b ∈ xs := fun b hb => hperm.mem_iff.mpr (List.mem_append_right _ hb)
  -- the front is what ranks before all of the back
  let p (x : β) : Bool := back.all fun b => before x b
  have hp : ∀ {x}, p x = true ↔ ∀ b ∈ back, before x b = true := List.all_eq_true
  have hpfront : ∀ a ∈ front, p a = true := fun a ha => hp.mpr (hcut a ha)
  have hpback : ∀ b ∈ back, p b = false := fun b hb => Bool.eq_false_iff.mpr fun hpb => by
    have hbb := hp.mp hpb b hb
    simp [h.asymm b (hback b hb) b (hback b hb) hbb] at hbb
  have hsplit : xs.filter p ++ xs.filter (fun x => !p x) = xs := by
    refine filter_append_filter_not (List.Pairwise.imp_of_mem (fun {a b} ha hb hba hpb => ?_) hasc)
    refine hp.mpr fun c hc => ?_
    exact (h.between b hb a ha c (hback c hc) (hp.mp hpb c hc)).resolve_left (by simp [hba])
  refine ⟨_, _, hsplit.symm, ?_, ?_⟩
  · refine (hperm.filter p).trans (.of_eq ?_)
    rw [List.filter_append, List.filter_eq_self.mpr hpfront,
      List.filter_eq_nil_iff.mpr fun b hb => by simp [hpback b hb], List.append_nil]
  · refine (hperm.filter _).trans (.of_eq ?_)
    rw [List.filter_append, List.filter_eq_nil_iff.mpr fun a ha => by simp [hpfront a ha],
      List.filter_eq_self.mpr fun b hb => by simp [hpback b hb], List.nil_append]

/-! ## 5. The first of all -/

/-- The better of two elements, the first one when neither ranks before the other. -/
def better (before : β → β → Bool) (best x : β) : β := if before x best then x else best

/-- **Going through elements with the best so far** ends with one that ranks before all elements
ahead of it, and no element behind it ranks before it. -/
theorem foldl_better_splits (h : Ranks before (x :: ys)) :
    ∃ front back, x :: ys = front ++ ys.foldl (better before) x :: back ∧
      (∀ y ∈ front, before (ys.foldl (better before) x) y = true) ∧
      ∀ y ∈ back, before y (ys.foldl (better before) x) = false := by
  induction ys using List.reverseRecOn with
  | nil => exact ⟨[], [], rfl, by simp, by simp⟩
  | append_singleton ys z ih =>
    obtain ⟨front, back, hsplit, hfront, hback⟩ :=
      ih (h.of_subset (List.cons_subset_cons x (List.subset_append_left ys [z])))
    rw [List.foldl_concat]
    set best := ys.foldl (better before) x
    have hall : ∀ y ∈ x :: ys, y ∈ x :: (ys ++ [z]) := fun y hy =>
      List.mem_append_left [z] hy
    have hmem : best ∈ x :: ys := by simp [hsplit]
    have hz : z ∈ x :: (ys ++ [z]) := by simp
    unfold better
    split
    · -- the last element is better than the best of the others, and so than all of them
      rename_i hzb
      refine ⟨x :: ys, [], rfl, fun y hy => ?_, by simp⟩
      rcases h.between z hz y (hall y hy) best (hall best hmem) hzb with hzy | hyb
      · exact hzy
      · have hplace : y ∈ front ∨ y = best ∨ y ∈ back := by simpa [hsplit] using hy
        rcases hplace with hyf | rfl | hyb'
        · simp [h.asymm best (hall best hmem) y (hall y hy) (hfront y hyf)] at hyb
        · exact hzb
        · simp [hback y hyb'] at hyb
    · rename_i hzb
      refine ⟨front, back ++ [z], ?_, hfront, fun y hy => ?_⟩
      · rw [← List.cons_append, hsplit, List.append_assoc, List.cons_append]
      · rcases List.mem_append.mp hy with hy | hy
        · exact hback y hy
        · obtain rfl := List.mem_singleton.mp hy
          exact Bool.eq_false_iff.mpr hzb

/-- None of the elements ranks before the best of them. -/
theorem foldl_better (h : Ranks before xs) (hx : x ∈ xs) (hys : ys ⊆ xs) :
    ys.foldl (better before) x ∈ xs ∧
      ∀ y ∈ x :: ys, before y (ys.foldl (better before) x) = false := by
  have hsub : x :: ys ⊆ xs := List.cons_subset.mpr ⟨hx, hys⟩
  have hranks : Ranks before (x :: ys) := h.of_subset hsub
  obtain ⟨front, back, hsplit, hfront, hback⟩ := foldl_better_splits hranks
  have hmem : ys.foldl (better before) x ∈ x :: ys := by rw [hsplit]; simp
  refine ⟨hsub hmem, fun y hy => ?_⟩
  have hplace : y ∈ front ∨ y = ys.foldl (better before) x ∨ y ∈ back := by
    rwa [hsplit, List.mem_append, List.mem_cons] at hy
  rcases hplace with hyf | rfl | hyb
  · exact hranks.asymm _ hmem y hy (hfront y hyf)
  · exact Bool.eq_false_iff.mpr fun hbb => by simp [hranks.asymm _ hmem _ hmem hbb] at hbb
  · exact hback y hyb

end PathAtlas.Order
