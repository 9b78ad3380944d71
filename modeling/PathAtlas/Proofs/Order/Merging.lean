/-
# Merging sorted runs

Sorting by runs asks of two elements only whether the LATER one stands before the earlier one, and
puts it in front or leaves it behind.  So all that a comparison has to do for a list to come out in
some order is to answer that question rightly (`Answers`); what it says the other way round, or of
elements that are never asked about, does not matter.  The order itself is any transitive relation
that says what may stand before what, and elements may stand either way round.

No search needs more than the two elements between which it ends (`EndsAt`): with a comparison that
is no order a run need not fall into those that pass a test and those that do not, but the element
in front of the end passes it and the one behind does not, and that is what carries over to the
rest of the run.  While two runs are merged, everything that has been taken may stand before
everything that is left (`Sorting`), and the element that one run keeps back may stand behind all
of the other.
-/
import Mathlib
import PathAtlas.Proofs.Order.Grouping

namespace PathAtlas.Order.Runs

variable {β : Type}

/-! ## 1. Searching -/

/-- A stretch between two places ends at a third: the place in front of the end passes a test, and
the end itself does not. -/
structure EndsAt (test : Nat → Bool) (low high n : Nat) : Prop where
  low_le : low ≤ n
  le_high : n ≤ high
  in_front : low < n → test (n - 1) = true
  behind : n < high → test n = false

/-- Halving ends at the place where a test that holds for a while stops to hold. -/
theorem endsAt_halve (test : Nat → Bool) (bias : Nat) {low high : Nat} (h : low ≤ high) :
    EndsAt test low high (halve test bias low high) := by
  fun_induction halve test bias low high with
  | case1 low high hlt mid hmid ih =>
    obtain ⟨hlow, hhigh, hpasses, hfails⟩ := ih (by omega)
    refine ⟨by omega, hhigh, fun _ => ?_, hfails⟩
    rcases Nat.eq_or_lt_of_le hlow with heq | hlt'
    · rw [← heq]
      exact hmid
    · exact hpasses hlt'
  | case2 low high hlt mid hmid ih =>
    obtain ⟨hlow, hhigh, hpasses, hfails⟩ := ih (by omega)
    refine ⟨hlow, by omega, hpasses, fun _ => ?_⟩
    rcases Nat.eq_or_lt_of_le hhigh with heq | hlt'
    · rw [heq]
      exact Bool.eq_false_iff.mpr hmid
    · exact hfails hlt'
  | case3 low high hge => exact ⟨Nat.le_refl _, h, fun hlt => by omega, fun hlt => absurd hlt hge⟩

/-- Leaps find a place that passes a test and a later one that does not, or the end. -/
theorem leap_spec (test : Nat → Bool) {size last next : Nat} (hlast : test last = true)
    (hlt : last < next) (hsize : last < size) :
    test (leap test size last next).1 = true ∧
      (leap test size last next).1 < (leap test size last next).2 ∧
      (leap test size last next).2 ≤ size ∧
      ((leap test size last next).2 < size → test (leap test size last next).2 = false) := by
  fun_induction leap test size last next with
  | case1 last next hnext htest ih => exact ih htest (by omega) hnext
  | case2 last next hnext htest =>
    exact ⟨hlast, hlt, Nat.le_of_lt hnext, fun _ => Bool.eq_false_iff.mpr htest⟩
  | case3 last next hnext => exact ⟨hlast, hsize, Nat.le_refl _, fun h => absurd h (lt_irrefl _)⟩

/-- **Galloping** finds the end of a stretch from the front of a list. -/
theorem endsAt_gallop (bias : Nat) (test : β → Bool) (xs : List β) :
    EndsAt (passes test xs) 0 xs.length (gallop bias test xs) := by
  unfold gallop
  by_cases h0 : passes test xs 0 = true
  · rw [if_pos h0]
    have hpos : 0 < xs.length := by
      cases xs with
      | nil => cases h0
      | cons x xs => exact Nat.succ_pos _
    have hleap := leap_spec (passes test xs) h0 Nat.one_pos hpos
    generalize leap (passes test xs) xs.length 0 1 = found at hleap ⊢
    obtain ⟨last, next⟩ := found
    obtain ⟨hlast, hlt, hsize, hnext⟩ := hleap
    obtain ⟨hlow, hhigh, hpasses, hfails⟩ :=
      endsAt_halve (passes test xs) bias (Nat.succ_le_of_lt hlt)
    refine ⟨Nat.zero_le _, Nat.le_trans hhigh hsize, fun _ => ?_, fun hend => ?_⟩
    · rcases Nat.eq_or_lt_of_le hlow with heq | hlt'
      · show passes test xs (halve (passes test xs) bias (last + 1) next - 1) = true
        rw [← heq]
        exact hlast
      · exact hpasses hlt'
    · rcases Nat.eq_or_lt_of_le hhigh with heq | hlt'
      · show passes test xs (halve (passes test xs) bias (last + 1) next) = false
        rw [heq]
        exact hnext (heq ▸ hend)
      · exact hfails hlt'
  · rw [if_neg h0]
    exact ⟨Nat.le_refl _, Nat.zero_le _, fun h => absurd h (lt_irrefl 0),
      fun _ => Bool.eq_false_iff.mpr h0⟩

section Sorted

variable {S : β → β → Prop} {test : β → Bool} {xs : List β} {n : Nat} {y : β}

theorem passes_eq {i : Nat} (hi : i < xs.length) : passes test xs i = test xs[i] := by
  simp [passes, hi]

/-- What is in front of an end may stand before whatever the last of it may stand before. -/
theorem EndsAt.of_mem_take (h : EndsAt (passes test xs) 0 xs.length n)
    [IsTrans β S] (hsorted : xs.Pairwise S)
    (hpasses : ∀ x ∈ xs, test x = true → S x y) : ∀ x ∈ xs.take n, S x y := by
  intro x hx
  obtain ⟨i, hi, rfl⟩ := List.mem_take_iff_getElem.mp hx
  have hn : n - 1 < xs.length := by have := h.le_high; omega
  have hlast : S xs[n - 1] y := by
    have htest := h.in_front (by omega)
    rw [passes_eq hn] at htest
    exact hpasses _ (List.getElem_mem hn) htest
  rcases Nat.lt_or_ge i (n - 1) with hlt | hge
  · exact trans_of S (List.pairwise_iff_getElem.mp hsorted i (n - 1) (by omega) hn hlt) hlast
  · obtain rfl : i = n - 1 := by omega
    exact hlast

/-- What is behind an end may stand behind whatever the first of it may stand behind. -/
theorem EndsAt.of_mem_drop (h : EndsAt (passes test xs) 0 xs.length n)
    [IsTrans β S] (hsorted : xs.Pairwise S)
    (hfails : ∀ x ∈ xs, test x = false → S y x) : ∀ x ∈ xs.drop n, S y x := by
  intro x hx
  obtain ⟨i, hi, rfl⟩ := List.mem_drop_iff_getElem.mp hx
  have hn : n < xs.length := by omega
  have hfirst : S y xs[n] := by
    have htest := h.behind hn
    rw [passes_eq hn] at htest
    exact hfails _ (List.getElem_mem hn) htest
  rcases Nat.eq_zero_or_pos i with rfl | hpos
  · exact hfirst
  · have hlater := List.pairwise_iff_getElem.mp hsorted n (n + i) hn (by omega) (by omega)
    exact trans_of S hfirst hlater

end Sorted

/-- A list in order is cut into two that are, and what is in front comes before what is behind. -/
theorem pairwise_take_drop {S : β → β → Prop} {xs : List β} (h : xs.Pairwise S) (n : Nat) :
    (xs.take n).Pairwise S ∧ (xs.drop n).Pairwise S ∧
      ∀ a ∈ xs.take n, ∀ b ∈ xs.drop n, S a b := by
  rw [← List.pairwise_append, List.take_append_drop]
  exact h

/-- What may stand before the first element of a run may stand before all of it. -/
theorem forall_of_head {S : β → β → Prop} {x y : β} {ys : List β}
    [IsTrans β S] (hsorted : (y :: ys).Pairwise S) (h : S x y) :
    ∀ z ∈ y :: ys, S x z :=
  (List.pairwise_cons.mp (hsorted.cons_cons_of_trans h)).1

/-! ## 2. Merging two runs -/

/-- Two runs on the way to be merged into one that is in order. -/
structure Sorting (S : β → β → Prop) (manner : Manner β) (taken first second : List β) : Prop where
  taken_sorted : taken.Pairwise S
  first_sorted : first.Pairwise S
  second_sorted : second.Pairwise S
  taken_first : ∀ a ∈ taken, ∀ x ∈ first, S a x
  taken_second : ∀ a ∈ taken, ∀ y ∈ second, S a y
  takes : ∀ x ∈ first, ∀ y ∈ second, manner.takesFirst x y = true → S x y
  leaves : ∀ x ∈ first, ∀ y ∈ second, manner.takesFirst x y = false → S y x
  /-- What the first run keeps back may stand behind all of the second. -/
  keeps_first : 0 < manner.firstKept → ∀ x ∈ first.getLast?, ∀ y ∈ second, S y x
  /-- What the second run keeps back may stand behind all of the first. -/
  keeps_second : 0 < manner.secondKept → ∀ y ∈ second.getLast?, ∀ x ∈ first, S x y

namespace Merge

/-- A merge is on its way to a list that is in order. -/
def InOrder (S : β → β → Prop) (manner : Manner β) (m : Merge β) : Prop :=
  Sorting S manner m.taken m.first m.second

/-- How many elements are left to be taken. -/
def left (m : Merge β) : Nat := m.first.length + m.second.length

variable {S : β → β → Prop} {manner : Manner β} {m : Merge β} {n : Nat}

theorem mem_getLast?_drop {xs : List β} {x : β} (h : x ∈ (xs.drop n).getLast?) :
    x ∈ xs.getLast? := by
  rw [List.getLast?_drop] at h
  split at h
  · cases h
  · exact h

/-! ### Taking elements -/

/-- Elements of the first run may be taken that stand before all of the second one. -/
theorem InOrder.takeFirst (h : InOrder S manner m)
    (hn : ∀ x ∈ m.first.take n, ∀ y ∈ m.second, S x y) : InOrder S manner (m.takeFirst n) := by
  have htake : ∀ x ∈ m.first.take n, x ∈ m.first := fun x => List.mem_of_mem_take
  have hdrop : ∀ x ∈ m.first.drop n, x ∈ m.first := fun x => List.mem_of_mem_drop
  obtain ⟨htaken, hleft, hcross⟩ := pairwise_take_drop h.first_sorted n
  refine ⟨List.pairwise_append.mpr ⟨h.taken_sorted, htaken, fun a ha x hx => h.taken_first a ha x
    (htake x hx)⟩, hleft, h.second_sorted, fun a ha x hx => ?_, fun a ha y hy => ?_,
    fun x hx => h.takes x (hdrop x hx), fun x hx => h.leaves x (hdrop x hx),
    fun hkept x hx => h.keeps_first hkept x (mem_getLast?_drop hx),
    fun hkept y hy x hx => h.keeps_second hkept y hy x (hdrop x hx)⟩
  · rcases List.mem_append.mp ha with ha | ha
    · exact h.taken_first a ha x (hdrop x hx)
    · exact hcross a ha x hx
  · rcases List.mem_append.mp ha with ha | ha
    · exact h.taken_second a ha y hy
    · exact hn a ha y hy

/-- Elements of the second run may be taken that stand before all of the first one. -/
theorem InOrder.takeSecond (h : InOrder S manner m)
    (hn : ∀ y ∈ m.second.take n, ∀ x ∈ m.first, S y x) : InOrder S manner (m.takeSecond n) := by
  have htake : ∀ y ∈ m.second.take n, y ∈ m.second := fun y => List.mem_of_mem_take
  have hdrop : ∀ y ∈ m.second.drop n, y ∈ m.second := fun y => List.mem_of_mem_drop
  obtain ⟨htaken, hleft, hcross⟩ := pairwise_take_drop h.second_sorted n
  refine ⟨List.pairwise_append.mpr ⟨h.taken_sorted, htaken, fun a ha y hy => h.taken_second a ha y
    (htake y hy)⟩, h.first_sorted, hleft, fun a ha x hx => ?_, fun a ha y hy => ?_,
    fun x hx y hy => h.takes x hx y (hdrop y hy), fun x hx y hy => h.leaves x hx y (hdrop y hy),
    fun hkept x hx y hy => h.keeps_first hkept x hx y (hdrop y hy),
    fun hkept y hy => h.keeps_second hkept y (mem_getLast?_drop hy)⟩
  · rcases List.mem_append.mp ha with ha | ha
    · exact h.taken_first a ha x hx
    · exact hn a ha x hx
  · rcases List.mem_append.mp ha with ha | ha
    · exact h.taken_second a ha y (hdrop y hy)
    · exact hcross a ha y hy

@[simp] theorem left_takeFirst : (m.takeFirst n).left = m.left - min n m.first.length := by
  simp only [left, takeFirst, List.length_drop]
  omega

@[simp] theorem left_takeSecond : (m.takeSecond n).left = m.left - min n m.second.length := by
  simp only [left, takeSecond, List.length_drop]
  omega

/-! ### Leads -/

/-- The lead of the first run comes before the second one, and what is left of the first run comes
behind the first of the second. -/
theorem InOrder.firstLead_spec (h : InOrder S manner m)
    [IsTrans β S] {y : β} {ys : List β} (hy : m.second = y :: ys) :
    (∀ x ∈ m.first.take (m.firstLead manner), ∀ z ∈ m.second, S x z) ∧
      ∀ x ∈ m.first.drop (m.firstLead manner), S y x := by
  have hlead : m.firstLead manner
      = gallop manner.bias (fun x => manner.takesFirst x y) m.first := by
    rw [firstLead, hy]
  have hmem : y ∈ m.second := by simp [hy]
  have hend := endsAt_gallop manner.bias (fun x => manner.takesFirst x y) m.first
  rw [hlead]
  have hfront : ∀ x ∈ m.first.take (gallop manner.bias (fun x => manner.takesFirst x y) m.first),
      S x y := hend.of_mem_take h.first_sorted fun x hx => h.takes x hx y hmem
  refine ⟨fun x hx => ?_, hend.of_mem_drop h.first_sorted fun x hx => h.leaves x hx y hmem⟩
  rw [hy]
  exact forall_of_head (hy ▸ h.second_sorted) (hfront x hx)

/-- The lead of the second run comes before the first one, and what is left of the second run comes
behind the first of the first. -/
theorem InOrder.secondLead_spec (h : InOrder S manner m)
    [IsTrans β S] {x : β} {xs : List β} (hx : m.first = x :: xs) :
    (∀ y ∈ m.second.take (m.secondLead manner), ∀ z ∈ m.first, S y z) ∧
      ∀ y ∈ m.second.drop (m.secondLead manner), S x y := by
  have hlead : m.secondLead manner
      = gallop manner.bias (fun y => !manner.takesFirst x y) m.second := by
    rw [secondLead, hx]
  have hmem : x ∈ m.first := by simp [hx]
  have hend := endsAt_gallop manner.bias (fun y => !manner.takesFirst x y) m.second
  rw [hlead]
  have hfront : ∀ y ∈ m.second.take
      (gallop manner.bias (fun y => !manner.takesFirst x y) m.second), S y x :=
    hend.of_mem_take h.second_sorted fun y hy hyx =>
      h.leaves x hmem y hy (by simpa using hyx)
  refine ⟨fun y hy => ?_, hend.of_mem_drop h.second_sorted fun y hy hxy =>
    h.takes x hmem y hy (by simpa using hxy)⟩
  rw [hx]
  exact forall_of_head (hx ▸ h.first_sorted) (hfront y hy)

/-! ### Steps -/

/-- A merge that is not done has an element left in each of its runs. -/
theorem exists_cons_of_not_isDone (h : m.isDone manner = false) :
    (∃ x xs, m.first = x :: xs) ∧ ∃ y ys, m.second = y :: ys := by
  have hlengths : manner.firstKept < m.first.length ∧ manner.secondKept < m.second.length := by
    simpa [isDone] using h
  exact ⟨List.exists_cons_of_length_pos (by omega), List.exists_cons_of_length_pos (by omega)⟩

/-- What holds of a merge, and after a further step where it is not done, holds after going on. -/
theorem onward_induction {P : Merge β → Prop} {next : Merge β → Merge β} (hm : P m)
    (h : m.isDone manner = false → P (next m)) : P (m.onward manner next) := by
  unfold onward
  split
  · exact hm
  · rename_i hdone
    exact h (Bool.eq_false_iff.mpr hdone)

/-- Going on leads to a merge that is done, or to what a further step leads to. -/
theorem isDone_onward_or {P : Merge β → Prop} {next : Merge β → Merge β}
    (h : m.isDone manner = false → P (next m)) :
    (m.onward manner next).isDone manner = true ∨ P (m.onward manner next) := by
  unfold onward
  split
  · rename_i hdone
    exact .inl hdone
  · rename_i hdone
    exact .inr (h (Bool.eq_false_iff.mpr hdone))

theorem InOrder.impatient (h : InOrder S manner m) : InOrder S manner m.impatient := by
  unfold Merge.impatient
  split <;> exact h

theorem InOrder.review (h : InOrder S manner m) (a b : Nat) :
    InOrder S manner (m.review a b) := by
  unfold Merge.review
  split <;> exact h

/-- Taking one element keeps the order. -/
theorem InOrder.single (h : InOrder S manner m) [IsTrans β S] :
    InOrder S manner (m.single manner) := by
  unfold Merge.single
  split
  · rename_i x xs y ys hx hy
    have hxm : x ∈ m.first := by simp [hx]
    have hym : y ∈ m.second := by simp [hy]
    refine onward_induction ?_ fun _ => .impatient ?_
    all_goals
      split
      · rename_i hwins
        refine h.takeFirst fun a ha => ?_
        obtain rfl : a = x := by simpa [hx] using ha
        rw [hy]
        exact forall_of_head (hy ▸ h.second_sorted) (h.takes a hxm y hym hwins)
      · rename_i hwins
        refine h.takeSecond fun b hb => ?_
        obtain rfl : b = y := by simpa [hy] using hb
        rw [hx]
        exact forall_of_head (hx ▸ h.first_sorted)
          (h.leaves x hxm b hym (Bool.eq_false_iff.mpr hwins))
  · exact h

/-- Taking many elements at once keeps the order. -/
theorem InOrder.many (h : InOrder S manner m) [IsTrans β S]
    (hm : m.isDone manner = false) : InOrder S manner (m.many manner) := by
  obtain ⟨-, y, ys, hy⟩ := exists_cons_of_not_isDone hm
  obtain ⟨hlead, hrest⟩ := h.firstLead_spec hy
  unfold Merge.many
  refine onward_induction (h.takeFirst hlead) fun _ => ?_
  -- the second run has its first element left, which comes before what is left of the first run
  have hsecond : InOrder S manner ((m.takeFirst (m.firstLead manner)).takeSecond 1) := by
    refine InOrder.takeSecond (h.takeFirst hlead) fun b hb => ?_
    obtain rfl : b = y := by simpa [Merge.takeFirst, hy] using hb
    exact hrest
  refine onward_induction hsecond fun hdone => ?_
  obtain ⟨⟨x, xs, hx⟩, -⟩ := exists_cons_of_not_isDone hdone
  obtain ⟨hlead', hrest'⟩ := InOrder.secondLead_spec hsecond hx
  refine onward_induction (InOrder.takeSecond hsecond hlead') fun _ => ?_
  refine onward_induction ?_ fun _ => .review ?_ _ _
  all_goals
    refine InOrder.takeFirst (InOrder.takeSecond hsecond hlead') fun a ha => ?_
    obtain rfl : a = x := by
      have hfirst : (m.first.drop (m.firstLead manner)).take 1 = [x] := by
        rw [show m.first.drop (m.firstLead manner) = x :: xs from hx]
        rfl
      exact List.mem_singleton.mp (hfirst ▸ ha)
    exact hrest'

/-! ### Progress -/

theorem left_impatient : m.impatient.left = m.left := by
  unfold impatient
  split <;> rfl

theorem left_review (a b : Nat) : (m.review a b).left = m.left := by
  unfold review
  split <;> rfl

theorem left_onward_le {next : Merge β → Merge β} (h : ∀ m : Merge β, (next m).left ≤ m.left) :
    (m.onward manner next).left ≤ m.left :=
  onward_induction (P := fun next => next.left ≤ m.left) (Nat.le_refl _) fun _ => h m

theorem isDone_of_left (h : m.left = 0) : m.isDone manner = true := by
  have hfirst : m.first.length = 0 := by
    unfold left at h
    omega
  simp [isDone, hfirst]

/-- Taking one element uses it up. -/
theorem left_single_lt (hm : m.isDone manner = false) : (m.single manner).left < m.left := by
  obtain ⟨⟨x, xs, hx⟩, y, ys, hy⟩ := exists_cons_of_not_isDone hm
  have hpos : 0 < m.first.length ∧ 0 < m.second.length := by simp [hx, hy]
  unfold single
  rw [hx, hy]
  refine lt_of_le_of_lt (left_onward_le fun m => le_of_eq left_impatient) ?_
  split
  · show (m.takeFirst 1).left < m.left
    rw [left_takeFirst]
    unfold left
    omega
  · show (m.takeSecond 1).left < m.left
    rw [left_takeSecond]
    unfold left
    omega

/-- Taking many elements uses some up, or there is no need to go on. -/
theorem left_many_lt (hm : m.isDone manner = false) :
    (m.many manner).isDone manner = true ∨ (m.many manner).left < m.left := by
  obtain ⟨-, y, ys, hy⟩ := exists_cons_of_not_isDone hm
  have hpos : 0 < m.second.length := by simp [hy]
  have hrest : ∀ lead (m : Merge β), ((m.takeSecond (m.secondLead manner)).onward manner fun m' =>
      (m'.takeFirst 1).onward manner (review lead (m.secondLead manner))).left ≤ m.left := by
    intro lead m
    refine (left_onward_le fun m' => ?_).trans (by simp)
    exact (left_onward_le fun m => le_of_eq (left_review _ _)).trans (by simp)
  unfold many
  refine isDone_onward_or (P := fun next => next.left < m.left) fun _ =>
    lt_of_le_of_lt (left_onward_le fun m => hrest _ m) ?_
  rw [left_takeSecond, left_takeFirst]
  show m.left - min _ m.first.length - min 1 m.second.length < m.left
  unfold left
  omega

/-! ### Runs -/

theorem run_of_isDone (h : m.isDone manner = true) (fuel : Nat) : m.run manner fuel = m := by
  cases fuel with
  | zero => rfl
  | succ fuel => exact if_pos h

theorem InOrder.run (h : InOrder S manner m) [IsTrans β S]
    (fuel : Nat) : InOrder S manner (m.run manner fuel) := by
  induction fuel generalizing m with
  | zero => exact h
  | succ fuel ih =>
    refine onward_induction h fun hm => ih ?_
    split
    · exact h.many hm
    · exact h.single

/-- With as many steps as there are elements left, a merge is done. -/
theorem isDone_run (fuel : Nat) (h : m.left ≤ fuel) : (m.run manner fuel).isDone manner = true := by
  induction fuel generalizing m with
  | zero => exact isDone_of_left (Nat.le_zero.mp h)
  | succ fuel ih =>
    cases hm : m.isDone manner with
    | true => rwa [run_of_isDone hm]
    | false =>
      have hrun : m.run manner (fuel + 1)
          = run manner fuel (if m.gallops then m.many manner else m.single manner) :=
        if_neg (by simp [hm])
      rw [hrun]
      split
      · rcases left_many_lt hm with hdone | hlt
        · rwa [run_of_isDone hdone]
        · exact ih (by omega)
      · have := left_single_lt hm
        exact ih (by omega)

/-- A run that has nothing left but what it keeps back may stand behind all of the other run. -/
theorem forall_of_kept {xs ys : List β} {kept : Nat} (hlength : ys.length ≤ kept) (hkept : kept ≤ 1)
    (h : 0 < kept → ∀ y ∈ ys.getLast?, ∀ x ∈ xs, S x y) : ∀ x ∈ xs, ∀ y ∈ ys, S x y := by
  intro x hx y hy
  obtain ⟨z, rfl⟩ : ∃ z, ys = [z] := List.length_eq_one_iff.mp
    (le_antisymm (hlength.trans hkept) (List.length_pos_of_mem hy))
  obtain rfl : y = z := List.mem_singleton.mp hy
  exact h hlength y rfl x hx

/-- **A merge that is done** is in order. -/
theorem InOrder.result (h : InOrder S manner m) (hm : m.isDone manner = true)
    (hkept : manner.firstKept = 0 ∧ manner.secondKept = 1 ∨
      manner.firstKept = 1 ∧ manner.secondKept = 0) : (m.result manner).Pairwise S := by
  have hdone : m.first.length ≤ manner.firstKept ∨ m.second.length ≤ manner.secondKept := by
    simpa [isDone] using hm
  unfold Merge.result
  rcases hkept with ⟨hfirst, hsecond⟩ | ⟨hfirst, hsecond⟩
  · rw [if_pos hfirst]
    have hcross : ∀ x ∈ m.first, ∀ y ∈ m.second, S x y := by
      rcases hdone with hdone | hdone
      · have hnil : m.first = [] := List.length_eq_zero_iff.mp (by omega)
        simp [hnil]
      · exact forall_of_kept hdone hsecond.le h.keeps_second
    refine List.pairwise_append.mpr ⟨h.taken_sorted,
      List.pairwise_append.mpr ⟨h.first_sorted, h.second_sorted, hcross⟩, fun a ha b hb => ?_⟩
    rcases List.mem_append.mp hb with hb | hb
    · exact h.taken_first a ha b hb
    · exact h.taken_second a ha b hb
  · rw [if_neg (by omega)]
    have hcross : ∀ y ∈ m.second, ∀ x ∈ m.first, S y x := by
      rcases hdone with hdone | hdone
      · exact forall_of_kept hdone hfirst.le h.keeps_first
      · have hnil : m.second = [] := List.length_eq_zero_iff.mp (by omega)
        simp [hnil]
    refine List.pairwise_append.mpr ⟨h.taken_sorted,
      List.pairwise_append.mpr ⟨h.second_sorted, h.first_sorted, hcross⟩, fun a ha b hb => ?_⟩
    rcases List.mem_append.mp hb with hb | hb
    · exact h.taken_second a ha b hb
    · exact h.taken_first a ha b hb

end Merge

/-! ## 3. Two runs of a list -/

theorem mem_head?_of_mem_take_one {xs : List β} {x : β} (h : x ∈ xs.take 1) : x ∈ xs.head? := by
  cases xs with
  | nil => cases h
  | cons y ys => simpa [eq_comm] using h

section Runs

variable {R : β → β → Prop} {before : β → β → Bool} {xs ys : List β}
variable [IsTrans β R]
variable (answers : ∀ x ∈ xs, ∀ y ∈ ys, Answers before R x y)
include answers

/-- Two runs are merged in order where the second one begins before the first, and the first one
ends behind the second. -/
theorem mergeCore_pairwise (hxs : xs.Pairwise R) (hys : ys.Pairwise R)
    (hbegin : ∀ y ∈ ys.head?, ∀ x ∈ xs, R y x) (hend : ∀ x ∈ xs.getLast?, ∀ y ∈ ys, R y x)
    (patience : Nat) : (mergeCore before patience xs ys).1.Pairwise R := by
  unfold mergeCore
  dsimp only
  split
  · have hstart : Merge.InOrder R (.forward before)
        { taken := [], first := xs, second := ys, patience } :=
      { taken_sorted := .nil
        first_sorted := hxs
        second_sorted := hys
        taken_first := nofun
        taken_second := nofun
        takes := fun x hx y hy h => (answers x hx y hy).stays (by simpa [Manner.forward] using h)
        leaves := fun x hx y hy h =>
          (answers x hx y hy).forward (by simpa [Manner.forward] using h)
        keeps_first := fun _ => hend
        keeps_second := fun h => absurd h (lt_irrefl 0) }
    have htaken := hstart.takeSecond (n := 1) fun y hy => hbegin y (mem_head?_of_mem_take_one hy)
    refine (htaken.run _).result (Merge.isDone_run _ ?_) (.inr ⟨rfl, rfl⟩)
    rw [Merge.left_takeSecond]
    exact Nat.sub_le _ _
  · -- from the back the runs are turned round, and so is the order
    have hstart : Merge.InOrder (fun a b => R b a) (.backward before)
        { taken := [], first := xs.reverse, second := ys.reverse, patience } :=
      { taken_sorted := .nil
        first_sorted := List.pairwise_reverse.mpr hxs
        second_sorted := List.pairwise_reverse.mpr hys
        taken_first := nofun
        taken_second := nofun
        takes := fun x hx y hy h =>
          (answers x (List.mem_reverse.mp hx) y (List.mem_reverse.mp hy)).forward h
        leaves := fun x hx y hy h =>
          (answers x (List.mem_reverse.mp hx) y (List.mem_reverse.mp hy)).stays h
        keeps_first := fun h => absurd h (lt_irrefl 0)
        keeps_second := fun _ y hy x hx =>
          hbegin y (by simpa using hy) x (List.mem_reverse.mp hx) }
    have htaken := hstart.takeFirst (n := 1) fun x hx y hy =>
      hend x (by simpa using mem_head?_of_mem_take_one hx) y (List.mem_reverse.mp hy)
    refine List.pairwise_reverse.mpr ((htaken.run _).result
      (Merge.isDone_run _ ?_) (.inl ⟨rfl, rfl⟩))
    rw [Merge.left_takeFirst]
    refine (Nat.sub_le _ _).trans ?_
    simp [Merge.left]

omit answers in
/-- What a run has in front of an element stays there; the rest may stand behind the element. -/
theorem front_spec {y : β} (hxs : xs.Pairwise R) (h : ∀ x ∈ xs, Answers before R x y) :
    (∀ x ∈ xs.take (gallop 0 (fun x => !before y x) xs), R x y) ∧
      ∀ x ∈ xs.drop (gallop 0 (fun x => !before y x) xs), R y x := by
  have hend := endsAt_gallop 0 (fun x => !before y x) xs
  constructor
  · exact hend.of_mem_take hxs fun x hx hyx => (h x hx).stays (by simpa using hyx)
  · exact hend.of_mem_drop hxs fun x hx hyx => (h x hx).forward (by simpa using hyx)

omit answers in
/-- What a run has behind an element is found from its back. -/
theorem inner_spec {x : β} (hys : ys.Pairwise R) (h : ∀ y ∈ ys, Answers before R x y) :
    (∀ y ∈ ys.take (ys.length - gallop 1 (fun y => !before y x) ys.reverse), R y x) ∧
      ∀ y ∈ ys.drop (ys.length - gallop 1 (fun y => !before y x) ys.reverse), R x y := by
  have hend := endsAt_gallop 1 (fun y => !before y x) ys.reverse
  have hrev : ys.reverse.Pairwise fun a b => R b a := List.pairwise_reverse.mpr hys
  constructor
  · intro y hy
    refine hend.of_mem_drop (S := fun a b => R b a) hrev (fun y hy hyx => ?_) y ?_
    · exact (h y (List.mem_reverse.mp hy)).forward (by simpa using hyx)
    · rwa [List.drop_reverse, List.mem_reverse]
  · intro y hy
    refine hend.of_mem_take (S := fun a b => R b a) hrev (fun y hy hyx => ?_) y ?_
    · exact (h y (List.mem_reverse.mp hy)).stays (by simpa using hyx)
    · rwa [List.take_reverse, List.mem_reverse]

/-- **Two runs are merged** in order. -/
theorem mergeRuns_pairwise (hxs : xs.Pairwise R) (hys : ys.Pairwise R) (patience : Nat) :
    (mergeRuns before patience xs ys).1.Pairwise R := by
  unfold mergeRuns
  split
  · exact hxs
  rename_i y rest
  obtain ⟨hbefore, hbehind⟩ := front_spec hxs fun x hx => answers x hx y (by simp)
  generalize gallop 0 (fun x => !before y x) xs = front at hbefore hbehind ⊢
  obtain ⟨htake, hdrop, hcross⟩ := pairwise_take_drop hxs front
  have hbefore' : ∀ x ∈ xs.take front, ∀ z ∈ y :: rest, R x z := fun x hx =>
    forall_of_head hys (hbefore x hx)
  dsimp only
  split
  · rename_i hlast
    have hall : xs.take front = xs := by
      rw [List.getLast?_eq_none_iff, List.drop_eq_nil_iff] at hlast
      exact List.take_of_length_le hlast
    exact List.pairwise_append.mpr ⟨hxs, hys, hall ▸ hbefore'⟩
  rename_i x hlast
  have hx : x ∈ xs.drop front := List.mem_of_getLast? hlast
  obtain ⟨hwithin, hafter⟩ := inner_spec hys (answers x (List.mem_of_mem_drop hx))
  generalize (y :: rest).length - gallop 1 (fun y => !before y x) (y :: rest).reverse = inner
    at hwithin hafter ⊢
  obtain ⟨htake', hdrop', hcross'⟩ := pairwise_take_drop hys inner
  have hbegin : ∀ z ∈ ((y :: rest).take inner).head?, ∀ a ∈ xs.drop front, R z a := by
    intro z hz
    cases inner with
    | zero => cases hz
    | succ inner =>
      obtain rfl : y = z := by simpa using hz
      exact hbehind
  have hend : ∀ z ∈ (xs.drop front).getLast?, ∀ b ∈ (y :: rest).take inner, R b z := by
    intro z hz
    obtain rfl : x = z := Option.some.inj (hlast.symm.trans hz)
    exact hwithin
  have hcore := mergeCore_pairwise
    (fun a ha b hb => answers a (List.mem_of_mem_drop ha) b (List.mem_of_mem_take hb))
    hdrop htake' hbegin hend patience
  have hmem : ∀ a ∈ (mergeCore before patience (xs.drop front) ((y :: rest).take inner)).1,
      a ∈ xs.drop front ∨ a ∈ (y :: rest).take inner := fun a ha =>
    List.mem_append.mp ((mergeCore_perm before patience _ _).mem_iff.mp ha)
  -- the last of the first run stands before whatever the second run has behind it
  have hlasts : ∀ a ∈ xs.drop front, a = x ∨ R a x := by
    obtain ⟨init, hinit⟩ := List.getLast?_eq_some_iff.mp hlast
    rw [hinit] at hdrop ⊢
    intro a ha
    rcases List.mem_append.mp ha with ha | ha
    · exact .inr ((List.pairwise_append.mp hdrop).2.2 a ha x (List.mem_singleton_self x))
    · exact .inl (List.mem_singleton.mp ha)
  refine List.pairwise_append.mpr ⟨htake, List.pairwise_append.mpr ⟨hcore, hdrop', ?_⟩, ?_⟩
  · intro a ha b hb
    rcases hmem a ha with ha | ha
    · rcases hlasts a ha with rfl | hax
      · exact hafter b hb
      · exact trans_of R hax (hafter b hb)
    · exact hcross' a ha b hb
  · intro a ha b hb
    rcases List.mem_append.mp hb with hb | hb
    · rcases hmem b hb with hb | hb
      · exact hcross a ha b hb
      · exact hbefore' a ha b (List.mem_of_mem_take hb)
    · exact hbefore' a ha b (List.mem_of_mem_drop hb)

end Runs

end PathAtlas.Order.Runs
