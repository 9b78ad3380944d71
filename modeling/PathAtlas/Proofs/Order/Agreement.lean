/-
# Sorting by runs and by insertion

Sorting by runs looks at nothing but the answers of the comparison: elements that carry something
along are sorted as they are without it (`sort_map`).  With its place in the list as what an
element carries along, an order leaves a list only one way to come out, and so the runs give what
insertion gives, wherever the comparison answers as one that ranks the elements does
(`sort_eq_sortBy`).  For the same reason a list can be sorted from its last element to its first
(`reverse_sortBy_reverse`).

Both main results take a hypothesis about the answers of the comparison on the list at hand and not
about all elements there could be, so they apply to lists of floating point numbers of which none
is NaN.  Where one is, the two ways of sorting differ, and only `sort_perm` is left.
-/
import PathAtlas.Proofs.Order.Runs
import PathAtlas.Proofs.Order.Stability

namespace PathAtlas.Order.Runs

variable {β γ : Type} (f : γ → β)

/-! ## 1. What elements carry along -/

/-- A comparison of elements that carry something along. -/
def pulled (before : β → β → Bool) (a b : γ) : Bool := before (f a) (f b)

theorem passes_map (test : β → Bool) (xs : List γ) :
    passes test (xs.map f) = passes (fun a => test (f a)) xs := by
  funext i
  unfold passes
  rw [List.getElem?_map]
  cases xs[i]? <;> rfl

theorem gallop_map (bias : Nat) (test : β → Bool) (xs : List γ) :
    gallop bias test (xs.map f) = gallop bias (fun a => test (f a)) xs := by
  simp only [gallop, passes_map, List.length_map]

theorem stretch_map (test : β → β → Bool) (x : γ) (ys : List γ) :
    stretch test (f x) (ys.map f) = stretch (fun a b => test (f a) (f b)) x ys := by
  induction ys generalizing x with
  | nil => rfl
  | cons y ys ih => simp only [List.map_cons, stretch, ih]

/-- The run at the front is the same with something carried along. -/
theorem firstRun_map (before : β → β → Bool) (xs : List γ) :
    firstRun before (xs.map f) =
      ((firstRun (pulled f before) xs).1.map f, (firstRun (pulled f before) xs).2.map f) := by
  match xs with
  | [] => rfl
  | [x] => rfl
  | x :: y :: rest =>
    have hsize : stretch (fun a b => before b a == before (f y) (f x)) (f x) (f y :: rest.map f)
        = stretch (fun a b => pulled f before b a == pulled f before y x) x (y :: rest) :=
      stretch_map f _ x (y :: rest)
    simp only [List.map_cons, firstRun, hsize]
    rw [← List.map_cons, ← List.map_cons, ← List.map_take, ← List.map_drop]
    congr 1
    by_cases h : before (f y) (f x) = true
    · rw [if_pos h, if_pos (show pulled f before y x = true from h), List.map_reverse]
    · rw [if_neg h, if_neg (show ¬ pulled f before y x = true from h)]

theorem insert_map (before : β → β → Bool) (run : List γ) (x : γ) :
    insert before (run.map f) (f x) = (insert (pulled f before) run x).map f := by
  simp only [insert, passes_map, List.length_map, List.map_append, List.map_cons, List.map_take,
    List.map_drop, pulled]

theorem foldl_insert_map (before : β → β → Bool) (run xs : List γ) :
    (xs.map f).foldl (insert before) (run.map f)
      = (xs.foldl (insert (pulled f before)) run).map f := by
  induction xs generalizing run with
  | nil => rfl
  | cons x xs ih => rw [List.map_cons, List.foldl_cons, insert_map, ih, List.foldl_cons]

theorem filledRun_map (before : β → β → Bool) (least : Nat) (xs : List γ) :
    filledRun before least (xs.map f) =
      ((filledRun (pulled f before) least xs).1.map f,
        (filledRun (pulled f before) least xs).2.map f) := by
  simp only [filledRun, firstRun_map, List.length_map, ← List.map_take, ← List.map_drop,
    foldl_insert_map]

/-! ## 2. Merging -/

/-- A manner of merging elements that carry something along. -/
def Manner.pulled (manner : Manner β) : Manner γ :=
  ⟨fun x y => manner.takesFirst (f x) (f y), manner.firstKept, manner.secondKept, manner.bias⟩

namespace Merge

/-- A merge without what its elements carry along. -/
def map (m : Merge γ) : Merge β :=
  { m with taken := m.taken.map f, first := m.first.map f, second := m.second.map f }

variable (manner : Manner β) (m : Merge γ)

theorem isDone_map : (m.map f).isDone manner = m.isDone (manner.pulled f) := by
  simp only [isDone, map, List.length_map]
  rfl

theorem takeFirst_map (n : Nat) : (m.map f).takeFirst n = (m.takeFirst n).map f := by
  simp only [takeFirst, map, List.map_append, List.map_take, List.map_drop]

theorem takeSecond_map (n : Nat) : (m.map f).takeSecond n = (m.takeSecond n).map f := by
  simp only [takeSecond, map, List.map_append, List.map_take, List.map_drop]

theorem firstLead_map : (m.map f).firstLead manner = m.firstLead (manner.pulled f) := by
  rcases m with ⟨_, first, _ | ⟨y, ys⟩⟩
  · rfl
  · exact gallop_map f manner.bias (fun x => manner.takesFirst x (f y)) first

theorem secondLead_map : (m.map f).secondLead manner = m.secondLead (manner.pulled f) := by
  rcases m with ⟨_, _ | ⟨x, xs⟩, second⟩
  · rfl
  · exact gallop_map f manner.bias (fun y => !manner.takesFirst (f x) y) second

theorem impatient_map : (m.map f).impatient = m.impatient.map f := by
  unfold impatient map
  dsimp only
  split <;> rfl

theorem review_map (a b : Nat) : (m.map f).review a b = (m.review a b).map f := by
  unfold review
  split <;> rfl

variable {m} in
theorem onward_map {next : Merge β → Merge β} {next' : Merge γ → Merge γ}
    (h : ∀ m : Merge γ, next (m.map f) = (next' m).map f) :
    (m.map f).onward manner next = (m.onward (manner.pulled f) next').map f := by
  simp only [onward, isDone_map]
  split
  · rfl
  · exact h m

theorem single_map : (m.map f).single manner = (m.single (manner.pulled f)).map f := by
  rcases m with ⟨taken, _ | ⟨x, xs⟩, _ | ⟨y, ys⟩, firstWins, secondWins, gallops, patience⟩
  · rfl
  · rfl
  · rfl
  · refine Eq.trans ?_ (onward_map f manner fun m => impatient_map f m)
    rw [apply_ite (map f)]
    simp only [single, map, takeFirst, takeSecond, Manner.pulled, List.map_append, List.map_take,
      List.map_drop, List.map_cons]

/-- Many elements are taken at once in the same way with something carried along. -/
theorem many_map : (m.map f).many manner = (m.many (manner.pulled f)).map f := by
  unfold many
  dsimp only
  refine (congrArg (onward manner _) ?_).trans (onward_map f manner fun m' => ?_)
  · exact (congrArg (takeFirst · _) (firstLead_map f manner m)).trans (takeFirst_map f
      { m with patience := if 1 < m.patience then m.patience - 1 else m.patience } _)
  · rw [takeSecond_map]
    refine onward_map f manner fun m => ?_
    rw [secondLead_map, takeSecond_map]
    refine onward_map f manner fun m => ?_
    rw [takeFirst_map]
    refine onward_map f manner fun m => ?_
    exact (congrArg (review · _ _) (firstLead_map f manner _)).trans (review_map f m _ _)

theorem run_map (fuel : Nat) :
    (m.map f).run manner fuel = (m.run (manner.pulled f) fuel).map f := by
  induction fuel generalizing m with
  | zero => rfl
  | succ fuel ih =>
    refine onward_map f manner fun m => ?_
    rw [many_map, single_map, ← ih]
    rw [apply_ite (map f)]
    rfl

theorem result_map : (m.map f).result manner = (m.result (manner.pulled f)).map f := by
  simp only [result, map, List.map_append, apply_ite (List.map f)]
  rfl

end Merge

/-- Two runs are merged in the same way with something carried along. -/
theorem mergeCore_map (before : β → β → Bool) (patience : Nat) (xs ys : List γ) :
    mergeCore before patience (xs.map f) (ys.map f) =
      ((mergeCore (pulled f before) patience xs ys).1.map f,
        (mergeCore (pulled f before) patience xs ys).2) := by
  unfold mergeCore
  simp only [List.length_map]
  split
  · have hrun := Merge.run_map f (.forward before)
      (Merge.takeSecond 1 { taken := [], first := xs, second := ys, patience })
      (xs.length + ys.length)
    rw [← Merge.takeSecond_map] at hrun
    exact Prod.ext ((congrArg _ hrun).trans (Merge.result_map f _ _))
      (congrArg Merge.patience hrun)
  · have hrun := Merge.run_map f (.backward before)
      (Merge.takeFirst 1 { taken := [], first := xs.reverse, second := ys.reverse, patience })
      (xs.length + ys.length)
    rw [← Merge.takeFirst_map] at hrun
    simp only [Merge.map, List.map_reverse] at hrun
    exact Prod.ext ((congrArg List.reverse ((congrArg _ hrun).trans (Merge.result_map f _ _))).trans
      List.map_reverse.symm) (congrArg Merge.patience hrun)

theorem mergeRuns_map (before : β → β → Bool) (patience : Nat) (xs ys : List γ) :
    mergeRuns before patience (xs.map f) (ys.map f) =
      ((mergeRuns (pulled f before) patience xs ys).1.map f,
        (mergeRuns (pulled f before) patience xs ys).2) := by
  cases ys with
  | nil => rfl
  | cons y ys =>
    have hfront : gallop 0 (fun x => !before (f y) x) (xs.map f)
        = gallop 0 (fun x => !pulled f before y x) xs := gallop_map f 0 _ xs
    simp only [mergeRuns, List.map_cons, hfront, ← List.map_drop, List.getLast?_map]
    cases hlast : (xs.drop (gallop 0 (fun x => !pulled f before y x) xs)).getLast? with
    | none => simp
    | some x =>
      have hinner : gallop 1 (fun z => !before z (f x)) ((y :: ys).map f).reverse
          = gallop 1 (fun z => !pulled f before z x) (y :: ys).reverse := by
        rw [← List.map_reverse]
        exact gallop_map f 1 _ _
      rw [List.map_cons] at hinner
      simp only [Option.map_some, hinner, List.length_cons, List.length_map]
      rw [← List.map_cons, ← List.map_take, ← List.map_take, ← List.map_drop, mergeCore_map]
      simp only [List.map_append]

/-! ## 3. Whole lists -/

/-- A run without what its elements carry along. -/
def Run.map (run : Run γ) : Run β := { run with items := run.items.map f }

namespace Pending

/-- Runs without what their elements carry along. -/
def map (p : Pending γ) : Pending β := { p with runs := p.runs.map (Run.map f) }

variable (before : β → β → Bool)

/-- Runs are kept in balance in the same way with something carried along. -/
theorem settle_map (depth patience : Nat) (runs : List (Run γ)) :
    settle before depth patience (runs.map (Run.map f))
      = (settle (pulled f before) depth patience runs).map f := by
  fun_induction settle (pulled f before) depth patience runs with
  | case1 patience last previous rest h items next hm ih =>
    have hmerge := mergeRuns_map f before patience previous.items last.items
    rw [hm] at hmerge
    rw [List.map_cons, List.map_cons, settle]
    simp only [Run.map, if_pos h, hmerge]
    exact ih
  | case2 patience last previous rest h =>
    rw [List.map_cons, List.map_cons, settle]
    rw [if_neg (show ¬ depth < (Run.map f previous).depth from h)]
    rfl
  | case3 patience last =>
    rw [List.map_cons, List.map_nil, settle]
    rfl
  | case4 patience =>
    rw [List.map_nil, settle]
    rfl

theorem add_map (size : Nat) (items : List γ) (p : Pending γ) :
    (p.map f).add before size (items.map f) = (p.add (pulled f before) size items).map f := by
  rcases p with ⟨_ | ⟨last, others⟩, patience⟩
  · rfl
  · have hstart : ((others.map (Run.map f)).flatMap Run.items).length
        = (others.flatMap Run.items).length := by
      rw [List.flatMap_map, List.length_flatMap, List.length_flatMap]
      simp [Run.map]
    simp only [add, map, List.map_cons, hstart]
    rw [← List.map_cons, settle_map]
    simp only [Run.map, List.length_map, map]

/-- All runs are merged in the end in the same way with something carried along. -/
theorem collapse_map (patience : Nat) (runs : List (Run γ)) :
    collapse before patience (runs.map (Run.map f))
      = (collapse (pulled f before) patience runs).map f := by
  fun_induction collapse (pulled f before) patience runs with
  | case1 patience last previous earlier rest h items next hm ih =>
    have hmerge := mergeRuns_map f before patience earlier.items previous.items
    rw [hm] at hmerge
    rw [List.map_cons, List.map_cons, List.map_cons, collapse]
    simp only [Run.map, List.length_map, if_pos h, hmerge]
    exact ih
  | case2 patience last previous earlier rest h items next hm ih =>
    have hmerge := mergeRuns_map f before patience previous.items last.items
    rw [hm] at hmerge
    rw [List.map_cons, List.map_cons, List.map_cons, collapse]
    simp only [Run.map, List.length_map, if_neg h, hmerge]
    exact ih
  | case3 patience last previous =>
    rw [List.map_cons, List.map_cons, List.map_nil, collapse]
    simp only [Run.map, mergeRuns_map]
  | case4 patience last =>
    rw [List.map_cons, List.map_nil, collapse]
    rfl
  | case5 patience =>
    rw [List.map_nil, collapse]
    rfl

/-- Runs are collected in the same way with something carried along. -/
theorem collect_map (size least fuel : Nat) (xs : List γ) (p : Pending γ) :
    collect before size least fuel (xs.map f) (p.map f)
      = (collect (pulled f before) size least fuel xs p).map f := by
  induction fuel generalizing xs p with
  | zero => exact add_map f before size xs p
  | succ fuel ih =>
    unfold collect
    rw [List.isEmpty_map]
    split
    · rfl
    · simp only [filledRun_map, add_map, ih]

end Pending

/-- **Sorting by runs** looks at nothing but the answers of the comparison. -/
theorem sort_map (before : β → β → Bool) (xs : List γ) :
    sort before (xs.map f) = (sort (pulled f before) xs).map f := by
  unfold sort
  rw [List.length_map]
  exact (congrArg (fun p => Pending.collapse before p.patience p.runs)
    (Pending.collect_map f before _ _ _ xs ⟨[], Merge.longLead⟩)).trans
    (Pending.collapse_map f before _ _)

/-! ## 4. Insertion -/

theorem insertBy_map (before : β → β → Bool) (x : γ) (ys : List γ) :
    insertBy before (f x) (ys.map f) = (insertBy (pulled f before) x ys).map f := by
  induction ys with
  | nil => rfl
  | cons y ys ih =>
    rw [List.map_cons, insertBy, insertBy, ih, apply_ite (List.map f)]
    rfl

theorem sortBy_map (before : β → β → Bool) (xs : List γ) :
    sortBy before (xs.map f) = (sortBy (pulled f before) xs).map f := by
  induction xs with
  | nil => rfl
  | cons x xs ih => rw [List.map_cons, sortBy, ih, insertBy_map, sortBy]

variable {before : β → β → Bool} {R : β → β → Prop} {xs : List β}

/-- However a list is sorted, it comes into the order for which the comparison answers rightly. -/
theorem sortAmong_pairwise [IsTrans β R] (comparable : β → Bool)
    (h : xs.Pairwise (Answers before R)) : (sortAmong comparable before xs).Pairwise R := by
  unfold sortAmong
  split
  · exact sortBy_pairwise_of_answers h
  · exact sort_pairwise h

/-! ## 5. Agreement -/

/-- An element with its place stands before another: it ranks before it, or it ties with it and has
the earlier place. -/
def PlacedBefore (ranking : β → β → Bool) (a b : β × Nat) : Prop :=
  ranking a.1 b.1 = true ∨ ranking b.1 a.1 = false ∧ a.2 < b.2

section Placed

variable {ranking : β → β → Bool}

/-- To stand before another by rank, and by place among equals, is transitive. -/
theorem isTrans_placedBefore (h : ∀ xs, Ranks ranking xs) :
    IsTrans (β × Nat) (PlacedBefore ranking) := by
  have asymm : ∀ {a b}, ranking a b = true → ranking b a = false := fun {a b} =>
    (h [a, b]).asymm a (by simp) b (by simp)
  have between : ∀ {a} b {c}, ranking a c = true → ranking a b = true ∨ ranking b c = true :=
    fun {a} b {c} => (h [a, b, c]).between a (by simp) b (by simp) c (by simp)
  refine ⟨fun a b c hab hbc => ?_⟩
  rcases hab with hab | ⟨hab, hi⟩ <;> rcases hbc with hbc | ⟨hbc, hj⟩
  · exact .inl ((between c.1 hab).resolve_right (by simp [asymm hbc]))
  · exact .inl ((between c.1 hab).resolve_right (by simp [hbc]))
  · exact .inl ((between a.1 hbc).resolve_left (by simp [hab]))
  · refine .inr ⟨Bool.eq_false_iff.mpr fun hca => ?_, hi.trans hj⟩
    rcases between b.1 hca with hcb | hba
    · simp [hbc] at hcb
    · simp [hab] at hba

theorem placedBefore_asymm (h : ∀ xs, Ranks ranking xs) {a b : β × Nat}
    (hab : PlacedBefore ranking a b) (hba : PlacedBefore ranking b a) : False := by
  have asymm : ∀ {a b}, ranking a b = true → ranking b a = false := fun {a b} =>
    (h [a, b]).asymm a (by simp) b (by simp)
  rcases hab with hab | ⟨hab, hi⟩ <;> rcases hba with hba | ⟨hba, hj⟩
  · simp [asymm hab] at hba
  · simp [hab] at hba
  · simp [hba] at hab
  · exact lt_asymm hi hj

/-- About elements with their places a comparison is right when it answers as the ranking does. -/
theorem answers_placedBefore {a b : β × Nat} (h : before b.1 a.1 = ranking b.1 a.1)
    (hplace : a.2 < b.2) : Answers (pulled Prod.fst before) (PlacedBefore ranking) a b where
  forward hba := .inl (h.symm.trans hba)
  stays hba := .inr ⟨h.symm.trans hba, hplace⟩

/-- A list whose elements carry their places along. -/
theorem pairwise_zipIdx {P : β → β → Prop} (h : xs.Pairwise P) :
    xs.zipIdx.Pairwise fun a b => P a.1 b.1 ∧ a.2 < b.2 := by
  rw [List.pairwise_iff_getElem] at h ⊢
  intro i j hi hj hij
  simp only [List.getElem_zipIdx]
  exact ⟨h i j (by simpa using hi) (by simpa using hj) hij, by omega⟩

theorem zipIdx_pairwise_lt (xs : List β) : xs.zipIdx.Pairwise fun a b => a.2 < b.2 :=
  (pairwise_zipIdx (List.pairwise_of_forall fun _ _ => trivial)).imp And.right

/-- The elements of a list in order with their places are the list sorted by insertion. -/
theorem eq_sortBy_of_placed (h : ∀ xs, Ranks ranking xs) {zs : List (β × Nat)}
    (hperm : zs.Perm xs.zipIdx) (hzs : zs.Pairwise (PlacedBefore ranking)) :
    zs.map Prod.fst = sortBy ranking xs := by
  have := isTrans_placedBefore h
  have hinsert : (sortBy (pulled Prod.fst ranking) xs.zipIdx).Pairwise (PlacedBefore ranking) :=
    sortBy_pairwise_of_answers ((zipIdx_pairwise_lt xs).imp fun hij => answers_placedBefore rfl hij)
  have hperm := hperm.trans (sortBy_perm (pulled Prod.fst ranking) xs.zipIdx).symm
  have heq := hperm.eq_of_pairwise (fun a b _ _ hab hba => (placedBefore_asymm h hab hba).elim)
    hzs hinsert
  have hxs : xs.zipIdx.map Prod.fst = xs := List.zipIdx_map_fst 0 xs
  rw [heq, ← sortBy_map, hxs]

/-- Where all there is can be ranked, runs and insertion agree. -/
theorem sort_eq_sortBy_of_ranks (h : ∀ xs, Ranks ranking xs)
    (hasked : xs.Pairwise fun a b => before b a = ranking b a) :
    sort before xs = sortBy ranking xs := by
  have := isTrans_placedBefore h
  have hsort : (sort (pulled Prod.fst before) xs.zipIdx).Pairwise (PlacedBefore ranking) :=
    sort_pairwise ((pairwise_zipIdx hasked).imp fun ⟨hba, hij⟩ => answers_placedBefore hba hij)
  have hxs : xs.zipIdx.map Prod.fst = xs := List.zipIdx_map_fst 0 xs
  rw [← eq_sortBy_of_placed h (sort_perm _ _) hsort, ← sort_map, hxs]

/-- Where all there is can be ranked, a list can be sorted the other way round. -/
theorem reverse_sortBy_reverse_of_ranks (h : ∀ xs, Ranks ranking xs) (xs : List β) :
    (sortBy (fun a b => ranking b a) xs.reverse).reverse = sortBy ranking xs := by
  have := isTrans_placedBefore h
  have hsort : (sortBy (pulled Prod.fst fun a b => ranking b a) xs.zipIdx.reverse).Pairwise
      (Function.swap (PlacedBefore ranking)) := by
    have : IsTrans (β × Nat) (Function.swap (PlacedBefore ranking)) := inferInstance
    refine sortBy_pairwise_of_answers
      (List.pairwise_reverse.mpr ((zipIdx_pairwise_lt xs).imp fun hij => ?_))
    exact ⟨fun hab => .inl hab, fun hab => .inr ⟨hab, hij⟩⟩
  have hperm := (List.reverse_perm _).trans
    ((sortBy_perm (pulled Prod.fst fun a b => ranking b a) xs.zipIdx.reverse).trans
      (List.reverse_perm xs.zipIdx))
  have hxs : xs.zipIdx.map Prod.fst = xs := List.zipIdx_map_fst 0 xs
  rw [← eq_sortBy_of_placed h hperm (List.pairwise_reverse.mpr hsort), List.map_reverse,
    ← sortBy_map, List.map_reverse, hxs]

end Placed

/-! ## 6. Lists that can be ranked -/

section Ranked

variable {ranking : β → β → Bool}

/-- Whatever elements of the list are taken, they can be ranked. -/
theorem ranks_attach (h : Ranks ranking xs) (zs : List {x // x ∈ xs}) :
    Ranks (pulled Subtype.val ranking) zs where
  asymm a _ b _ := h.asymm a a.2 b b.2
  between a _ b _ c _ := h.between a a.2 b b.2 c c.2

/-- **Runs and insertion agree** where the comparison answers about an element and a later one as
one does that ranks the elements. -/
theorem sort_eq_sortBy (h : Ranks ranking xs)
    (hasked : xs.Pairwise fun a b => before b a = ranking b a) :
    sort before xs = sortBy ranking xs := by
  have hattach : xs.attach.map Subtype.val = xs := List.attach_map_subtype_val xs
  rw [← hattach] at hasked
  have hagree : sort (pulled Subtype.val before) xs.attach
      = sortBy (pulled Subtype.val ranking) xs.attach :=
    sort_eq_sortBy_of_ranks (ranks_attach h) (List.pairwise_map.mp hasked)
  rw [← hattach, sort_map, sortBy_map, hagree]

/-- **Sorting a list the other way round**, from its last element to its first, makes no
difference. -/
theorem reverse_sortBy_reverse (h : Ranks ranking xs) :
    (sortBy (fun a b => ranking b a) xs.reverse).reverse = sortBy ranking xs := by
  have hattach : xs.attach.map Subtype.val = xs := List.attach_map_subtype_val xs
  have hback : (sortBy (pulled Subtype.val fun a b => ranking b a) xs.attach.reverse).reverse
      = sortBy (pulled Subtype.val ranking) xs.attach :=
    reverse_sortBy_reverse_of_ranks (ranks_attach h) xs.attach
  rw [← hattach, ← List.map_reverse, sortBy_map, sortBy_map, ← List.map_reverse, hback]

end Ranked

end PathAtlas.Order.Runs
