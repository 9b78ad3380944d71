/-
# What sorting and grouping do

`Order.groupBy` walks a list and keeps one group per key; `Order.sortBy` puts the groups in the
order of their keys.  What comes out depends on the list in two ways only: on WHICH keys occur,
and, for each key, on the elements that have it.

* `sortBy_pairwise_of_answers`: a sorted list is in any order for which the comparison answers
  rightly (`Answers`) about each element and the later ones;
* `groupBy_splits`: a group is the first element of a key and all later ones of that key, also where
  keys can be the same without being equal;
* `sorted_groups`: sorted groups are the sorted keys, each with its elements in list order;
* `groupKeys_eq_of_mem_iff`: the sorted keys are known from the set of keys;
* `textSet_eq_of_mem_iff`: the same for sets of texts.

So a permutation of the list permutes each group and changes nothing else.
-/
import Mathlib.Algebra.Ring.Nat
import Mathlib.Data.List.Pairwise
import Mathlib.Data.List.Sort
import Mathlib.Data.String.Basic
import PathAtlas.Order

namespace PathAtlas.Order

variable {β κ : Type}

/-! ## 1. Comparisons that are orders -/

/-- Two lists in strict order with the same members are the same list. -/
theorem eq_of_pairwise_of_mem_iff {R : κ → κ → Prop} (asymm : ∀ {a b}, R a b → ¬ R b a)
    {xs ys : List κ} (hx : xs.Pairwise R) (hy : ys.Pairwise R) (hmem : ∀ k, k ∈ xs ↔ k ∈ ys) :
    xs = ys := by
  have nodup : ∀ {zs : List κ}, zs.Pairwise R → zs.Nodup := by
    intro zs hz
    refine hz.imp ?_
    rintro a b hab rfl
    exact asymm hab hab
  have hperm : xs.Perm ys := (List.perm_ext_iff_of_nodup (nodup hx) (nodup hy)).mpr hmem
  exact hperm.eq_of_pairwise (fun a b _ _ hab hba => absurd hba (asymm hab)) hx hy

/-- A comparison that puts any two different keys in one order. -/
structure IsOrder (before : κ → κ → Bool) : Prop where
  irrefl : ∀ a, before a a = false
  trans : ∀ {a b c}, before a b = true → before b c = true → before a c = true
  connex : ∀ {a b}, a ≠ b → before a b = true ∨ before b a = true

namespace IsOrder

variable {before : κ → κ → Bool}

theorem asymm (h : IsOrder before) {a b : κ} (hab : before a b = true) : before b a = false := by
  cases hba : before b a with
  | false => rfl
  | true => exact absurd (h.trans hab hba) (by simp [h.irrefl a])

theorem eq_of_mem_iff (h : IsOrder before) {xs ys : List κ}
    (hx : xs.Pairwise fun a b => before a b = true)
    (hy : ys.Pairwise fun a b => before a b = true) (hmem : ∀ k, k ∈ xs ↔ k ∈ ys) : xs = ys :=
  eq_of_pairwise_of_mem_iff (fun hab => by simp [h.asymm hab]) hx hy hmem

end IsOrder

/-- Texts stand in one order. -/
theorem isOrder_text : IsOrder fun a b : String => decide (a < b) where
  irrefl a := decide_eq_false (lt_irrefl a)
  trans hab hbc := decide_eq_true (lt_trans (of_decide_eq_true hab) (of_decide_eq_true hbc))
  connex hne := (lt_or_gt_of_ne hne).imp decide_eq_true decide_eq_true

theorem pairBefore_iff {a b : String × String} :
    pairBefore a b = true ↔ a.1 < b.1 ∨ a.1 = b.1 ∧ a.2 < b.2 := by
  rw [pairBefore, Bool.or_eq_true, Bool.and_eq_true, decide_eq_true_iff, decide_eq_true_iff,
    beq_iff_eq]

/-- Pairs of texts stand in one order. -/
theorem isOrder_pair : IsOrder pairBefore where
  irrefl a := by
    rw [Bool.eq_false_iff, Ne, pairBefore_iff]
    rintro (h | ⟨-, h⟩)
    · exact lt_irrefl _ h
    · exact lt_irrefl _ h
  trans {a b c} hab hbc := by
    rw [pairBefore_iff] at *
    rcases hab with hab | ⟨hab, hab'⟩
    · rcases hbc with hbc | ⟨hbc, -⟩
      · exact .inl (lt_trans hab hbc)
      · exact .inl (hbc ▸ hab)
    · rcases hbc with hbc | ⟨hbc, hbc'⟩
      · exact .inl (hab ▸ hbc)
      · exact .inr ⟨hab.trans hbc, lt_trans hab' hbc'⟩
  connex {a b} hne := by
    simp only [pairBefore_iff]
    rcases lt_trichotomy a.1 b.1 with h | h | h
    · exact .inl (.inl h)
    · have h2 : a.2 ≠ b.2 := fun e => hne (Prod.ext h e)
      rcases lt_or_gt_of_ne h2 with h' | h'
      · exact .inl (.inr ⟨h, h'⟩)
      · exact .inr (.inr ⟨h.symm, h'⟩)
    · exact .inr (.inl h)

/-! ## 2. Sorting -/

/-- What a comparison answers about an element and a later one is right for an order. -/
structure Answers (before : β → β → Bool) (R : β → β → Prop) (earlier later : β) : Prop where
  forward : before later earlier = true → R later earlier
  stays : before later earlier = false → R earlier later

section Sorting

variable {before : β → β → Bool} {R : β → β → Prop} {xs : List β}

/-- An element is put into a list in order. -/
theorem insertBy_pairwise [IsTrans β R] {x : β} (answers : ∀ y ∈ xs, Answers before R x y)
    (hxs : xs.Pairwise R) : (insertBy before x xs).Pairwise R := by
  induction xs with
  | nil => exact List.pairwise_singleton _ _
  | cons y ys ih =>
    obtain ⟨hy, hys⟩ := List.pairwise_cons.mp hxs
    rw [insertBy]
    split
    · rename_i hyx
      refine List.pairwise_cons.mpr ⟨fun z hz => ?_,
        ih (fun z hz => answers z (List.mem_cons_of_mem y hz)) hys⟩
      rcases List.mem_cons.mp ((insertBy_perm before x ys).mem_iff.mp hz) with rfl | hz
      · exact (answers y List.mem_cons_self).forward hyx
      · exact hy z hz
    · rename_i hyx
      have hxy : R x y := (answers y List.mem_cons_self).stays (Bool.eq_false_iff.mpr hyx)
      exact hxs.cons_cons_of_trans hxy

/-- **Sorting by insertion** brings a list into the order for which the comparison answers rightly
whenever it is asked of an element and a later one. -/
theorem sortBy_pairwise_of_answers [IsTrans β R] (h : xs.Pairwise (Answers before R)) :
    (sortBy before xs).Pairwise R := by
  induction xs with
  | nil => exact .nil
  | cons x xs ih =>
    obtain ⟨hx, hxs⟩ := List.pairwise_cons.mp h
    exact insertBy_pairwise (fun y hy => hx y ((sortBy_perm before xs).mem_iff.mp hy)) (ih hxs)

/-- A list whose keys are all different comes out in strict order of its keys. -/
theorem sortBy_pairwise {before : κ → κ → Bool} {key : β → κ} (h : IsOrder before) {xs : List β}
    (hnd : (xs.map key).Nodup) :
    (sortBy (fun a b => before (key a) (key b)) xs).Pairwise
      fun a b => before (key a) (key b) = true := by
  have : IsTrans β fun a b => before (key a) (key b) = true := ⟨fun _ _ _ => h.trans⟩
  refine sortBy_pairwise_of_answers ((List.pairwise_map.mp hnd).imp fun hne => ⟨id, fun hba => ?_⟩)
  exact (h.connex hne).resolve_right (Bool.eq_false_iff.mp hba)

end Sorting

/-! ## 3. Sets of texts -/

/-- A text is added at its place. -/
theorem insertText_pairwise {x : String} {ys : List String} (h : ys.Pairwise (· < ·)) :
    (insertText x ys).Pairwise (· < ·) := by
  induction ys with
  | nil => exact List.pairwise_singleton _ _
  | cons y ys ih =>
    obtain ⟨hy, hys⟩ := List.pairwise_cons.mp h
    rw [insertText]
    split
    · rename_i hlt
      refine List.pairwise_cons.mpr ⟨fun z hz => ?_, h⟩
      rcases List.mem_cons.mp hz with rfl | hz
      · exact hlt
      · exact lt_trans hlt (hy z hz)
    · split
      · exact h
      · rename_i hnlt hne
        refine List.pairwise_cons.mpr ⟨fun z hz => ?_, ih hys⟩
        rcases mem_insertText.mp hz with rfl | hz
        · exact (lt_or_gt_of_ne hne).resolve_left hnlt
        · exact hy z hz

/-- A set of texts is in strict order. -/
theorem textSet_pairwise (xs : List String) : (textSet xs).Pairwise (· < ·) := by
  induction xs with
  | nil => exact .nil
  | cons x xs ih => exact insertText_pairwise ih

/-- A set of texts is known from its members. -/
theorem textSet_eq_of_mem_iff {xs ys : List String} (h : ∀ s, s ∈ xs ↔ s ∈ ys) :
    textSet xs = textSet ys := by
  refine isOrder_text.eq_of_mem_iff ?_ ?_ fun s => by rw [mem_textSet, mem_textSet, h s]
  · exact (textSet_pairwise xs).imp decide_eq_true
  · exact (textSet_pairwise ys).imp decide_eq_true

theorem textSet_perm {xs ys : List String} (h : xs.Perm ys) : textSet xs = textSet ys :=
  textSet_eq_of_mem_iff fun _ => h.mem_iff

/-! ## 4. Groups -/

section Groups

variable [BEq κ] {key : β → κ}

theorem groupBy_cons (x : β) (xs : List β) :
    groupBy key (x :: xs)
      = (key x, x :: (takeGroup (key x) (groupBy key xs)).1)
          :: (takeGroup (key x) (groupBy key xs)).2 := rfl

/-- Taking a group out leaves the other groups as they are. -/
theorem takeGroup_sublist (k : κ) (groups : List (κ × List β)) :
    (takeGroup k groups).2.Sublist groups := by
  induction groups with
  | nil => exact .slnil
  | cons g groups ih =>
    rw [takeGroup]
    split
    · exact List.sublist_cons_self g groups
    · exact ih.cons_cons g

/-- Taking a group out loses none of its elements. -/
theorem takeGroup_perm (k : κ) (groups : List (κ × List β)) :
    ((takeGroup k groups).1 ++ (takeGroup k groups).2.flatMap Prod.snd).Perm
      (groups.flatMap Prod.snd) := by
  induction groups with
  | nil => exact .refl _
  | cons g groups ih =>
    rw [takeGroup]
    split
    · exact .refl _
    · simp only [List.flatMap_cons]
      exact (List.perm_append_comm_assoc _ _ _).trans (ih.append_left g.2)

/-- **The groups together** are the list, in another order. -/
theorem flatMap_groupBy_perm (key : β → κ) (xs : List β) :
    ((groupBy key xs).flatMap Prod.snd).Perm xs := by
  induction xs with
  | nil => exact .refl _
  | cons x xs ih =>
    rw [groupBy_cons, List.flatMap_cons, List.cons_append]
    exact ((takeGroup_perm (key x) (groupBy key xs)).trans ih).cons x

/-- Every element of a list is in one group. -/
theorem sum_length_groupBy (key : β → κ) (xs : List β) :
    ((groupBy key xs).map fun g => g.2.length).sum = xs.length := by
  rw [← (flatMap_groupBy_perm key xs).length_eq, List.length_flatMap]

/-- No group is empty. -/
theorem group_ne_nil {xs : List β} : ∀ g ∈ groupBy key xs, g.2 ≠ [] := by
  induction xs with
  | nil => simp [groupBy]
  | cons x xs ih =>
    intro g hg
    rw [groupBy_cons] at hg
    rcases List.mem_cons.mp hg with rfl | hg
    · exact List.cons_ne_nil _ _
    · exact ih g ((takeGroup_sublist (key x) _).subset hg)

/-- The keys stand in the order of the list. -/
theorem map_fst_groupBy_sublist (key : β → κ) (xs : List β) :
    ((groupBy key xs).map Prod.fst).Sublist (xs.map key) := by
  induction xs with
  | nil => exact .slnil
  | cons x xs ih =>
    rw [groupBy_cons, List.map_cons, List.map_cons]
    exact (((takeGroup_sublist (key x) _).map Prod.fst).trans ih).cons_cons (key x)

section Kinds

variable {p : κ → Bool}

/-- A group can be taken out before or after the groups of other kinds are. -/
theorem takeGroup_filter (hp : ∀ k k', (k == k') = true → p k = p k') {k : κ} (hk : p k = true)
    (groups : List (κ × List β)) :
    takeGroup k (groups.filter fun g => p g.1)
      = ((takeGroup k groups).1, (takeGroup k groups).2.filter fun g => p g.1) := by
  induction groups with
  | nil => rfl
  | cons g groups ih =>
    cases hsame : g.1 == k with
    | true => simp [takeGroup, hsame, (hp g.1 k hsame).trans hk]
    | false =>
      cases hg : p g.1 with
      | true => simp [takeGroup, hsame, hg, ih]
      | false => simp [takeGroup, hsame, hg, ih]

/-- Without its kind it does not matter whether a group is taken out. -/
theorem filter_takeGroup (hp : ∀ k k', (k == k') = true → p k = p k') {k : κ} (hk : p k = false)
    (groups : List (κ × List β)) :
    (takeGroup k groups).2.filter (fun g => p g.1) = groups.filter fun g => p g.1 := by
  induction groups with
  | nil => rfl
  | cons g groups ih =>
    cases hsame : g.1 == k with
    | true => simp [takeGroup, hsame, (hp g.1 k hsame).trans hk]
    | false =>
      cases hg : p g.1 with
      | true => simp [takeGroup, hsame, hg, ih]
      | false => simp [takeGroup, hsame, hg, ih]

/-- **The groups of some kinds** are those of their elements, if keys that are the same are of one
kind.  A key need not be the same as itself. -/
theorem groupBy_filter (hp : ∀ k k', (k == k') = true → p k = p k') (key : β → κ) (xs : List β) :
    groupBy key (xs.filter fun x => p (key x)) = (groupBy key xs).filter fun g => p g.1 := by
  induction xs with
  | nil => rfl
  | cons x xs ih =>
    cases hx : p (key x) with
    | true => simp [hx, groupBy_cons, ih, takeGroup_filter hp hx]
    | false => simp [hx, groupBy_cons, ih, filter_takeGroup hp hx]

end Kinds

section Keys

variable [PartialEquivBEq κ]

/-- What is left has another key than the group that was taken out. -/
theorem ne_of_mem_takeGroup {k : κ} {groups : List (κ × List β)}
    (h : groups.Pairwise fun g g' => (g.1 == g'.1) = false) :
    ∀ g ∈ (takeGroup k groups).2, (g.1 == k) = false := by
  induction groups with
  | nil => simp [takeGroup]
  | cons g groups ih =>
    obtain ⟨hfirst, hrest⟩ := List.pairwise_cons.mp h
    intro g' hg'
    cases hk : g.1 == k with
    | true =>
      simp only [takeGroup, hk, if_true] at hg'
      rw [← hfirst g' hg']
      exact (BEq.congr_right hk).symm.trans BEq.comm
    | false =>
      simp only [takeGroup, hk, Bool.false_eq_true, if_false, List.mem_cons] at hg'
      rcases hg' with rfl | hg'
      · exact hk
      · exact ih hrest g' hg'

/-- No two groups have the same key. -/
theorem groupBy_pairwise (key : β → κ) (xs : List β) :
    (groupBy key xs).Pairwise fun g g' => (g.1 == g'.1) = false := by
  induction xs with
  | nil => exact .nil
  | cons x xs ih =>
    rw [groupBy_cons]
    refine List.pairwise_cons.mpr ⟨fun g hg => ?_, ih.sublist (takeGroup_sublist (key x) _)⟩
    rw [BEq.comm]
    exact ne_of_mem_takeGroup ih g hg

/-- One group is taken out before or after one of another key. -/
theorem takeGroup_takeGroup {k k' : κ} (h : (k == k') = false) (groups : List (κ × List β)) :
    (takeGroup k (takeGroup k' groups).2).1 = (takeGroup k groups).1 := by
  induction groups with
  | nil => rfl
  | cons g groups ih =>
    cases hk : g.1 == k with
    | true =>
      have hk' : (g.1 == k') = false := (BEq.congr_left hk).trans h
      simp [takeGroup, hk, hk']
    | false =>
      cases hk' : g.1 == k' with
      | true => simp [takeGroup, hk, hk']
      | false => simp [takeGroup, hk, hk', ih]

/-- The group of a key holds its elements in list order. -/
theorem takeGroup_groupBy (k : κ) (xs : List β) :
    (takeGroup k (groupBy key xs)).1 = xs.filter (key · == k) := by
  induction xs generalizing k with
  | nil => rfl
  | cons x xs ih =>
    rw [groupBy_cons, takeGroup]
    cases hk : key x == k with
    | true =>
      have hsame : ∀ y ∈ xs, (key y == key x) = (key y == k) := fun y _ => BEq.congr_right hk
      simp [hk, ih (key x), List.filter_congr hsame]
    | false =>
      have hother : (k == key x) = false := BEq.comm.trans hk
      simp [hk, takeGroup_takeGroup hother, ih k]

/-- **A group** starts with the first element of its key, and all others of the key follow it in
list order.  A key need not be the same as itself, and then the first element is alone. -/
theorem groupBy_splits {xs : List β} :
    ∀ g ∈ groupBy key xs, ∃ front x back, xs = front ++ x :: back ∧
      (∀ y ∈ front, (key y == key x) = false) ∧
      g = (key x, x :: back.filter (key · == key x)) := by
  induction xs with
  | nil => simp [groupBy]
  | cons x xs ih =>
    intro g hg
    rw [groupBy_cons, takeGroup_groupBy] at hg
    rcases List.mem_cons.mp hg with rfl | hg
    · exact ⟨[], x, xs, rfl, by simp, rfl⟩
    · have hne := ne_of_mem_takeGroup (groupBy_pairwise key xs) g hg
      obtain ⟨front, y, back, rfl, hfront, rfl⟩ := ih g ((takeGroup_sublist (key x) _).subset hg)
      exact ⟨x :: front, y, back, rfl,
        List.forall_mem_cons.mpr ⟨BEq.comm.trans hne, hfront⟩, rfl⟩

end Keys

variable [LawfulBEq κ]

/-- Taking a group out leaves the groups of the other keys. -/
theorem takeGroup_snd {k : κ} :
    ∀ {groups : List (κ × List β)}, (groups.map Prod.fst).Nodup →
      (takeGroup k groups).2 = groups.filter (·.1 != k)
  | [], _ => rfl
  | (k', xs) :: rest, hnd => by
    obtain ⟨hk', hrest⟩ := List.nodup_cons.mp hnd
    rw [takeGroup]
    split
    · rename_i he
      obtain rfl : k' = k := eq_of_beq he
      have hself : rest.filter (·.1 != k') = rest := by
        refine List.filter_eq_self.mpr fun g hg => bne_iff_ne.mpr ?_
        rintro rfl
        exact hk' (List.mem_map.mpr ⟨g, hg, rfl⟩)
      simp [hself]
    · rename_i he
      simp [bne, he, takeGroup_snd hrest]

/-- The groups have different keys. -/
theorem groupBy_nodup (xs : List β) : ((groupBy key xs).map Prod.fst).Nodup := by
  induction xs with
  | nil => exact .nil
  | cons x xs ih =>
    rw [groupBy_cons, takeGroup_snd ih]
    refine List.nodup_cons.mpr ⟨?_, (List.filter_sublist.map _).nodup ih⟩
    simp

/-- The keys of the groups are those of the list. -/
theorem mem_map_fst_groupBy {xs : List β} {k : κ} :
    k ∈ (groupBy key xs).map Prod.fst ↔ k ∈ xs.map key := by
  induction xs with
  | nil => simp [groupBy]
  | cons x xs ih =>
    rw [groupBy_cons, takeGroup_snd (groupBy_nodup xs), List.map_cons, List.map_cons, List.mem_cons,
      List.mem_cons, ← ih]
    constructor
    · rintro (hk | hk)
      · exact .inl hk
      · exact .inr ((List.filter_sublist.map _).subset hk)
    · rintro (hk | hk)
      · exact .inl hk
      · by_cases he : k = key x
        · exact .inl he
        · obtain ⟨g, hg, rfl⟩ := List.mem_map.mp hk
          exact .inr (List.mem_map_of_mem (List.mem_filter.mpr ⟨hg, bne_iff_ne.mpr he⟩))

/-- Groups come in the order in which their keys appear first. -/
theorem groupBy_pairwise_idxOf (key : β → κ) (xs : List β) :
    ((groupBy key xs).map Prod.fst).Pairwise fun k k' =>
      (xs.map key).idxOf k < (xs.map key).idxOf k' := by
  induction xs with
  | nil => exact .nil
  | cons x xs ih =>
    rw [groupBy_cons, takeGroup_snd (groupBy_nodup xs), List.map_cons, List.map_cons]
    have hlater : ∀ {k}, k ≠ key x →
        (key x :: xs.map key).idxOf k = (xs.map key).idxOf k + 1 := fun h =>
      List.idxOf_cons_ne _ h.symm
    have hne : ∀ k ∈ ((groupBy key xs).filter (·.1 != key x)).map Prod.fst, k ≠ key x := by
      intro k hk
      obtain ⟨g, hg, rfl⟩ := List.mem_map.mp hk
      exact bne_iff_ne.mp (List.mem_filter.mp hg).2
    refine List.pairwise_cons.mpr ⟨fun k hk => ?_, ?_⟩
    · rw [List.idxOf_cons_self, hlater (hne k hk)]
      exact Nat.succ_pos _
    · refine (ih.sublist (List.filter_sublist.map _)).imp_of_mem fun {k k'} hk hk' hlt => ?_
      rw [hlater (hne k hk), hlater (hne k' hk')]
      exact Nat.succ_lt_succ hlt

/-- Each group holds the elements of its key in list order. -/
theorem group_eq {xs : List β} : ∀ g ∈ groupBy key xs, g.2 = xs.filter (key · == g.1) := by
  intro g hg
  obtain ⟨front, x, back, rfl, hfront, rfl⟩ := groupBy_splits g hg
  have hnone : front.filter (key · == key x) = [] :=
    List.filter_eq_nil_iff.mpr fun y hy => by simp [hfront y hy]
  simp [hnone]

/-- The keys of a list in order, each once. -/
def groupKeys (before : κ → κ → Bool) (key : β → κ) (xs : List β) : List κ :=
  (sortBy (fun a b => before a.1 b.1) (groupBy key xs)).map Prod.fst

variable {before : κ → κ → Bool}

theorem mem_groupKeys {xs : List β} {k : κ} : k ∈ groupKeys before key xs ↔ k ∈ xs.map key := by
  rw [groupKeys, ((sortBy_perm _ _).map _).mem_iff]
  exact mem_map_fst_groupBy

theorem groupKeys_pairwise (h : IsOrder before) (xs : List β) :
    (groupKeys before key xs).Pairwise fun a b => before a b = true :=
  List.pairwise_map.mpr (sortBy_pairwise h (groupBy_nodup xs))

/-- The keys in order are known from the set of keys. -/
theorem groupKeys_eq_of_mem_iff (h : IsOrder before) {xs ys : List β}
    (hmem : ∀ k, k ∈ xs.map key ↔ k ∈ ys.map key) :
    groupKeys before key xs = groupKeys before key ys :=
  h.eq_of_mem_iff (groupKeys_pairwise h xs) (groupKeys_pairwise h ys)
    fun k => by rw [mem_groupKeys, mem_groupKeys, hmem k]

/-- **Sorted groups**: the keys in order, each with its elements in list order. -/
theorem sorted_groups (before : κ → κ → Bool) (key : β → κ) (xs : List β) :
    sortBy (fun a b => before a.1 b.1) (groupBy key xs)
      = (groupKeys before key xs).map fun k => (k, xs.filter (key · == k)) := by
  rw [groupKeys, List.map_map, eq_comm]
  refine (List.map_congr_left fun g hg => ?_).trans (List.map_id _)
  have hg := (sortBy_perm _ _).mem_iff.mp hg
  exact Prod.ext rfl (group_eq g hg).symm

/-- The elements of all keys are those of the list. -/
theorem flatMap_groupKeys_perm (before : κ → κ → Bool) (key : β → κ) (xs : List β) :
    ((groupKeys before key xs).flatMap fun k => xs.filter (key · == k)).Perm xs := by
  have hsorted := congrArg (List.flatMap Prod.snd) (sorted_groups before key xs)
  rw [List.flatMap_map] at hsorted
  rw [← hsorted]
  exact ((sortBy_perm _ _).flatMap_right _).trans (flatMap_groupBy_perm key xs)

theorem sum_length_groupKeys (before : κ → κ → Bool) (key : β → κ) (xs : List β) :
    ((groupKeys before key xs).map fun k => (xs.filter (key · == k)).length).sum = xs.length := by
  rw [← (flatMap_groupKeys_perm before key xs).length_eq, List.length_flatMap]

theorem groupByText_eq (key : β → String) (xs : List β) :
    groupByText key xs
      = (groupKeys (fun a b => decide (a < b)) key xs).map fun k => (k, xs.filter (key · == k)) :=
  sorted_groups (fun a b => decide (a < b)) key xs

theorem flatMap_groupByText_perm (key : β → String) (xs : List β) :
    ((groupByText key xs).flatMap Prod.snd).Perm xs :=
  ((sortBy_perm _ _).flatMap_right _).trans (flatMap_groupBy_perm key xs)

/-- What is counted group by group is counted once. -/
theorem sum_countP_groupByText (key : β → String) (p : β → Bool) (xs : List β) :
    ((groupByText key xs).map fun g => g.2.countP p).sum = xs.countP p := by
  rw [← (flatMap_groupByText_perm key xs).countP_eq, List.countP_flatMap]
  rfl

/-! ## 5. Lists without repetition -/

theorem nodup_distinct (ks : List κ) : (distinct ks).Nodup := groupBy_nodup ks

theorem mem_distinct {ks : List κ} {k : κ} : k ∈ distinct ks ↔ k ∈ ks := by
  rw [distinct, mem_map_fst_groupBy, List.map_id]

theorem distinct_of_nodup {ks : List κ} (h : ks.Nodup) : distinct ks = ks := by
  have hperm : (distinct ks).Perm ks :=
    (List.perm_ext_iff_of_nodup (nodup_distinct ks) h).mpr fun _ => mem_distinct
  have hsub : (distinct ks).Sublist (ks.map id) := map_fst_groupBy_sublist id ks
  exact (List.map_id ks ▸ hsub).eq_of_length hperm.length_eq

theorem distinct_perm {ks ks' : List κ} (h : ks.Perm ks') : (distinct ks).Perm (distinct ks') :=
  (List.perm_ext_iff_of_nodup (nodup_distinct ks) (nodup_distinct ks')).mpr fun _ => by
    rw [mem_distinct, mem_distinct, h.mem_iff]

/-- **A tally** says of each element how often it occurs. -/
theorem tally_eq (ks : List κ) : tally ks = (distinct ks).map fun k => (k, ks.count k) := by
  rw [tally, distinct, List.map_map]
  refine List.map_congr_left fun g hg => ?_
  have hlength : g.2.length = ks.count g.1 := by
    rw [group_eq g hg, List.count, List.countP_eq_length_filter]
    rfl
  exact Prod.ext rfl hlength

theorem tally_perm {ks ks' : List κ} (h : ks.Perm ks') : (tally ks).Perm (tally ks') := by
  have hcount : (fun k => (k, ks.count k)) = fun k => (k, ks'.count k) :=
    funext fun k => by rw [h.count_eq]
  rw [tally_eq, tally_eq, hcount]
  exact (distinct_perm h).map _

end Groups

/-! ## 6. The greatest of some numbers -/

/-- The greatest of some counts is as great as each of them. -/
theorem le_foldl_max {ns : List Nat} {n : Nat} (h : n ∈ ns) (start : Nat) :
    n ≤ ns.foldl max start := by
  have hstart : ∀ (ns : List Nat) (start : Nat), start ≤ ns.foldl max start := by
    intro ns
    induction ns with
    | nil => exact Nat.le_refl
    | cons m ms ih => exact fun start => (Nat.le_max_left start m).trans (ih _)
  induction ns generalizing start with
  | nil => cases h
  | cons m ms ih =>
    rcases List.mem_cons.mp h with rfl | h
    · exact (Nat.le_max_right start n).trans (hstart ms _)
    · exact ih h _

/-- The greatest of some counts is one of them, or where the search began. -/
theorem foldl_max_mem (ns : List Nat) (start : Nat) :
    ns.foldl max start = start ∨ ns.foldl max start ∈ ns := by
  induction ns generalizing start with
  | nil => exact .inl rfl
  | cons n ns ih =>
    rcases ih (max start n) with h | h
    · rcases Nat.le_total start n with hle | hle
      · exact .inr (List.mem_cons.mpr (.inl (h.trans (Nat.max_eq_right hle))))
      · exact .inl (h.trans (Nat.max_eq_left hle))
    · exact .inr (List.mem_cons_of_mem n h)

end PathAtlas.Order
