/-
# Groups that are put together one element at a time

`Order.groupBy` looks at a whole list.  A program that meets the elements one by one keeps an entry
for each key instead: the first element of a key opens it, and every element is taken into it
(`Order.into`).  Both come to the same.

* `groupBy_concat`:  one more element is taken into the group of its key, or is a group of its own;
* `gather_eq`:       so after a whole list the entries are those of its groups, in the order of the
  groups, and each is what its elements make of the entry that the first of them opened
  (`gathered`).

What an entry is does not matter for this, as long as it is made from the elements of its key alone.
-/
import PathAtlas.Proofs.Order.Agreement

namespace PathAtlas.Order

variable {β κ σ τ : Type}

/-! ## 1. Entries -/

/-- Walks a list and takes each element into the entry of its key. -/
def gather [BEq κ] (key : β → κ) (opened : β → σ) (take : σ → β → σ) (xs : List β) :
    List (κ × σ) :=
  xs.foldl (fun entries x => into (key x) (opened x) (take · x) entries) []

/-- What the elements of one key make of the entry that the first of them opens; the other value
when there is none. -/
def gathered (other : σ) (opened : β → σ) (take : σ → β → σ) : List β → σ
  | [] => other
  | x :: xs => xs.foldl take (take (opened x) x)

/-- More than one element goes on with the entry. -/
theorem gathered_concat (other : σ) (opened : β → σ) (take : σ → β → σ) {xs : List β}
    (h : xs ≠ []) (x : β) :
    gathered other opened take (xs ++ [x]) = take (gathered other opened take xs) x := by
  obtain ⟨first, rest, rfl⟩ := List.exists_cons_of_ne_nil h
  rw [List.cons_append, gathered, gathered, List.foldl_append, List.foldl_cons, List.foldl_nil]

/-- Something that keeps the keys can be done before or after an element is taken in. -/
theorem into_map [BEq κ] {f : κ × τ → σ} {opened : σ} {openedBefore : τ} {take : σ → σ}
    {takeBefore : τ → τ} {k : κ} (entries : List (κ × τ))
    (hnew : take opened = f (k, takeBefore openedBefore))
    (hold : ∀ entry ∈ entries, take (f entry) = f (entry.1, takeBefore entry.2)) :
    into k opened take (entries.map fun entry => (entry.1, f entry))
      = (into k openedBefore takeBefore entries).map fun entry => (entry.1, f entry) := by
  induction entries with
  | nil => rw [List.map_nil, into, into, List.map_singleton, hnew]
  | cons entry entries ih =>
    obtain ⟨hentry, hrest⟩ := List.forall_mem_cons.mp hold
    rw [List.map_cons, into, into]
    split
    · rw [List.map_cons, hentry]
    · rw [List.map_cons, ih hrest]

/-! ## 2. Groups -/

section Groups

variable [BEq κ] [LawfulBEq κ] {key : β → κ}

/-- An element of the group that is taken out comes behind it. -/
theorem takeGroup_into_self (k : κ) (x : β) (groups : List (κ × List β)) :
    takeGroup k (into k [] (· ++ [x]) groups)
      = ((takeGroup k groups).1 ++ [x], (takeGroup k groups).2) := by
  induction groups with
  | nil => simp [into, takeGroup]
  | cons g groups ih =>
    cases hg : g.1 == k with
    | true => simp [into, takeGroup, hg]
    | false => simp [into, takeGroup, hg, ih]

/-- An element of another group comes to those that are left. -/
theorem takeGroup_into_of_ne {k k' : κ} (h : (k' == k) = false) (x : β)
    (groups : List (κ × List β)) :
    takeGroup k (into k' [] (· ++ [x]) groups)
      = ((takeGroup k groups).1, into k' [] (· ++ [x]) (takeGroup k groups).2) := by
  induction groups with
  | nil => simp [into, takeGroup, h]
  | cons g groups ih =>
    cases hg : g.1 == k' with
    | true =>
      have hother : (g.1 == k) = false := (eq_of_beq hg) ▸ h
      simp [into, takeGroup, hg, hother]
    | false =>
      cases hgk : g.1 == k with
      | true => simp [into, takeGroup, hg, hgk]
      | false => simp [into, takeGroup, hg, hgk, ih]

/-- **One more element** is taken into the group of its key. -/
theorem groupBy_concat (key : β → κ) (xs : List β) (x : β) :
    groupBy key (xs ++ [x]) = into (key x) [] (· ++ [x]) (groupBy key xs) := by
  induction xs with
  | nil => rfl
  | cons y ys ih =>
    rw [List.cons_append, groupBy_cons, groupBy_cons, ih]
    cases hkey : key y == key x with
    | true =>
      rw [eq_of_beq hkey, takeGroup_into_self, into, if_pos (beq_self_eq_true _)]
      rfl
    | false =>
      have hother : (key x == key y) = false := BEq.comm.trans hkey
      rw [takeGroup_into_of_ne hother, into, if_neg (by simp [hkey])]

/-- **The entries of a list** are those of its groups. -/
theorem gather_eq (other : σ) (key : β → κ) (opened : β → σ) (take : σ → β → σ) (xs : List β) :
    gather key opened take xs
      = (groupBy key xs).map fun g => (g.1, gathered other opened take g.2) := by
  induction xs using List.reverseRecOn with
  | nil => rfl
  | append_singleton xs x ih =>
    rw [gather, List.foldl_append, List.foldl_cons, List.foldl_nil, ← gather, ih, groupBy_concat]
    refine into_map (groupBy key xs) rfl fun g hg => ?_
    exact (gathered_concat other opened take (group_ne_nil g hg) x).symm

/-- The entries in the order of their keys. -/
theorem sortBy_gather (other : σ) (before : κ → κ → Bool) (key : β → κ) (opened : β → σ)
    (take : σ → β → σ) (xs : List β) :
    sortBy (fun a b => before a.1 b.1) (gather key opened take xs)
      = (groupKeys before key xs).map fun k =>
          (k, gathered other opened take (xs.filter (key · == k))) := by
  rw [gather_eq other, Runs.sortBy_map]
  refine (congrArg _ (sorted_groups before key xs)).trans ?_
  rw [List.map_map]
  rfl

end Groups

end PathAtlas.Order
