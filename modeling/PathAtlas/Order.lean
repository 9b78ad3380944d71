/-
# Order and grouping

A stable sort by any comparison, sets of texts as sorted lists without repetition, and the
grouping of a list by a key.  A list is sorted by insertion, so that elements which the comparison
does not separate keep the order in which they came.

Quantities that are not numbers are comparable with nothing, and a comparison with such an element
is no order: what a sort makes of it then depends on which elements it compares.  A list with such
quantities is therefore sorted by runs (`Runs.sort`), comparison by comparison, and `ascending` and
`descending` choose between the two by whether all keys are numbers.  Where they are, the two sorts
agree, and the stable one is the one that proofs open.

Groups come in the order in which their keys first occur.  `groupBy` says what they are; `into`
is the step of a loop that finds them, one element at a time, and takes each into the entry of
its key.  A set of texts is kept by text order and so does not depend on arrival.
-/
import PathAtlas.Order.Runs
import PathAtlas.Scalar

namespace PathAtlas.Order

variable {β κ : Type}

/-! ## 1. Stable sorting -/

/-- Puts an element in front of the first one that does not stand strictly before it. -/
def insertBy (before : β → β → Bool) (x : β) : List β → List β
  | [] => [x]
  | y :: ys => if before y x then y :: insertBy before x ys else x :: y :: ys

/-- Sorts a list; what the comparison does not separate keeps its order. -/
def sortBy (before : β → β → Bool) : List β → List β
  | [] => []
  | x :: xs => insertBy before x (sortBy before xs)

theorem insertBy_perm (before : β → β → Bool) (x : β) (ys : List β) :
    (insertBy before x ys).Perm (x :: ys) := by
  induction ys with
  | nil => exact .refl _
  | cons y ys ih =>
    by_cases h : before y x
    · simpa [insertBy, h] using (ih.cons y).trans (.swap x y ys)
    · simp [insertBy, h]

theorem sortBy_perm (before : β → β → Bool) (xs : List β) : (sortBy before xs).Perm xs := by
  induction xs with
  | nil => exact .refl _
  | cons x xs ih => exact (insertBy_perm before x _).trans (ih.cons x)

/-- Sorts by a comparison that is an order where all elements are comparable. -/
def sortAmong (comparable : β → Bool) (before : β → β → Bool) (xs : List β) : List β :=
  if xs.all comparable then sortBy before xs else Runs.sort before xs

theorem sortAmong_perm (comparable : β → Bool) (before : β → β → Bool) (xs : List β) :
    (sortAmong comparable before xs).Perm xs := by
  unfold sortAmong
  split
  · exact sortBy_perm before xs
  · exact Runs.sort_perm before xs

theorem sortAmong_of_all {comparable : β → Bool} {xs : List β} (h : xs.all comparable = true)
    (before : β → β → Bool) : sortAmong comparable before xs = sortBy before xs := if_pos h

section Quantities

variable {α : Type} [Scalar α]

/-- Whether a quantity is a number, which is comparable with itself. -/
def isNumber (x : α) : Bool := x == x

/-- Sorts by a quantity, the least first. -/
def ascending (key : β → α) (xs : List β) : List β :=
  sortAmong (fun a => isNumber (key a)) (fun a b => decide (key a < key b)) xs

/-- Sorts by a quantity, the greatest first.  A list that is sorted by runs is sorted the other
way round, from its last element to its first. -/
def descending (key : β → α) (xs : List β) : List β :=
  if xs.all fun a => isNumber (key a) then sortBy (fun a b => decide (key b < key a)) xs
  else (Runs.sort (fun a b => decide (key a < key b)) xs.reverse).reverse

theorem ascending_perm (key : β → α) (xs : List β) : (ascending key xs).Perm xs :=
  sortAmong_perm _ _ xs

theorem descending_perm (key : β → α) (xs : List β) : (descending key xs).Perm xs := by
  unfold descending
  split
  · exact sortBy_perm _ xs
  · exact (List.reverse_perm _).trans ((Runs.sort_perm _ _).trans (List.reverse_perm xs))

/-- Exact fractions are all numbers. -/
theorem all_isNumber [ReflBEq α] (key : β → α) (xs : List β) :
    (xs.all fun a => isNumber (key a)) = true := by
  simp [isNumber]

theorem descending_eq [ReflBEq α] (key : β → α) (xs : List β) :
    descending key xs = sortBy (fun a b => decide (key b < key a)) xs :=
  if_pos (all_isNumber key xs)

end Quantities

def byText (key : β → String) (xs : List β) : List β :=
  sortBy (fun a b => decide (key a < key b)) xs

/-- Whether one pair of texts stands before another: by the first, then by the second. -/
def pairBefore (a b : String × String) : Bool :=
  decide (a.1 < b.1) || (a.1 == b.1 && decide (a.2 < b.2))

/-! ## 2. Sets of texts -/

/-- Adds a text to a sorted list that lacks it. -/
def insertText (x : String) : List String → List String
  | [] => [x]
  | y :: ys => if x < y then x :: y :: ys else if x = y then y :: ys else y :: insertText x ys

/-- The texts of a list in order, each once. -/
def textSet : List String → List String
  | [] => []
  | x :: xs => insertText x (textSet xs)

/-- A text that is added is there, with those that were there before. -/
theorem mem_insertText {z x : String} {ys : List String} :
    z ∈ insertText x ys ↔ z = x ∨ z ∈ ys := by
  induction ys with
  | nil => simp [insertText]
  | cons y ys ih =>
    by_cases hlt : x < y
    · simp [insertText, hlt]
    · by_cases heq : x = y
      · subst heq
        simp [insertText]
      · simp only [insertText, hlt, heq, if_false, List.mem_cons, ih]
        constructor
        · rintro (h | h | h)
          · exact .inr (.inl h)
          · exact .inl h
          · exact .inr (.inr h)
        · rintro (h | h | h)
          · exact .inr (.inl h)
          · exact .inl h
          · exact .inr (.inr h)

theorem mem_textSet {z : String} {xs : List String} : z ∈ textSet xs ↔ z ∈ xs := by
  induction xs with
  | nil => simp [textSet]
  | cons x xs ih => simp [textSet, mem_insertText, ih]

/-! ## 3. Grouping -/

/-- Takes something into the entry of a key, which is opened when there is none yet. -/
def into {σ : Type} [BEq κ] (k : κ) (opened : σ) (take : σ → σ) : List (κ × σ) → List (κ × σ)
  | [] => [(k, take opened)]
  | (k', s) :: rest => if k' == k then (k', take s) :: rest else (k', s) :: into k opened take rest

/-- Takes the group of a key out of some groups. -/
def takeGroup [BEq κ] (k : κ) : List (κ × List β) → List β × List (κ × List β)
  | [] => ([], [])
  | (k', xs) :: rest =>
    if k' == k then (xs, rest)
    else
      let (found, others) := takeGroup k rest
      (found, (k', xs) :: others)

/-- The elements of a list by key.  Groups come in the order of their first elements, and each
keeps the order of the list. -/
def groupBy [BEq κ] (key : β → κ) : List β → List (κ × List β)
  | [] => []
  | x :: xs =>
    let (found, others) := takeGroup (key x) (groupBy key xs)
    (key x, x :: found) :: others

/-- The elements of a list by a text, the groups in the order of their texts. -/
def groupByText (key : β → String) (xs : List β) : List (String × List β) :=
  byText Prod.fst (groupBy key xs)

/-- Each element of a list once, at its first place. -/
def distinct [BEq β] (xs : List β) : List β := (groupBy id xs).map Prod.fst

def tally [BEq β] (xs : List β) : List (β × Nat) :=
  (groupBy id xs).map fun (x, copies) => (x, copies.length)

/-- The most frequent element of a list, the first one among equals. -/
def mostFrequent? [BEq β] (xs : List β) : Option β :=
  ((tally xs).foldl (fun best entry =>
    match best with
    | none => some entry
    | some b => if b.2 < entry.2 then some entry else some b) none).map Prod.fst

end PathAtlas.Order
