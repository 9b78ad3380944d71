/-
# The greatest first

A list is sorted by a quantity, the greatest first, by insertion when all quantities are numbers,
and else by runs.  Numbers are comparable with each other, and what is no number is comparable with
nothing (`Comparable`), so in general such a sort leaves no order behind.  But a sort only asks
whether an element belongs before one that is ahead of it.  When whatever is no number stands at the
end of the list, each of these questions is answered as if it were the least of all, and it stays at
the end (`descending_eq_sortBy`).  The elements of any kind then come out as they would come out by
themselves (`filter_descending`).
-/
import PathAtlas.Proofs.Decimal.Numbers
import PathAtlas.Proofs.Order.Agreement

namespace PathAtlas.Order

/-! ## 1. Numbers -/

/-- Numbers stand in one order, and nothing else is comparable. -/
structure Comparable (α : Type) [Scalar α] : Prop where
  number : ∀ {x y : α}, x < y → isNumber x = true ∧ isNumber y = true
  asymm : ∀ {x y : α}, x < y → ¬ y < x
  between : ∀ {x y z : α}, x < z → isNumber y = true → x < y ∨ y < z

theorem comparable_rat : Comparable Rat where
  number _ := ⟨beq_self_eq_true _, beq_self_eq_true _⟩
  asymm := lt_asymm
  between {x y _} hxz _ := (lt_or_ge x y).imp_right fun hyx => lt_of_le_of_lt hyx hxz

/-- Floats that are numbers can be compared. -/
theorem comparable_float : Comparable Float where
  number h := by
    obtain ⟨hx, hy⟩ := Decimal.isNaN_of_lt h
    rw [Decimal.isNumber_eq, Decimal.isNumber_eq, hx, hy]
    exact ⟨rfl, rfl⟩
  asymm h := by
    obtain ⟨hx, hy⟩ := Decimal.isNaN_of_lt h
    rw [Decimal.lt_iff_place_lt hx hy] at h
    rw [Decimal.lt_iff_place_lt hy hx]
    exact lt_asymm h
  between h hy := Decimal.lt_or_lt h (by rwa [Decimal.isNumber_eq, Bool.not_eq_true'] at hy)

/-! ## 2. Sorting -/

section Sorting

variable {α β : Type} [Scalar α] {key : β → α} {xs : List β}

/-- Whether an element has a greater number than another one, or the only number. -/
def greaterFirst (key : β → α) (a b : β) : Bool :=
  isNumber (key a) && (!isNumber (key b) || decide (key b < key a))

/-- The greatest first is a ranking where numbers can be compared. -/
theorem ranks_greaterFirst (h : Comparable α) (key : β → α) (xs : List β) :
    Ranks (greaterFirst key) xs where
  asymm a _ b _ hab := by
    simp only [greaterFirst, Bool.and_eq_true, Bool.or_eq_true, Bool.not_eq_true',
      decide_eq_true_eq] at hab
    obtain ⟨ha, hb | hba⟩ := hab
    · simp [greaterFirst, hb]
    · simp [greaterFirst, ha, h.asymm hba]
  between a _ b _ c _ hac := by
    simp only [greaterFirst, Bool.and_eq_true, Bool.or_eq_true, Bool.not_eq_true',
      decide_eq_true_eq] at hac ⊢
    obtain ⟨ha, hc⟩ := hac
    cases hb : isNumber (key b) with
    | false => exact .inl ⟨ha, .inl rfl⟩
    | true =>
      rcases hc with hc | hca
      · exact .inr ⟨rfl, .inl hc⟩
      · rcases h.between hca hb with hcb | hba
        · exact .inr ⟨rfl, .inr hcb⟩
        · exact .inl ⟨ha, .inr hba⟩

/-- Whatever is no number stands behind all numbers. -/
def NumbersFirst (key : β → α) (xs : List β) : Prop :=
  xs.Pairwise fun a b => isNumber (key b) = true → isNumber (key a) = true

/-- Among numbers the greater one stands before the other. -/
theorem greaterFirst_eq {a b : β} (ha : isNumber (key a) = true) (hb : isNumber (key b) = true) :
    greaterFirst key a b = decide (key b < key a) := by
  simp [greaterFirst, ha, hb]

/-- **Sorting with the greatest first** is sorting by insertion when all numbers stand first. -/
theorem descending_eq_sortBy (h : Comparable α) (hfirst : NumbersFirst key xs) :
    descending key xs = sortBy (greaterFirst key) xs := by
  unfold descending
  split
  · rename_i hall
    have hnumber := List.all_eq_true.mp hall
    have hranks : Ranks (fun a b => decide (key b < key a)) xs :=
      { asymm := fun a _ b _ hab => decide_eq_false (h.asymm (of_decide_eq_true hab))
        between := fun a _ b hb c _ hac => by
          simp only [decide_eq_true_eq] at hac ⊢
          exact (h.between hac (hnumber b hb)).symm }
    -- sorting by runs asks both comparisons the same questions
    rw [← Runs.sort_eq_sortBy hranks (List.pairwise_of_forall fun _ _ => rfl)]
    refine Runs.sort_eq_sortBy_of_ranks (ranks_greaterFirst h key) ?_
    exact List.pairwise_of_forall_mem_list fun a ha b hb =>
      (greaterFirst_eq (hnumber b hb) (hnumber a ha)).symm
  · rw [← Runs.reverse_sortBy_reverse (ranks_greaterFirst h key xs)]
    congr 1
    refine Runs.sort_eq_sortBy_of_ranks (fun xs => (ranks_greaterFirst h key xs).flip)
      (List.pairwise_reverse.mpr (hfirst.imp fun {a b} hab => ?_))
    cases hb : isNumber (key b) with
    | true => exact (greaterFirst_eq hb (hab hb)).symm ▸ rfl
    | false =>
      have hlt : ¬ key a < key b := fun hlt => by simp [(h.number hlt).2] at hb
      simp [greaterFirst, hb, hlt]

/-- **The elements of any kind** come out in the order in which they come out by themselves. -/
theorem filter_descending (h : Comparable α) (hfirst : NumbersFirst key xs) (p : β → Bool) :
    (descending key xs).filter p = descending key (xs.filter p) := by
  rw [descending_eq_sortBy h hfirst, descending_eq_sortBy h (hfirst.filter p),
    filter_sortBy (ranks_greaterFirst h key xs)]

end Sorting

end PathAtlas.Order
