/-
# Means of exact fractions

A mean that is kept up to date is rounded at every step when it is kept in binary, and so it is
close to the mean of all values at best.  Over exact fractions it is that mean (`runningMean_eq`),
and then the order of the values has no say in it, and it lies between any bounds of theirs.

The greatest of some values is kept up to date in the same way, and that is exact in any case.

Means are taken in two ways in the library, at once (`mean?`) and as values come (`runningMean`).
Both are compared with `average?`, the sum divided by the count, and so with one another; the
averages of a graph are the first place where that is needed, and those of route groups another.
-/
import Mathlib.Algebra.BigOperators.Group.List.Basic
import Mathlib.Algebra.Order.BigOperators.Group.List
import Mathlib.Algebra.Order.Ring.Rat
import Mathlib.Data.Nat.Cast.Order.Ring
import Mathlib.Data.List.Induction
import PathAtlas.Scalar

namespace PathAtlas.Scalar

/-! ## 1. Means -/

/-- The sum of some values by their number, absent when there are none. -/
def average? (xs : List Rat) : Option Rat := if xs = [] then none else some (xs.sum / xs.length)

theorem extendMean_eq (old : Rat) (n : Nat) (x : Rat) :
    extendMean old (n + 1) x = (old * n + x) / (n + 1) := by
  simp [extendMean, ofNat, ofInt]

theorem average?_eq_none_iff {xs : List Rat} : average? xs = none ↔ xs = [] := by
  simp [average?]

/-- One more value moves the average by its share of the way. -/
theorem average?_concat (xs : List Rat) (x : Rat) :
    average? (xs ++ [x])
      = some (((average? xs).map fun old => extendMean old (xs.length + 1) x).getD x) := by
  unfold average?
  rw [if_neg (by simp)]
  by_cases h : xs = []
  · simp [h]
  · have hlength : (xs.length : Rat) ≠ 0 := by simpa using h
    rw [if_neg h, Option.map_some, Option.getD_some, extendMean_eq, List.sum_append,
      List.length_append, div_mul_cancel₀ _ hlength]
    simp

theorem average?_perm {xs ys : List Rat} (h : xs.Perm ys) : average? xs = average? ys := by
  have hnil : xs = [] ↔ ys = [] := by
    rw [← List.length_eq_zero_iff, h.length_eq, List.length_eq_zero_iff]
  simp only [average?, hnil, h.sum_eq, h.length_eq]

/-- Further values leave a mean where it is when they have the same mean. -/
theorem average?_append_eq_left_iff {xs ys : List Rat} :
    average? (xs ++ ys) = average? xs ↔ ys = [] ∨ average? ys = average? xs := by
  by_cases hys : ys = []
  · simp [hys]
  by_cases hxs : xs = []
  · simp [hxs, hys]
  have hx : (xs.length : Rat) ≠ 0 := by simpa using hxs
  have hy : (ys.length : Rat) ≠ 0 := by simpa using hys
  have hxy : (xs.length : Rat) + ys.length ≠ 0 := by
    exact_mod_cast (Nat.add_pos_left (List.length_pos_of_ne_nil hxs) _).ne'
  simp only [average?, List.append_eq_nil_iff, hxs, hys, and_self, if_false, false_or,
    Option.some.injEq, List.sum_append, List.length_append, Nat.cast_add]
  rw [div_eq_div_iff hxy hx, div_eq_div_iff hy hx, add_mul, mul_add, add_right_inj]

theorem mean?_eq (xs : List Rat) : mean? xs = average? xs := by
  have hsum : sum xs = xs.sum := by
    rw [List.sum_eq_foldl]
    rfl
  unfold mean? average? mean
  rw [hsum]
  cases xs <;> rfl

/-- A mean is not above anything that none of its values is above. -/
theorem average?_le {xs : List Rat} {m b : Rat} (h : average? xs = some m) (hb : ∀ x ∈ xs, x ≤ b) :
    m ≤ b := by
  unfold average? at h
  split at h
  · cases h
  · rename_i hne
    have hlength : (0 : Rat) < xs.length := Nat.cast_pos.mpr (List.length_pos_of_ne_nil hne)
    rw [← Option.some.inj h, div_le_iff₀' hlength, ← nsmul_eq_mul]
    exact List.sum_le_card_nsmul xs b hb

/-- A mean is not below anything that none of its values is below. -/
theorem le_average? {xs : List Rat} {m b : Rat} (h : average? xs = some m) (hb : ∀ x ∈ xs, b ≤ x) :
    b ≤ m := by
  unfold average? at h
  split at h
  · cases h
  · rename_i hne
    have hlength : (0 : Rat) < xs.length := Nat.cast_pos.mpr (List.length_pos_of_ne_nil hne)
    rw [← Option.some.inj h, le_div_iff₀' hlength, ← nsmul_eq_mul]
    exact List.card_nsmul_le_sum xs b hb

/-- **A mean that is kept up to date** is the mean of all values so far. -/
theorem runningMean_eq (xs : List Rat) : runningMean xs = ⟨xs.length, average? xs⟩ := by
  induction xs using List.reverseRecOn with
  | nil => rfl
  | append_singleton xs x ih =>
    rw [runningMean] at ih ⊢
    rw [List.foldl_concat, ih, average?_concat, List.length_append]
    cases average? xs <;> rfl

/-! ## 2. The greatest and the least value -/

theorem larger_eq_max (a b : Rat) : larger a b = max a b := by
  unfold larger
  split
  · rename_i h
    exact (max_eq_right h.le).symm
  · rename_i h
    exact (max_eq_left (not_lt.mp h)).symm

theorem smaller_eq_min (a b : Rat) : smaller a b = min a b := by
  unfold smaller
  split
  · rename_i h
    exact (min_eq_right h.le).symm
  · rename_i h
    exact (min_eq_left (not_lt.mp h)).symm

theorem largest?_eq_max? (xs : List Rat) : largest? xs = xs.max? := by
  cases xs with
  | nil => rfl
  | cons x xs =>
    rw [largest?, List.max?_cons', funext₂ larger_eq_max]

theorem smallest?_eq_min? (xs : List Rat) : smallest? xs = xs.min? := by
  cases xs with
  | nil => rfl
  | cons x xs =>
    rw [smallest?, List.min?_cons', funext₂ smaller_eq_min]

theorem max?_concat (xs : List Rat) (x : Rat) :
    (xs ++ [x]).max? = some ((xs.max?.map fun old => larger old x).getD x) := by
  cases xs with
  | nil => rfl
  | cons y ys =>
    rw [List.cons_append, List.max?_cons', List.max?_cons', List.foldl_concat, Option.map_some,
      Option.getD_some, larger_eq_max]

theorem max?_perm {xs ys : List Rat} (h : xs.Perm ys) : xs.max? = ys.max? := by
  ext m
  simp only [List.max?_eq_some_iff, h.mem_iff]

end PathAtlas.Scalar
