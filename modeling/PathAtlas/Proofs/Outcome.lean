/-
# Outcomes

A computation over `Except Fault` either gives a value or ends with a fault, and a chain of them
ends with the first fault.  The lemmas here peel a chain apart without opening it: `Fails` says
THAT a computation ends with a fault and leaves open with which, and every way of composing
computations has one law for success and one for failure.

The laws of success (`bind_eq_ok`, `map_eq_ok`, `mapM_eq_ok`) turn a chain that has succeeded into
the values of its links.  The law of failure asks the later links only about what the earlier one
can give (`fails_bind_of_forall`), so that a condition on documents is found link by link, in the
order in which they are read.  With both, a function over `Except` is never unfolded twice.
-/
import Mathlib.Data.List.Forall2
import PathAtlas.Fault

namespace PathAtlas

variable {β γ : Type}

/-! ## 1. Failing -/

/-- The computation ends with some fault. -/
def Fails (r : Except Fault β) : Prop := ∃ fault, r = .error fault

@[simp] theorem fails_error (fault : Fault) : Fails (.error fault : Except Fault β) :=
  ⟨fault, rfl⟩

@[simp] theorem not_fails_ok (b : β) : ¬ Fails (.ok b) := by
  rintro ⟨fault, h⟩
  cases h

@[simp] theorem not_fails_pure (b : β) : ¬ Fails (pure b) := not_fails_ok b

theorem not_fails_iff {r : Except Fault β} : ¬ Fails r ↔ ∃ b, r = .ok b := by
  cases r with
  | error fault => simp
  | ok b => simp

/-- A computation of which something can be checked gives a value. -/
theorem exists_of_any {r : Except Fault β} {p : β → Bool} (h : r.toOption.any p = true) :
    ∃ b, r = .ok b ∧ p b = true := by
  cases r with
  | error fault => cases h
  | ok b => exact ⟨b, rfl, h⟩

/-! ## 2. Chains -/

theorem bind_eq_ok {r : Except Fault β} {f : β → Except Fault γ} {c : γ} :
    (r >>= f) = .ok c ↔ ∃ b, r = .ok b ∧ f b = .ok c := by
  cases r <;> simp [bind, Except.bind]

@[simp] theorem fails_bind {r : Except Fault β} {f : β → Except Fault γ} :
    Fails (r >>= f) ↔ Fails r ∨ ∃ b, r = .ok b ∧ Fails (f b) := by
  cases r with
  | error fault => exact ⟨fun _ => .inl ⟨fault, rfl⟩, fun _ => ⟨fault, rfl⟩⟩
  | ok b =>
    constructor
    · exact fun h => .inr ⟨b, rfl, h⟩
    · rintro (h | ⟨b', h, hf⟩)
      · exact absurd h (not_fails_ok b)
      · cases h
        exact hf

/-- A chain of which the rest fails or not whatever the first part gives. -/
theorem fails_bind_of_forall {r : Except Fault β} {f : β → Except Fault γ} {p : Prop}
    (h : ∀ b, r = .ok b → (Fails (f b) ↔ p)) : Fails (r >>= f) ↔ Fails r ∨ p := by
  rw [fails_bind]
  cases r with
  | error fault => exact iff_of_true (.inl (fails_error fault)) (.inl (fails_error fault))
  | ok b => simp [h b rfl]

theorem map_eq_ok {r : Except Fault β} {f : β → γ} {c : γ} :
    r.map f = .ok c ↔ ∃ b, r = .ok b ∧ f b = c := by
  cases r <;> simp [Except.map]

@[simp] theorem fails_map {r : Except Fault β} {f : β → γ} : Fails (r.map f) ↔ Fails r := by
  cases r with
  | error fault => exact ⟨fun _ => ⟨fault, rfl⟩, fun _ => ⟨fault, rfl⟩⟩
  | ok b => exact ⟨fun h => absurd h (not_fails_ok _), fun h => absurd h (not_fails_ok _)⟩

@[simp] theorem fails_map_fun {r : Except Fault β} {f : β → γ} : Fails (f <$> r) ↔ Fails r :=
  fails_map

/-! ## 3. Traversals -/

/-- A traversal succeeds with one result for each element. -/
theorem mapM_eq_ok {f : β → Except Fault γ} {xs : List β} {ys : List γ} :
    xs.mapM f = .ok ys ↔ List.Forall₂ (fun x y => f x = .ok y) xs ys := by
  induction xs generalizing ys with
  | nil =>
    simp only [List.mapM_nil, List.forall₂_nil_left_iff]
    exact ⟨fun h => (Except.ok.inj h).symm, fun h => h ▸ rfl⟩
  | cons x xs ih =>
    rw [List.mapM_cons, bind_eq_ok, List.forall₂_cons_left_iff]
    constructor
    · rintro ⟨y, hy, h⟩
      obtain ⟨ys', hys, h⟩ := bind_eq_ok.mp h
      exact ⟨y, ys', hy, ih.mp hys, (Except.ok.inj h).symm⟩
    · rintro ⟨y, ys', hy, hys, rfl⟩
      exact ⟨y, hy, bind_eq_ok.mpr ⟨ys', ih.mpr hys, rfl⟩⟩

/-- A traversal keeps of a list what it keeps of each element. -/
theorem map_eq_of_mapM {δ : Type} {f : β → Except Fault γ} {observe : β → δ} {observe' : γ → δ}
    (hf : ∀ x y, f x = .ok y → observe' y = observe x) {xs : List β} {ys : List γ}
    (h : xs.mapM f = .ok ys) : ys.map observe' = xs.map observe := by
  replace h := mapM_eq_ok.mp h
  induction h with
  | nil => rfl
  | cons hxy _ ih => rw [List.map_cons, List.map_cons, hf _ _ hxy, ih]

/-- Every result of a traversal is that of some element. -/
theorem mem_of_mapM {f : β → Except Fault γ} {xs : List β} {ys : List γ} (h : xs.mapM f = .ok ys) :
    ∀ y ∈ ys, ∃ x ∈ xs, f x = .ok y := by
  replace h := mapM_eq_ok.mp h
  induction h with
  | nil => exact fun y hy => nomatch hy
  | @cons x y xs ys hxy _ ih =>
    intro z hz
    rcases List.mem_cons.mp hz with rfl | hz
    · exact ⟨x, List.mem_cons_self, hxy⟩
    · obtain ⟨x', hx', hfx'⟩ := ih z hz
      exact ⟨x', List.mem_cons_of_mem _ hx', hfx'⟩

/-- The results of some kind are those of the elements of that kind. -/
theorem filter_mapM {f : β → Except Fault γ} {p : β → Bool} {q : γ → Bool}
    (hf : ∀ x y, f x = .ok y → q y = p x) {xs : List β} {ys : List γ} (h : xs.mapM f = .ok ys) :
    (xs.filter p).mapM f = .ok (ys.filter q) := by
  replace h := mapM_eq_ok.mp h
  rw [mapM_eq_ok]
  induction h with
  | nil => exact .nil
  | @cons x y xs ys hxy _ ih =>
    have hkind := hf x y hxy
    cases hx : p x with
    | true =>
      rw [List.filter_cons_of_pos hx, List.filter_cons_of_pos (hkind.trans hx)]
      exact .cons hxy ih
    | false =>
      rw [List.filter_cons_of_neg (by simp [hx]), List.filter_cons_of_neg (by simp [hkind, hx])]
      exact ih

/-- A traversal fails when one of its elements does. -/
@[simp] theorem fails_mapM {f : β → Except Fault γ} {xs : List β} :
    Fails (xs.mapM f) ↔ ∃ x ∈ xs, Fails (f x) := by
  induction xs with
  | nil => simp
  | cons x xs ih =>
    rw [List.mapM_cons, fails_bind, List.exists_mem_cons_iff]
    cases hx : f x with
    | error fault => exact ⟨fun _ => .inl ⟨fault, rfl⟩, fun _ => .inl ⟨fault, rfl⟩⟩
    | ok y => simp [ih]

/-- A traversal for its faults alone succeeds when each of its elements does. -/
theorem forM_eq_ok {f : β → Except Fault Unit} {xs : List β} {u : Unit} :
    xs.forM f = .ok u ↔ ∀ x ∈ xs, f x = .ok () := by
  induction xs with
  | nil => simp [pure, Except.pure]
  | cons x xs ih =>
    change (f x >>= fun _ => xs.forM f) = _ ↔ _
    rw [bind_eq_ok, List.forall_mem_cons, ← ih]
    constructor
    · rintro ⟨_, hx, h⟩
      exact ⟨hx, h⟩
    · rintro ⟨hx, h⟩
      exact ⟨(), hx, h⟩

@[simp] theorem fails_forM {f : β → Except Fault Unit} {xs : List β} :
    Fails (xs.forM f) ↔ ∃ x ∈ xs, Fails (f x) := by
  rw [← not_iff_not, not_fails_iff]
  simp only [not_exists, not_and, not_fails_iff]
  constructor
  · rintro ⟨u, h⟩ x hx
    exact ⟨u, forM_eq_ok.mp h x hx⟩
  · intro h
    refine ⟨(), forM_eq_ok.mpr fun x hx => ?_⟩
    obtain ⟨u, hu⟩ := h x hx
    exact hu

end PathAtlas
