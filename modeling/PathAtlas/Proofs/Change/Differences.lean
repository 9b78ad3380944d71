/-
# Differences step by step

Both routes are marked by one rule (`Became`): what became of an address is told by where the OTHER
route has it, at the same place, at none, or at other places only.  These three leave nothing out
and exclude each other (`existsUnique_became`), also for addresses that a route has more than once,
as it has the wildcard.  So a comparison tells for each place what both routes have there and what
became of it (`compares_diffAt`), and the two routes can be read off it.

The rule does not prefer a route.  Comparing the other way round gives the same comparison with its
sides exchanged, where what was removed counts as added (`diff_mirror`).
-/
import Mathlib.Data.List.Basic
import PathAtlas.Change.Diff

namespace PathAtlas.Change

/-! ## 1. What became of an address -/

/-- What became of an address that a route has at a place.  An address that the other route has
nowhere is `gone`. -/
inductive Became (gone : Mark) (other : List String) (i : Nat) (x : String) : Mark → Prop
  | unchanged (same : other[i]? = some x) : Became gone other i x .unchanged
  | gone (absent : x ∉ other) : Became gone other i x gone
  | changed (elsewhere : x ∈ other) (moved : other[i]? ≠ some x) : Became gone other i x .changed

section Rule

variable {gone m : Mark} {other : List String} {i : Nat} {x : String}

theorem became_of_same (h : other[i]? = some x) : Became gone other i x m ↔ m = .unchanged := by
  constructor
  · rintro (_ | absent | ⟨-, moved⟩)
    · rfl
    · exact absurd (List.mem_of_getElem? h) absent
    · exact absurd h moved
  · rintro rfl
    exact .unchanged h

/-- A step that is not at its place has changed when it is elsewhere, and is gone otherwise. -/
theorem became_of_moved (h : other[i]? ≠ some x) :
    Became gone other i x m ↔ m = if other.contains x then .changed else gone := by
  by_cases hx : x ∈ other
  · rw [if_pos (List.contains_iff_mem.mpr hx)]
    constructor
    · rintro (same | absent | _)
      · exact absurd same h
      · exact absurd hx absent
      · rfl
    · rintro rfl
      exact .changed hx h
  · rw [if_neg (mt List.contains_iff_mem.mp hx)]
    constructor
    · rintro (same | _ | ⟨elsewhere, -⟩)
      · exact absurd same h
      · rfl
      · exact absurd elsewhere hx
    · rintro rfl
      exact .gone hx

theorem became_unchanged_iff (hgone : gone ≠ .unchanged) :
    Became gone other i x .unchanged ↔ other[i]? = some x := by
  by_cases h : other[i]? = some x
  · simp [became_of_same h, h]
  · rw [became_of_moved h]
    split <;> simp [h, hgone.symm]

/-- **One thing** became of an address. -/
theorem existsUnique_became (gone : Mark) (other : List String) (i : Nat) (x : String) :
    ∃! m, Became gone other i x m := by
  by_cases h : other[i]? = some x
  · simp only [became_of_same h, existsUnique_eq]
  · simp only [became_of_moved h, existsUnique_eq]

end Rule

/-! ## 2. One place -/

/-- What a comparison of two routes tells of a place. -/
structure Compares (previous current : List String) (i : Nat) (d : StepDiff) : Prop where
  index_eq : d.index = i
  previous_eq : d.previous = previous[i]?
  current_eq : d.current = current[i]?
  previousMark_iff : ∀ m, d.previousMark = some m ↔
    ∃ p, previous[i]? = some p ∧ Became .removed current i p m
  currentMark_iff : ∀ m, d.currentMark = some m ↔
    ∃ c, current[i]? = some c ∧ Became .added previous i c m

/-- **One place** of two routes. -/
theorem compares_diffAt (previous current : List String) (i : Nat) :
    Compares previous current i (diffAt previous current i) := by
  unfold diffAt
  simp only
  split
  · rename_i hsame
    obtain ⟨hsome, hsame⟩ := Bool.and_eq_true_iff.mp hsame
    obtain ⟨x, hp⟩ := Option.isSome_iff_exists.mp hsome
    have hc : current[i]? = some x := (eq_of_beq hsame).symm.trans hp
    refine ⟨rfl, rfl, rfl, fun m => ?_, fun m => ?_⟩
    · simp [hp, became_of_same hc, eq_comm]
    · simp [hc, became_of_same hp, eq_comm]
  · rename_i hmoved
    have hmoved : ∀ x, previous[i]? = some x → current[i]? ≠ some x := by
      intro x hp hc
      simp [hp, hc] at hmoved
    refine ⟨rfl, rfl, rfl, fun m => ?_, fun m => ?_⟩
    · rw [Option.map_eq_some_iff]
      refine exists_congr fun p => and_congr_right fun hp => ?_
      rw [became_of_moved (hmoved p hp), eq_comm, previousMark]
    · rw [Option.map_eq_some_iff]
      refine exists_congr fun c => and_congr_right fun hc => ?_
      rw [became_of_moved fun hp => hmoved c hp hc, eq_comm, currentMark]

/-! ## 3. All places -/

variable {previous current : List String} {i : Nat} {d : StepDiff}

theorem length_diff (previous current : List String) :
    (diff previous current).length = max previous.length current.length := by
  rw [diff, List.length_map, List.length_range]

theorem compares_of_getElem? (h : (diff previous current)[i]? = some d) :
    Compares previous current i d := by
  obtain ⟨hi, hd⟩ := List.getElem?_eq_some_iff.mp h
  have hat : d = diffAt previous current i := by simpa [diff] using hd.symm
  exact hat ▸ compares_diffAt previous current i

/-- A place that one of the routes has is in the comparison. -/
theorem exists_getElem?_diff {x : String} (h : previous[i]? = some x ∨ current[i]? = some x) :
    ∃ d, (diff previous current)[i]? = some d ∧ Compares previous current i d := by
  have hi : i < (diff previous current).length := by
    rw [length_diff]
    rcases h with h | h
    · exact Nat.lt_of_lt_of_le (List.getElem?_eq_some_iff.mp h).1 (Nat.le_max_left _ _)
    · exact Nat.lt_of_lt_of_le (List.getElem?_eq_some_iff.mp h).1 (Nat.le_max_right _ _)
  exact ⟨_, List.getElem?_eq_getElem hi, compares_of_getElem? (List.getElem?_eq_getElem hi)⟩

/-- A list is what is found in it at its places, and at places behind them. -/
theorem filterMap_getElem?_range {β : Type} {xs : List β} {n : Nat} (h : xs.length ≤ n) :
    (List.range n).filterMap (xs[·]?) = xs := by
  induction xs generalizing n with
  | nil => simp
  | cons x xs ih =>
    obtain ⟨n, rfl⟩ := Nat.exists_eq_add_of_lt (Nat.lt_of_lt_of_le (Nat.succ_pos _) h)
    rw [Nat.zero_add] at h ⊢
    rw [List.range_succ_eq_map, List.filterMap_cons, List.filterMap_map]
    simp only [List.getElem?_cons_zero, Function.comp_def, List.getElem?_cons_succ]
    rw [ih (Nat.le_of_succ_le_succ h)]

theorem filterMap_previous_diff (previous current : List String) :
    (diff previous current).filterMap StepDiff.previous = previous := by
  have hat : StepDiff.previous ∘ diffAt previous current = (previous[·]?) :=
    funext fun i => (compares_diffAt previous current i).previous_eq
  rw [diff, List.filterMap_map, hat, filterMap_getElem?_range (Nat.le_max_left _ _)]

theorem filterMap_current_diff (previous current : List String) :
    (diff previous current).filterMap StepDiff.current = current := by
  have hat : StepDiff.current ∘ diffAt previous current = (current[·]?) :=
    funext fun i => (compares_diffAt previous current i).current_eq
  rw [diff, List.filterMap_map, hat, filterMap_getElem?_range (Nat.le_max_right _ _)]

/-! ## 4. The other way round -/

/-- The mark of the same change seen from the other route. -/
def Mark.mirror : Mark → Mark
  | unchanged => unchanged
  | added => removed
  | removed => added
  | changed => changed

/-- The comparison of the same place seen from the other route. -/
def StepDiff.mirror (d : StepDiff) : StepDiff :=
  ⟨d.index, d.current, d.previous, d.currentMark.map Mark.mirror, d.previousMark.map Mark.mirror⟩

theorem mirror_currentMark (previous : List String) (c : String) :
    (currentMark previous c).mirror = previousMark previous c := by
  rw [currentMark, previousMark]
  split <;> rfl

theorem mirror_previousMark (current : List String) (p : String) :
    (previousMark current p).mirror = currentMark current p := by
  rw [currentMark, previousMark]
  split <;> rfl

/-- Looking back, what was added is removed, and what was removed is added. -/
theorem mirror_diffAt (previous current : List String) (i : Nat) :
    (diffAt previous current i).mirror = diffAt current previous i := by
  rw [diffAt, diffAt]
  rcases previous[i]? with _ | p <;> rcases current[i]? with _ | c
  case none.none => rfl
  case none.some =>
    simp [StepDiff.mirror, mirror_currentMark]
  case some.none =>
    simp [StepDiff.mirror, mirror_previousMark]
  case some.some =>
    by_cases h : p = c
    · simp [StepDiff.mirror, Mark.mirror, h]
    · simp [StepDiff.mirror, mirror_currentMark, mirror_previousMark, h, Ne.symm h]

/-- **The other way round** the sides of a comparison are exchanged. -/
theorem diff_mirror (previous current : List String) :
    diff current previous = (diff previous current).map StepDiff.mirror := by
  rw [diff, diff, Nat.max_comm, List.map_map]
  exact List.map_congr_left fun i _ => (mirror_diffAt previous current i).symm

/-! ## 5. Nothing removed, and nothing changed at all -/

/-- Nothing is marked as removed when the current route has all addresses of the previous one. -/
theorem forall_not_removed_iff :
    (∀ d ∈ diff previous current, d.previousMark ≠ some .removed ∧ d.currentMark ≠ some .removed)
      ↔ ∀ p ∈ previous, p ∈ current := by
  constructor
  · intro h p hp
    obtain ⟨i, hi⟩ := List.mem_iff_getElem?.mp hp
    have hthere : previous[i]? = some p ∨ current[i]? = some p := .inl hi
    obtain ⟨d, hd, hcompares⟩ := exists_getElem?_diff hthere
    by_contra habsent
    refine (h d (List.mem_of_getElem? hd)).1 ?_
    exact (hcompares.previousMark_iff _).mpr ⟨p, hi, .gone habsent⟩
  · intro h d hd
    obtain ⟨i, hi⟩ := List.mem_iff_getElem?.mp hd
    have hcompares := compares_of_getElem? hi
    refine ⟨fun hmark => ?_, fun hmark => ?_⟩
    · obtain ⟨p, hp, hbecame⟩ := (hcompares.previousMark_iff _).mp hmark
      cases hbecame with
      | gone absent => exact absent (h p (List.mem_of_getElem? hp))
    · obtain ⟨c, hc, hbecame⟩ := (hcompares.currentMark_iff _).mp hmark
      cases hbecame

/-- A place is unchanged when both routes have the same address there. -/
theorem Compares.unchanged_iff (h : Compares previous current i d) :
    d.previousMark = some .unchanged ∧ d.currentMark = some .unchanged
      ↔ ∃ x, previous[i]? = some x ∧ current[i]? = some x := by
  rw [h.previousMark_iff, h.currentMark_iff]
  simp only [became_unchanged_iff (by decide : Mark.removed ≠ .unchanged),
    became_unchanged_iff (by decide : Mark.added ≠ .unchanged)]
  exact ⟨And.left, fun ⟨x, hp, hc⟩ => ⟨⟨x, hp, hc⟩, x, hc, hp⟩⟩

/-- All steps are unchanged when the routes are the same. -/
theorem forall_unchanged_iff :
    (∀ d ∈ diff previous current,
        d.previousMark = some .unchanged ∧ d.currentMark = some .unchanged)
      ↔ previous = current := by
  constructor
  · intro h
    have hsame : ∀ (i : Nat) (x : String), previous[i]? = some x ∨ current[i]? = some x →
        previous[i]? = current[i]? := by
      intro i x hx
      obtain ⟨d, hd, hcompares⟩ := exists_getElem?_diff hx
      obtain ⟨y, hp, hc⟩ := hcompares.unchanged_iff.mp (h d (List.mem_of_getElem? hd))
      exact hp.trans hc.symm
    refine List.ext_getElem? fun i => ?_
    cases hp : previous[i]? with
    | some x => exact hp ▸ hsame i x (.inl hp)
    | none =>
      cases hc : current[i]? with
      | some x => exact hp ▸ hc ▸ hsame i x (.inr hc)
      | none => rfl
  · rintro rfl d hd
    obtain ⟨i, hi⟩ := List.mem_iff_getElem?.mp hd
    have hlt : i < previous.length := by
      simpa [length_diff] using (List.getElem?_eq_some_iff.mp hi).1
    exact (compares_of_getElem? hi).unchanged_iff.mpr
      ⟨_, List.getElem?_eq_getElem hlt, List.getElem?_eq_getElem hlt⟩

/-! ## 6. Main result -/

/-- **A comparison accounts for both routes.**  It has an entry for every place of the longer route,
in order, and the two routes can be read off it.  Each address of either route has one mark, which
tells whether the other route has it at the same place, nowhere or elsewhere only.  Comparing the
other way round exchanges the sides.  Nothing is removed just when the current route has all
addresses of the previous one, and everything is unchanged just when the routes are the same. -/
theorem diff_accounts_for_routes (previous current : List String) :
    (diff previous current).length = max previous.length current.length ∧
      (∀ i d, (diff previous current)[i]? = some d → Compares previous current i d) ∧
      (∀ gone other i x, ∃! m, Became gone other i x m) ∧
      (diff previous current).filterMap StepDiff.previous = previous ∧
      (diff previous current).filterMap StepDiff.current = current ∧
      diff current previous = (diff previous current).map StepDiff.mirror ∧
      ((∀ d ∈ diff previous current,
          d.previousMark ≠ some .removed ∧ d.currentMark ≠ some .removed)
        ↔ ∀ p ∈ previous, p ∈ current) ∧
      ((∀ d ∈ diff previous current,
          d.previousMark = some .unchanged ∧ d.currentMark = some .unchanged)
        ↔ previous = current) :=
  ⟨length_diff previous current, fun _ _ => compares_of_getElem?, existsUnique_became,
    filterMap_previous_diff previous current, filterMap_current_diff previous current,
    diff_mirror previous current, forall_not_removed_iff, forall_unchanged_iff⟩

end PathAtlas.Change
