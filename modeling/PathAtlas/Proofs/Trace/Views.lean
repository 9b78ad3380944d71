/-
# Views of a trace

Which steps of a trace were answered, and which of them was the last one, is asked in several ways:
of the hops and of the identifiers that stand for them, by a search from either end, by filtering
and by counting.  All of these come to the same steps because an identifier is the wildcard just
when nobody speaks for its hop (`identifier_eq_wildcard_iff`), in whichever way the hop is silent:
without hosts, or with a first host whose address is empty or the wildcard itself.

So there is one set of places (`Path.answered`), which may be read off hops and identifiers alike
(`answered_path`).  Searches end at its least and at its greatest member (`find?_of_isLeast`,
`find?_reverse_of_isGreatest`), and a count is its size (`ncard_places`).  The worst loss is the
only view that compares numbers.  That none is greater needs no more than what holds of floating
point numbers with NaN among them (`largest?_spec`).
-/
import Mathlib.Data.Set.Card
import PathAtlas.Proofs.Order.Descending
import PathAtlas.Trace.Path

namespace PathAtlas

/-! ## 1. Places in a list -/

section Places

variable {β γ : Type} {p : β → Bool} {xs : List β} {i : Nat}

/-- The places of a list at which there is an element of a kind. -/
def places (p : β → Bool) (xs : List β) : Set Nat := {i | ∃ x ∈ xs[i]?, p x = true}

theorem places_map (f : γ → β) (ys : List γ) : places p (ys.map f) = places (p ∘ f) ys := by
  ext i
  simp [places]

theorem coe_findIdxs (p : β → Bool) (xs : List β) :
    ((xs.findIdxs p).toFinset : Set Nat) = places p xs := by
  ext i
  simp [places, List.getElem?_eq_some_iff]

theorem ncard_places (p : β → Bool) (xs : List β) : (places p xs).ncard = xs.countP p := by
  rw [← coe_findIdxs, Set.ncard_coe_finset, List.toFinset_card_of_nodup List.nodup_findIdxs,
    List.length_findIdxs]

theorem places_eq_empty_iff : places p xs = ∅ ↔ ∀ x ∈ xs, p x = false := by
  rw [Set.eq_empty_iff_forall_notMem]
  constructor
  · intro h x hx
    obtain ⟨i, hi⟩ := List.getElem?_of_mem hx
    exact Bool.eq_false_of_not_eq_true fun hp => h i ⟨x, hi, hp⟩
  · rintro h i ⟨x, hx, hp⟩
    exact absurd hp (by simp [h x (List.mem_of_getElem? hx)])

theorem exists_ends (h : places p xs ≠ ∅) :
    ∃ first last, IsLeast (places p xs) first ∧ IsGreatest (places p xs) last := by
  rw [← coe_findIdxs] at h ⊢
  have hne : (xs.findIdxs p).toFinset.Nonempty :=
    Finset.coe_nonempty.mp (Set.nonempty_iff_ne_empty.mpr h)
  exact ⟨_, _, Finset.isLeast_min' _ hne, Finset.isGreatest_max' _ hne⟩

/-- A search from the front ends at the least place. -/
theorem find?_of_isLeast (h : IsLeast (places p xs) i) : xs.find? p = xs[i]? := by
  obtain ⟨⟨x, hx, hp⟩, hleast⟩ := h
  obtain ⟨hi, rfl⟩ := List.getElem?_eq_some_iff.mp hx
  rw [hx, List.find?_eq_some_iff_getElem]
  refine ⟨hp, i, hi, rfl, fun j hj => ?_⟩
  rw [Bool.not_eq_true', ← Bool.not_eq_true]
  intro hpj
  have hle : i ≤ j := hleast ⟨_, List.getElem?_eq_getElem (hj.trans hi), hpj⟩
  omega

/-- A search from the back ends at the greatest place. -/
theorem find?_reverse_of_isGreatest (h : IsGreatest (places p xs) i) :
    xs.reverse.find? p = xs[i]? := by
  obtain ⟨⟨x, hx, hp⟩, hgreatest⟩ := h
  obtain ⟨hi, rfl⟩ := List.getElem?_eq_some_iff.mp hx
  rw [hx, List.find?_eq_some_iff_getElem]
  refine ⟨hp, xs.length - 1 - i, by rw [List.length_reverse]; omega, ?_, fun j hj => ?_⟩
  · simp only [List.getElem_reverse]
    congr 1
    omega
  · rw [List.getElem_reverse, Bool.not_eq_true', ← Bool.not_eq_true]
    intro hpj
    have hle : xs.length - 1 - j ≤ i := hgreatest ⟨_, List.getElem?_eq_getElem (by omega), hpj⟩
    omega

/-- A search through numbers from the greatest down. -/
theorem find?_reverse_range {n : Nat} {q : Nat → Bool} :
    (List.range n).reverse.find? q = some i ↔ IsGreatest {j | j < n ∧ q j = true} i := by
  induction n with
  | zero => simp [IsGreatest]
  | succ n ih =>
    rw [List.range_succ, List.reverse_concat, List.find?_cons]
    cases hq : q n with
    | true =>
      have hn : IsGreatest {j | j < n + 1 ∧ q j = true} n :=
        ⟨⟨n.lt_succ_self, hq⟩, fun j hj => Nat.le_of_lt_succ hj.1⟩
      exact ⟨fun h => Option.some.inj h ▸ hn, fun h => congrArg some (hn.unique h)⟩
    | false =>
      have hsame : {j | j < n + 1 ∧ q j = true} = {j | j < n ∧ q j = true} := by
        ext j
        refine and_congr_left fun hj => ?_
        have hne : j ≠ n := fun h => by simp [← h, hj] at hq
        omega
      rw [ih, hsame]

end Places

/-! ## 2. The greatest number -/

section Numbers

variable {α : Type} [Scalar α]

theorem exists_largest? {xs : List α} (h : xs ≠ []) : ∃ m, Scalar.largest? xs = some m := by
  cases xs with
  | nil => exact absurd rfl h
  | cons x xs => exact ⟨_, rfl⟩

/-- **The greatest** of some numbers is one of them, and none is greater. -/
theorem largest?_spec (h : Order.Comparable α) {xs : List α} {m : α}
    (hm : Scalar.largest? xs = some m) : m ∈ xs ∧ ∀ x ∈ xs, ¬ m < x := by
  cases xs with
  | nil => cases hm
  | cons y ys =>
    obtain rfl := Option.some.inj hm
    clear hm
    induction ys using List.reverseRecOn with
    | nil =>
      refine ⟨List.mem_cons_self, fun x hx => ?_⟩
      rw [List.mem_singleton.mp hx]
      exact fun hlt => h.asymm hlt hlt
    | append_singleton ys z ih =>
      obtain ⟨hmem, hbest⟩ := ih
      rw [List.foldl_concat, Scalar.larger]
      split
      · rename_i hlt
        refine ⟨by simp, fun x hx hzx => ?_⟩
        rw [← List.cons_append, List.mem_append, List.mem_singleton] at hx
        rcases hx with hx | rfl
        -- what is greater than the last one is greater than the best so far
        · rcases h.between hzx (h.number hlt).1 with hback | hon
          · exact h.asymm hlt hback
          · exact hbest x hx hon
        · exact h.asymm hzx hzx
      · rename_i hnot
        refine ⟨List.mem_append_left [z] hmem, fun x hx => ?_⟩
        rw [← List.cons_append, List.mem_append, List.mem_singleton] at hx
        rcases hx with hx | rfl
        · exact hbest x hx
        · exact hnot

end Numbers

/-! ## 3. Hops and their identifiers -/

variable {α : Type}

namespace Hop

variable {hop : Hop α} {host : Host}

theorem address_of_responder (h : hop.responder = some host) :
    host.address ≠ "" ∧ host.address ≠ wildcard := by
  obtain ⟨-, h⟩ := Option.filter_eq_some_iff.mp h
  simpa [answers] using h

/-- **The wildcard** stands for the hops that nobody speaks for, and for no others. -/
theorem identifier_eq_wildcard_iff : hop.identifier = wildcard ↔ hop.responder = none := by
  rw [identifier, address]
  cases h : hop.responder with
  | none => exact iff_of_true rfl rfl
  | some host => exact iff_of_false (address_of_responder h).2 (Option.some_ne_none host)

theorem identifier_ne_wildcard (hop : Hop α) :
    decide (hop.identifier ≠ wildcard) = hop.responds := by
  rw [responds, Bool.eq_iff_iff, decide_eq_true_iff, Ne, identifier_eq_wildcard_iff,
    Option.isSome_iff_ne_none]

end Hop

/-- What a path tells of the hop at some place.  One that nobody speaks for has the wildcard for an
identifier, and neither name nor latency. -/
structure Path.Tells (path : Path α) (i : Nat) (hop : Hop α) : Prop where
  silent : path.identifiers[i]? = some wildcard ↔ hop.responder = none
  unspoken : hop.responder = none →
    path.names[i]? = some Json.null ∧ path.latencies[i]? = some none
  spoken : ∀ host : Host, hop.responder = some host →
    path.identifiers[i]? = some host.address ∧ path.latencies[i]? = some hop.average ∧
      path.names[i]? = some (if host.name.isPresent then host.name else Json.null)
  loss : path.losses[i]? = some hop.loss

/-- A path made from some hops: it has one entry of each kind for every hop. -/
structure Path.Resolves (path : Path α) (hops : List (Hop α)) : Prop where
  identifiers : path.identifiers.length = hops.length
  names : path.names.length = hops.length
  latencies : path.latencies.length = hops.length
  losses : path.losses.length = hops.length
  tells : ∀ i hop, hops[i]? = some hop → path.Tells i hop

/-- The path of some hops resolves them. -/
theorem Path.resolves_ofHops (hops : List (Hop α)) : (Path.ofHops hops).Resolves hops where
  identifiers := List.length_map _
  names := List.length_map _
  latencies := List.length_map _
  losses := List.length_map _
  tells i hop hhop :=
    { silent := by
        simp only [Path.ofHops, List.getElem?_map, hhop, Option.map_some, Option.some.injEq]
        exact Hop.identifier_eq_wildcard_iff
      unspoken := fun hnone => by
        simp [Path.ofHops, hhop, Hop.name, Hop.latency, Hop.responds, hnone]
      spoken := fun host hhost => by
        simp [Path.ofHops, hhop, Hop.identifier, Hop.address, Hop.name, Hop.latency, Hop.responds,
          hhost]
      loss := by simp [Path.ofHops, hhop] }

/-! ## 4. Answered steps -/

/-- The places of the steps of a path that were answered. -/
def Path.answered (path : Path α) : Set Nat :=
  {i | ∃ identifier ∈ path.identifiers[i]?, identifier ≠ wildcard}

namespace Path

variable {path : Path α} {i : Nat}

theorem answered_eq_places (path : Path α) :
    path.answered = places (fun identifier => decide (identifier ≠ wildcard)) path.identifiers := by
  ext i
  simp [answered, places]

theorem respondingCount_eq (path : Path α) : path.respondingCount = path.answered.ncard := by
  rw [answered_eq_places, ncard_places, respondingCount]

/-- The last step that answered, told by its place. -/
theorem lastRespondingIndex_eq_some_iff :
    path.lastRespondingIndex = some i ↔ IsGreatest path.answered i := by
  have hsame : {j | j < path.length ∧ (path.identifiers[j]? != some wildcard) = true}
      = path.answered := by
    ext j
    simp only [length, answered, Set.mem_ofPred_eq, Option.mem_def]
    constructor
    · rintro ⟨hj, hne⟩
      exact ⟨_, List.getElem?_eq_getElem hj, by simpa [List.getElem?_eq_getElem hj] using hne⟩
    · rintro ⟨identifier, hidentifier, hne⟩
      exact ⟨(List.getElem?_eq_some_iff.mp hidentifier).1, by simpa [hidentifier] using hne⟩
  rw [lastRespondingIndex, find?_reverse_range, hsame]

end Path

namespace Trace

variable {trace : Trace α} {i : Nat}

/-- **The answered steps** may be read off the hops as well. -/
theorem answered_path (trace : Trace α) : trace.path.answered = places Hop.responds trace.hops := by
  rw [Path.answered_eq_places, ← funext Hop.identifier_ne_wildcard]
  exact places_map _ _

theorem firstAddress_path (h : IsLeast trace.path.answered i) :
    trace.path.firstAddress = trace.path.identifiers[i]? := by
  rw [Path.answered_eq_places] at h
  exact List.head?_filter.trans (find?_of_isLeast h)

theorem lastAddress_path (h : IsGreatest trace.path.answered i) :
    trace.path.lastAddress = trace.path.identifiers[i]? := by
  rw [Path.answered_eq_places] at h
  exact List.getLast?_filter.trans (find?_reverse_of_isGreatest h)

theorem latencies_path (h : IsGreatest trace.path.answered i) :
    trace.path.latencies[i]? = some trace.endLatency := by
  rw [answered_path] at h
  obtain ⟨hop, hhop, hresponds⟩ := h.1
  rw [Option.mem_def] at hhop
  rw [endLatency, find?_reverse_of_isGreatest h, hhop]
  simp [path, Path.ofHops, hhop, Hop.latency, hresponds]

theorem losses_path {hop : Hop α} (h : trace.hops[i]? = some hop) :
    trace.path.losses[i]? = some hop.loss :=
  ((Path.resolves_ofHops trace.hops).tells i hop h).loss

/-- The losses of the hops that answered are those at the answered places. -/
theorem mem_losses_iff {loss : α} : loss ∈ (trace.hops.filter Hop.responds).map Hop.loss ↔
    ∃ i ∈ trace.path.answered, trace.path.losses[i]? = some loss := by
  rw [answered_path, List.mem_map]
  constructor
  · rintro ⟨hop, hhop, rfl⟩
    obtain ⟨hhop, hresponds⟩ := List.mem_filter.mp hhop
    obtain ⟨i, hi⟩ := List.getElem?_of_mem hhop
    exact ⟨i, ⟨hop, hi, hresponds⟩, losses_path hi⟩
  · rintro ⟨i, ⟨hop, hhop, hresponds⟩, hloss⟩
    exact ⟨hop, List.mem_filter.mpr ⟨List.mem_of_getElem? hhop, hresponds⟩,
      Option.some.inj ((losses_path hhop).symm.trans hloss)⟩

variable [Scalar α]

/-- **The worst loss** is that of an answered step, and no answered step lost more. -/
theorem maxRespondingLoss_spec (h : Order.Comparable α) (hheard : trace.path.answered ≠ ∅) :
    (∃ i ∈ trace.path.answered, trace.path.losses[i]? = some trace.maxRespondingLoss) ∧
      ∀ i ∈ trace.path.answered, ∀ loss ∈ trace.path.losses[i]?,
        ¬ trace.maxRespondingLoss < loss := by
  obtain ⟨i, hi⟩ := Set.nonempty_iff_ne_empty.mpr hheard
  obtain ⟨hop, hhop, -⟩ : i ∈ places Hop.responds trace.hops := answered_path trace ▸ hi
  have hmem := mem_losses_iff.mpr ⟨i, hi, losses_path hhop⟩
  obtain ⟨m, hm⟩ := exists_largest? (List.ne_nil_of_mem hmem)
  obtain ⟨hworst, hnone⟩ := largest?_spec h hm
  rw [maxRespondingLoss, hm, Option.getD_some]
  refine ⟨mem_losses_iff.mp hworst, fun j hj loss hloss => ?_⟩
  exact hnone loss (mem_losses_iff.mpr ⟨j, hj, hloss⟩)

/-! ## 5. Main result -/

/-- Nobody answered, and no view names a step. -/
structure Unheard (trace : Trace α) : Prop where
  answered : trace.path.answered = ∅
  lastIndex : trace.path.lastRespondingIndex = none
  firstAddress : trace.path.firstAddress = none
  lastAddress : trace.path.lastAddress = none
  endLatency : trace.endLatency = none
  worstLoss : trace.maxRespondingLoss = Scalar.zero

/-- The first and the last step that were answered are the ones at the places `first` and `last`,
and so they are for every view. -/
structure Heard (trace : Trace α) (first last : Nat) : Prop where
  least : IsLeast trace.path.answered first
  greatest : IsGreatest trace.path.answered last
  lastIndex : trace.path.lastRespondingIndex = some last
  firstAddress : trace.path.firstAddress = trace.path.identifiers[first]?
  lastAddress : trace.path.lastAddress = trace.path.identifiers[last]?
  endLatency : trace.path.latencies[last]? = some trace.endLatency
  worstLoss : ∃ i ∈ trace.path.answered, trace.path.losses[i]? = some trace.maxRespondingLoss
  noneWorse : ∀ i ∈ trace.path.answered, ∀ loss ∈ trace.path.losses[i]?,
    ¬ trace.maxRespondingLoss < loss

/-- Without an answer no view names a step. -/
theorem unheard_of_answered (h : trace.path.answered = ∅) : trace.Unheard where
  answered := h
  lastIndex := by
    refine Option.eq_none_iff_forall_ne_some.mpr fun i hi => ?_
    have hmem := (Path.lastRespondingIndex_eq_some_iff.mp hi).1
    simp [h] at hmem
  firstAddress := by
    rw [Path.answered_eq_places, places_eq_empty_iff] at h
    exact List.head?_filter.trans (List.find?_eq_none.mpr fun x hx => by simp [h x hx])
  lastAddress := by
    rw [Path.answered_eq_places, places_eq_empty_iff] at h
    refine List.getLast?_filter.trans (List.find?_eq_none.mpr fun x hx => ?_)
    simp [h x (List.mem_reverse.mp hx)]
  endLatency := by
    rw [answered_path, places_eq_empty_iff] at h
    rw [Trace.endLatency, List.find?_eq_none.mpr fun hop hhop => ?_, Option.bind_none]
    simp [h hop (List.mem_reverse.mp hhop)]
  worstLoss := by
    rw [answered_path, places_eq_empty_iff] at h
    rw [maxRespondingLoss, List.filter_eq_nil_iff.mpr fun hop hhop => by simp [h hop hhop]]
    rfl

/-- With an answer all views are known from the first and the last step that answered. -/
theorem heard_of_ends (h : Order.Comparable α) {first last : Nat}
    (hfirst : IsLeast trace.path.answered first) (hlast : IsGreatest trace.path.answered last) :
    trace.Heard first last where
  least := hfirst
  greatest := hlast
  lastIndex := Path.lastRespondingIndex_eq_some_iff.mpr hlast
  firstAddress := firstAddress_path hfirst
  lastAddress := lastAddress_path hlast
  endLatency := latencies_path hlast
  worstLoss := (maxRespondingLoss_spec h hfirst.nonempty.ne_empty).1
  noneWorse := (maxRespondingLoss_spec h hfirst.nonempty.ne_empty).2

theorem unheard_or_heard (h : Order.Comparable α) (trace : Trace α) :
    trace.Unheard ∨ ∃ first last, trace.Heard first last := by
  by_cases hheard : trace.path.answered = ∅
  · exact .inl (unheard_of_answered hheard)
  · have hends := hheard
    rw [Path.answered_eq_places] at hends
    obtain ⟨first, last, hfirst, hlast⟩ := exists_ends hends
    rw [← Path.answered_eq_places] at hfirst hlast
    exact .inr ⟨first, last, heard_of_ends h hfirst hlast⟩

/-- **All views of a trace** name the same steps.  Its path has one entry of each kind for every
hop, with the wildcard just where nobody spoke for the hop, and counts the answered steps.  Either
there is none of these, or the address that comes first is that of the first of them, the last
place, the last address and the latency of the end are those of the last one, and the worst loss is
the greatest that any of them had. -/
theorem views_agree (trace : Trace Float) :
    trace.path.Resolves trace.hops ∧
      trace.path.respondingCount = trace.path.answered.ncard ∧
      (trace.Unheard ∨ ∃ first last, trace.Heard first last) :=
  ⟨Path.resolves_ofHops trace.hops, Path.respondingCount_eq trace.path,
    unheard_or_heard Order.comparable_float trace⟩

end Trace

end PathAtlas
