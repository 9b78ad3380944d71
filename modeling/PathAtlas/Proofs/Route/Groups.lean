/-
# Route groups

Routes are grouped along a walk through the traces in order of time.  What a group tells is known
from two things: from all traces of its route, which are its members (`Group.Covers`,
`Group.Measures`), and from the place where the route was taken first, which says whether it was a
change (`Group.Opens`).  So the first route of all is no change, and every other one is a change
from the route of the trace right before it.

A detector compares EVERY trace with the one before it.  Where there is only one stream, the trace
that opened a group is among those that it looks at, and both say the same of it
(`groups_divide_timeline`).
-/
import PathAtlas.Proofs.Change.Streams
import PathAtlas.Proofs.Means
import PathAtlas.Proofs.Route.Gatherings

namespace PathAtlas

/-! ## 1. Exact figures -/

/-- What makes the figures of a trace exact: they stand for fractions, and the arithmetic is that of
the fractions. -/
structure Scalar.Exact {α : Type} [Scalar α] (value : α → Rat) : Prop where
  add : ∀ a b : α, value (a + b) = value a + value b
  mul : ∀ a b : α, value (a * b) = value a * value b
  div : ∀ a b : α, value (a / b) = value a / value b
  whole : ∀ n : Int, value (Scalar.ofInt n) = n
  lt_iff : ∀ a b : α, a < b ↔ value a < value b

theorem Scalar.exact_rat : Scalar.Exact (id : Rat → Rat) :=
  ⟨fun _ _ => rfl, fun _ _ => rfl, fun _ _ => rfl, fun _ => rfl, fun _ _ => Iff.rfl⟩

namespace Scalar.Exact

variable {α : Type} [Scalar α] {value : α → Rat} (h : Scalar.Exact value)
include h

theorem extendMean (old : α) (n : Nat) (x : α) :
    value (Scalar.extendMean old n x) = Scalar.extendMean (value old) n (value x) := by
  simp only [Scalar.extendMean, Scalar.ofNat, h.div, h.add, h.mul, h.whole]
  rfl

/-- The mean of exact values is exact. -/
theorem runningMean (xs : List α) :
    (Scalar.runningMean xs).mean.map value = Scalar.average? (xs.map value) := by
  let carry (r : Running α) : Running Rat := ⟨r.count, r.mean.map value⟩
  have hadd : ∀ (r : Running α) (x : α), (carry r).add (value x) = carry (r.add x) := by
    rintro ⟨n, _ | old⟩ x
    · rfl
    · simp only [carry, Running.add, Option.map_some, h.extendMean]
  have hcarry : xs.foldl (fun r x => r.add (value x)) (carry {})
      = carry (xs.foldl Running.add {}) := List.foldl_hom carry hadd
  have hfold : Scalar.runningMean (xs.map value) = carry (Scalar.runningMean xs) := by
    rw [Scalar.runningMean, List.foldl_map]
    exact hcarry
  rw [runningMean_eq] at hfold
  exact (congrArg Running.mean hfold).symm

/-- The sum by the number of summands is exact too. -/
theorem mean (xs : List α) : value (Scalar.mean xs) = (xs.map value).sum / xs.length := by
  have hsum : value (Scalar.sum xs) = (xs.map value).sum := by
    have hfold : xs.foldl (fun s x => s + value x) (value Scalar.zero)
        = value (xs.foldl (· + ·) Scalar.zero) := List.foldl_hom value fun a b => (h.add a b).symm
    rw [List.sum_eq_foldl, List.foldl_map, Scalar.sum, ← hfold, Scalar.zero, h.whole, Int.cast_zero]
  rw [Scalar.mean, h.div, hsum, Scalar.ofNat, h.whole]
  rfl

theorem larger (a b : α) : value (Scalar.larger a b) = max (value a) (value b) := by
  rw [← larger_eq_max]
  simp only [Scalar.larger, h.lt_iff]
  split <;> rfl

theorem foldl_larger (a : α) (xs : List α) :
    value (xs.foldl Scalar.larger a) = (xs.map value).foldl max (value a) := by
  rw [List.foldl_map]
  exact (List.foldl_hom value fun a b => (h.larger a b).symm).symm

/-- The greatest loss of the steps of a trace that answered, nought when none did. -/
theorem maxRespondingLoss (t : Trace α) :
    value t.maxRespondingLoss
      = (((t.hops.filter Hop.responds).map Hop.loss).map value).max?.getD 0 := by
  unfold Trace.maxRespondingLoss
  cases (t.hops.filter Hop.responds).map Hop.loss with
  | nil => exact (h.whole 0).trans Int.cast_zero
  | cons x xs => rw [List.map_cons, List.max?_cons']; exact h.foldl_larger x xs

end Scalar.Exact

/-- The greatest of some greatest values is the greatest of all, over a value that is not below
nought. -/
theorem Scalar.foldl_max_flatMap {β : Type} (values : β → List Rat) (xs : List β) {a : Rat}
    (ha : 0 ≤ a) :
    (xs.map fun x => (values x).max?.getD 0).foldl max a = (xs.flatMap values).foldl max a := by
  induction xs generalizing a with
  | nil => rfl
  | cons x xs ih =>
    have hstep : max a ((values x).max?.getD 0) = (values x).foldl max a := by
      cases values x with
      | nil => exact max_eq_left ha
      | cons y ys =>
        have hassoc : ys.foldl max (max a y) = max a (ys.foldl max y) := List.foldl_assoc
        rw [List.max?_cons', Option.getD_some, List.foldl_cons, hassoc]
    rw [List.map_cons, List.foldl_cons, List.flatMap_cons, List.foldl_append, ← hstep]
    exact ih (ha.trans (le_max_left _ _))

namespace Route

variable {α : Type}

/-! ## 2. Steps -/

theorem map_trace_steps (previous : Option String) (traces : List (Trace α)) :
    (steps previous traces).map Step.trace = traces := by
  induction traces generalizing previous with
  | nil => rfl
  | cons trace traces ih => rw [steps, List.map_cons, ih]

theorem map_signature_steps (previous : Option String) (traces : List (Trace α)) :
    (steps previous traces).map (fun step => step.trace.signature)
      = traces.map Trace.signature := by
  conv_rhs => rw [← map_trace_steps previous traces, List.map_map]
  rfl

/-- A step knows the signature of the trace before it. -/
theorem previous_eq {previous : Option String} {traces : List (Trace α)}
    {front back : List (Step α)} {step : Step α}
    (h : steps previous traces = front ++ step :: back) :
    step.previous = ((front.map Step.trace).getLast?.map Trace.signature).or previous := by
  induction front generalizing previous traces with
  | nil =>
    cases traces with
    | nil => cases h
    | cons trace traces =>
      obtain ⟨rfl, -⟩ := List.cons.inj h
      rfl
  | cons s front ih =>
    cases traces with
    | nil => cases h
    | cons trace traces =>
      obtain ⟨rfl, hrest⟩ := List.cons.inj h
      rw [ih hrest, List.map_cons, List.getLast?_cons]
      cases (front.map Step.trace).getLast? <;> rfl

/-! ## 3. What a group tells -/

def ofRoute (signature : String) (traces : List (Trace α)) : List (Trace α) :=
  traces.filter fun t => t.signature == signature

/-- What a group tells of the traces before its first one. -/
structure Group.Opens (group : Group α) (before : List (Trace α)) (first : Trace α) : Prop where
  signature : group.signature = first.signature
  hops : group.hops = first.identifiers
  /-- The route has not been taken before. -/
  fresh : ∀ t ∈ before, t.signature ≠ group.signature
  isChange_iff : group.isChange = true ↔ before ≠ []
  previousSignature : group.previousSignature = before.getLast?.map Trace.signature

/-- A group whose route was taken first of all, and one whose route was not. -/
theorem opens_first {group : Group α} {t : Trace α} {rest before after : List (Trace α)}
    {first : Trace α} (h : group.Opens before first)
    (hsplit : t :: rest = before ++ first :: after) :
    group.isChange = true ↔ group.signature ≠ t.signature := by
  rw [h.isChange_iff]
  cases before with
  | nil =>
    obtain ⟨rfl, -⟩ := List.cons.inj hsplit
    simp [h.signature]
  | cons s before =>
    obtain ⟨rfl, -⟩ := List.cons.inj hsplit
    simpa using (h.fresh t List.mem_cons_self).symm

section Groups

variable [Scalar α]

/-- What a group tells of its members, whose order it keeps. -/
structure Group.Covers (group : Group α) (members : List (Trace α)) : Prop where
  traceCount : group.traceCount = members.length
  triggeredCount : group.triggeredCount = members.countP Trace.triggered
  ids : group.ids = (members.map Trace.id).filter Json.isPresent
  firstSeen : ∃ t ∈ members, group.firstSeen = t.time
  none_earlier : ∀ t ∈ members, ¬ t.time < group.firstSeen
  lastSeen : ∃ t ∈ members, group.lastSeen = t.time
  none_later : ∀ t ∈ members, ¬ group.lastSeen < t.time

/-- What a group tells of the figures of its members. -/
structure Group.Measures (value : α → Rat) (group : Group α) (members : List (Trace α)) :
    Prop where
  averageLatency : group.averageLatency.map value
    = Scalar.average? ((members.filterMap Trace.endLatency).map value)
  maxLoss : some (value group.maxLoss)
    = (0 :: members.flatMap fun t =>
        ((t.hops.filter Hop.responds).map Hop.loss).map value).max?

variable {members : List (Trace α)}

/-- The times of a group's members are its times. -/
theorem foldl_smaller_time (first : Trace α) (members : List (Trace α)) :
    (members.map Trace.time).foldl Scalar.smaller first.time
      = (members.foldl (Order.better Trace.earlier) first).time := by
  rw [List.foldl_map]
  refine List.foldl_hom Trace.time fun best t => ?_
  simp only [Scalar.smaller, Order.better, Trace.earlier, decide_eq_true_eq]
  split <;> rfl

theorem foldl_larger_time (first : Trace α) (members : List (Trace α)) :
    (members.map Trace.time).foldl Scalar.larger first.time
      = (members.foldl (Order.better fun a b => Trace.earlier b a) first).time := by
  rw [List.foldl_map]
  refine List.foldl_hom Trace.time fun best t => ?_
  simp only [Scalar.larger, Order.better, Trace.earlier, decide_eq_true_eq]
  split <;> rfl

/-- **A group** tells of its members. -/
theorem covers_ofMembers {first : Step α} (hfirst : first.trace ∈ members)
    (htimed : Trace.Timed members) : (Group.ofMembers first members).Covers members := by
  obtain ⟨hearliest, hnone⟩ := Order.foldl_better htimed.ranked hfirst (List.Subset.refl members)
  obtain ⟨hlatest, hnone'⟩ :=
    Order.foldl_better htimed.ranked.flip hfirst (List.Subset.refl members)
  constructor
  case traceCount => rfl
  case triggeredCount => rfl
  case ids => rfl
  case firstSeen => exact ⟨_, hearliest, foldl_smaller_time first.trace members⟩
  case none_earlier =>
    intro t ht hlt
    rw [Group.ofMembers, foldl_smaller_time] at hlt
    exact of_decide_eq_false (hnone t (List.mem_cons_of_mem _ ht)) hlt
  case lastSeen => exact ⟨_, hlatest, foldl_larger_time first.trace members⟩
  case none_later =>
    intro t ht hlt
    rw [Group.ofMembers, foldl_larger_time] at hlt
    exact of_decide_eq_false (hnone' t (List.mem_cons_of_mem _ ht)) hlt

/-- The running figures of a group are those of its members taken together. -/
theorem measures_ofMembers {value : α → Rat} (h : Scalar.Exact value) (first : Step α)
    (members : List (Trace α)) : (Group.ofMembers first members).Measures value members where
  averageLatency := h.runningMean _
  maxLoss := by
    have hzero : value Scalar.zero = 0 := (h.whole 0).trans Int.cast_zero
    rw [List.max?_cons', ← Scalar.foldl_max_flatMap _ _ le_rfl]
    refine congrArg some ((h.foldl_larger _ _).trans ?_)
    rw [hzero, List.map_map]
    congr 2
    funext t
    exact h.maxRespondingLoss t

/-- A group is opened by a step of a route that has not been taken before. -/
theorem opens_ofMembers {timeline : List (Trace α)} {front back : List (Step α)} {first : Step α}
    (h : steps none timeline = front ++ first :: back)
    (hfresh : ∀ s ∈ front, s.trace.signature ≠ first.trace.signature) (members : List (Trace α)) :
    (Group.ofMembers first members).Opens (front.map Step.trace) first.trace := by
  have hprevious : first.previous = (front.map Step.trace).getLast?.map Trace.signature :=
    (previous_eq h).trans Option.or_none
  have hchanged : first.previous.any (· ≠ first.trace.signature) = true ↔ front ≠ [] := by
    rw [hprevious]
    constructor
    · rintro hany rfl
      cases hany
    · intro hne
      have hmap : front.map Step.trace ≠ [] := by simpa using hne
      obtain ⟨s, hs, he⟩ := List.mem_map.mp (List.getLast_mem hmap)
      rw [List.getLast?_eq_some_getLast hmap, ← he]
      simpa using hfresh s hs
  refine ⟨rfl, rfl, fun t ht => ?_, ?_, ?_⟩
  · obtain ⟨s, hs, rfl⟩ := List.mem_map.mp ht
    exact hfresh s hs
  · rw [Ne, List.map_eq_nil_iff]
    exact hchanged
  · simp only [Group.ofMembers]
    rw [← hprevious]
    by_cases hne : front = []
    · have hnone : first.previous = none := by simp [hprevious, hne]
      simp [hnone]
    · rw [if_pos (hchanged.mpr hne)]

/-! ## 4. All groups -/

variable {traces : List (Trace α)}

/-- Every group comes from the step that was the first of its route, and from all traces of it. -/
theorem mem_groups {group : Group α} (h : group ∈ groups traces) :
    ∃ front first back, steps none (Trace.timeline traces) = front ++ first :: back ∧
      (∀ s ∈ front, s.trace.signature ≠ first.trace.signature) ∧
      group = .ofMembers first (ofRoute first.trace.signature (Trace.timeline traces)) := by
  rw [groups_eq] at h
  obtain ⟨⟨k, members⟩, hmem, hgroup⟩ := List.mem_filterMap.mp h
  obtain ⟨first, hfirst, rfl⟩ := Option.map_eq_some_iff.mp hgroup
  have hmembers := Order.group_eq _ hmem
  simp only at hmembers
  obtain ⟨rest, hcons⟩ := List.head?_eq_some_iff.mp hfirst
  obtain ⟨front, back, hsplit, hfresh, hkey, -⟩ :=
    List.filter_eq_cons_iff.mp (hmembers.symm.trans hcons)
  obtain rfl : first.trace.signature = k := eq_of_beq hkey
  refine ⟨front, first, back, hsplit, fun s hs he => hfresh s hs (beq_iff_eq.mpr he), ?_⟩
  rw [hmembers, ofRoute]
  conv_rhs => rw [← map_trace_steps none (Trace.timeline traces), List.filter_map]
  rfl

/-- The signatures of the groups are the keys by which they are grouped. -/
theorem map_signature_groups (traces : List (Trace α)) :
    (groups traces).map Group.signature
      = (Order.groupBy (fun step : Step α => step.trace.signature)
          (steps none (Trace.timeline traces))).map Prod.fst := by
  rw [groups_eq, List.map_filterMap]
  refine (List.filterMap_congr fun g hg => ?_).trans (congrFun List.filterMap_eq_map _)
  obtain ⟨first, rest, hcons⟩ := List.exists_cons_of_ne_nil (Order.group_ne_nil g hg)
  have hfirst : first ∈ g.2 := by simp [hcons]
  rw [Order.group_eq g hg] at hfirst
  have hkey : first.trace.signature = g.1 := eq_of_beq (List.mem_filter.mp hfirst).2
  simp [hcons, Group.ofMembers, hkey]

/-- There is a group for every route that is taken. -/
theorem mem_map_signature_groups {signature : String} :
    signature ∈ (groups traces).map Group.signature
      ↔ ∃ t ∈ Trace.timeline traces, t.signature = signature := by
  rw [map_signature_groups, Order.mem_map_fst_groupBy, map_signature_steps, List.mem_map]

/-- Groups come in the order in which their routes were first taken. -/
theorem groups_pairwise (traces : List (Trace α)) :
    (groups traces).Pairwise fun g g' =>
      ((Trace.timeline traces).map Trace.signature).idxOf g.signature
        < ((Trace.timeline traces).map Trace.signature).idxOf g'.signature := by
  have h := Order.groupBy_pairwise_idxOf (fun step : Step α => step.trace.signature)
    (steps none (Trace.timeline traces))
  rwa [← map_signature_groups, map_signature_steps, List.pairwise_map] at h

theorem opens_of_mem {group : Group α} (h : group ∈ groups traces) :
    ∃ before first after, Trace.timeline traces = before ++ first :: after ∧
      group.Opens before first := by
  obtain ⟨front, first, back, hsplit, hfresh, rfl⟩ := mem_groups h
  refine ⟨front.map Step.trace, first.trace, back.map Step.trace, ?_,
    opens_ofMembers hsplit hfresh _⟩
  rw [← map_trace_steps none (Trace.timeline traces), hsplit, List.map_append, List.map_cons]

/-- **The first group is no change**, and every later one is. -/
theorem isChange_iff_mem_tail (traces : List (Trace α)) :
    (∀ g ∈ (groups traces).head?, g.isChange = false) ∧
      ∀ g ∈ (groups traces).tail, g.isChange = true := by
  cases htimeline : Trace.timeline traces with
  | nil =>
    have hnil : groups traces = [] := by
      rw [← List.map_eq_nil_iff, map_signature_groups, htimeline]
      rfl
    simp [hnil]
  | cons t rest =>
    have hsignatures := map_signature_groups traces
    rw [htimeline, steps, Order.groupBy_cons, List.map_cons] at hsignatures
    have hnodup : ((groups traces).map Group.signature).Nodup := by
      rw [map_signature_groups]
      exact Order.groupBy_nodup _
    obtain ⟨g, gs, hgroups, hfirst, hrest⟩ := List.map_eq_cons_iff.mp hsignatures
    rw [hgroups] at hnodup ⊢
    have hchange : ∀ g' ∈ g :: gs, g'.isChange = true ↔ g'.signature ≠ t.signature := by
      intro g' hg'
      obtain ⟨before, first, after, hsplit, hopens⟩ := opens_of_mem (hgroups ▸ hg')
      exact opens_first hopens (htimeline.symm.trans hsplit)
    constructor
    · intro g' hg'
      obtain rfl : g = g' := Option.some.inj hg'
      rw [← Bool.not_eq_true, hchange g List.mem_cons_self]
      exact fun hne => hne hfirst
    · intro g' hg'
      refine (hchange g' (List.mem_cons_of_mem _ hg')).mpr fun he => ?_
      refine (List.nodup_cons.mp hnodup).1 ?_
      rw [hfirst]
      exact he ▸ List.mem_map_of_mem hg'

/-! ## 5. One stream -/

omit [Scalar α] in
/-- Along a stream a trace is compared with the one right before it. -/
theorem getElem?_follow (route : Option (List String)) (before : List (Trace α)) (first : Trace α)
    (after : List (Trace α)) :
    (Change.follow route (before ++ first :: after))[before.length]?
      = some (Change.compareWith ((before.getLast?.map Trace.identifiers).or route) first) := by
  induction before generalizing route with
  | nil => rfl
  | cons t before ih =>
    rw [List.cons_append, Change.follow, List.length_cons, List.getElem?_cons_succ, ih,
      List.getLast?_cons]
    cases before.getLast? <;> rfl

omit [Scalar α] in
/-- The trace that opened a group is compared with the one right before it as the group was. -/
theorem compareWith_of_opens {group : Group α} {before : List (Trace α)} {first : Trace α}
    (h : group.Opens before first) {a : Change.Observation α}
    (ha : a = Change.compareWith (before.getLast?.map Trace.identifiers) first) :
    a.trace = first ∧ a.isChange = group.isChange ∧
      a.previousSignature = group.previousSignature := by
  have htells : Change.Tells before.getLast? first a := ha ▸ Change.tells_compareWith _ first
  have hiff : a.isChange = true ↔ group.isChange = true := by
    rw [htells.isChange_iff, h.isChange_iff]
    constructor
    · rintro ⟨p, hp, -⟩ rfl
      cases hp
    · intro hne
      have hlast := List.getLast?_eq_some_getLast hne
      refine ⟨before.getLast hne, hlast, ?_⟩
      rw [← h.signature]
      exact h.fresh _ (List.getLast_mem hne)
  refine ⟨htells.trace_eq, Bool.eq_iff_iff.mpr hiff, ?_⟩
  rw [h.previousSignature]
  cases hchange : a.isChange with
  | true =>
    have hne : before ≠ [] := h.isChange_iff.mp (hiff.mp hchange)
    have hlast := List.getLast?_eq_some_getLast hne
    rw [(htells.departs hchange _ hlast).1, hlast]
    rfl
  | false =>
    have hnil : before = [] := by
      by_contra hne
      rw [hiff.mpr (h.isChange_iff.mpr hne)] at hchange
      cases hchange
    rw [(htells.stays hchange).1, hnil]
    rfl

/-- Traces of one source and one target are one stream, and its report is about all of them that
have hops. -/
theorem detect_of_one_stream {source destination : String}
    (hone : ∀ t ∈ traces, t.source = source ∧ t.target = destination)
    {target : Option String} (htarget : ∀ wanted ∈ target, wanted = destination)
    (byTarget : Bool) (hhops : ∃ t ∈ traces, t.hasHops = true) :
    Change.detect target byTarget traces
      = [.ofObservations ⟨source, if byTarget then some destination else none⟩
          (Change.follow none (Trace.timeline traces))] := by
  have hall : ∀ t ∈ traces, target.all (t.target == ·) = true := by
    intro t ht
    cases target with
    | none => rfl
    | some wanted => simp [(hone t ht).2, htarget wanted rfl]
  have hstream : ∀ t ∈ traces, Change.Stream.ofTrace byTarget t
      = ⟨source, if byTarget then some destination else none⟩ := by
    intro t ht
    simp [Change.Stream.ofTrace, hone t ht]
  have honly : Change.streams target byTarget traces
      = [⟨source, if byTarget then some destination else none⟩] := by
    refine List.perm_singleton.mp ((List.perm_ext_iff_of_nodup (Change.streams_nodup ..)
      (List.nodup_singleton _)).mpr fun stream => ?_)
    rw [Change.mem_streams, List.mem_singleton]
    constructor
    · rintro ⟨t, ht, -, rfl⟩
      exact hstream t ht
    · rintro rfl
      obtain ⟨t, ht, hhops⟩ := hhops
      exact ⟨t, ht, by rw [Change.wanted, hhops, hall t ht]; rfl, hstream t ht⟩
  rw [Change.detect_eq, honly, List.map_singleton, Change.reportOf]
  congr 3
  refine List.filter_congr fun t ht => ?_
  have ht : t ∈ traces := (Order.ascending_perm Trace.time traces).mem_iff.mp ht
  rw [Change.counts, Change.wanted, hall t ht, hstream t ht, Bool.and_true, beq_self_eq_true,
    Bool.and_true]

/-! ## 6. Main result -/

/-- **Route groups.**  When times stand in one order, the traces with hops are divided by route.
There is one group for each route, in the order in which the routes were first taken, and it tells
what all traces of its route come to.  The first group is no change; every other one is a change
from the route of the trace right before the one that opened it.  Where all traces have one source
and one target, a detector says the same of the trace that opened a group. -/
theorem groups_divide_timeline (h : Trace.Timed traces) :
    ∃ inOrder, Trace.Chronological (traces.filter Trace.hasHops) inOrder ∧
      (∀ signature, signature ∈ (groups traces).map Group.signature
        ↔ ∃ t ∈ inOrder, t.signature = signature) ∧
      ((groups traces).Pairwise fun g g' =>
        (inOrder.map Trace.signature).idxOf g.signature
          < (inOrder.map Trace.signature).idxOf g'.signature) ∧
      (∀ g ∈ (groups traces).head?, g.isChange = false) ∧
      (∀ g ∈ (groups traces).tail, g.isChange = true) ∧
      ∀ g ∈ groups traces,
        g.Covers (ofRoute g.signature inOrder) ∧
        (∀ value, Scalar.Exact value → g.Measures value (ofRoute g.signature inOrder)) ∧
        ∃ before first after, inOrder = before ++ first :: after ∧ g.Opens before first ∧
          ∀ source destination, (∀ t ∈ traces, t.source = source ∧ t.target = destination) →
            ∀ target byTarget, (∀ wanted ∈ target, wanted = destination) →
              ∃ report a, Change.detect target byTarget traces = [report] ∧
                report.observations[before.length]? = some a ∧ a.trace = first ∧
                a.isChange = g.isChange ∧ a.previousSignature = g.previousSignature := by
  have hfilter : Trace.timeline traces = Trace.sortByTime (traces.filter Trace.hasHops) :=
    Trace.filter_sortByTime h _
  have hchron : Trace.Chronological (traces.filter Trace.hasHops) (Trace.timeline traces) :=
    hfilter ▸ Trace.chronological_sortByTime (h.filter _)
  have hmem : ∀ t ∈ Trace.timeline traces, t ∈ traces ∧ t.hasHops = true := fun t ht =>
    List.mem_filter.mp (hchron.perm.mem_iff.mp ht)
  obtain ⟨hfirst, hlater⟩ := isChange_iff_mem_tail traces
  refine ⟨Trace.timeline traces, hchron, fun _ => mem_map_signature_groups, groups_pairwise traces,
    hfirst, hlater, fun g hg => ?_⟩
  obtain ⟨front, first, back, hsplit, hfresh, rfl⟩ := mem_groups hg
  have htimeline : Trace.timeline traces
      = front.map Step.trace ++ first.trace :: back.map Step.trace := by
    rw [← map_trace_steps none (Trace.timeline traces), hsplit, List.map_append, List.map_cons]
  have hfirst : first.trace ∈ Trace.timeline traces := by simp [htimeline]
  have hopens := opens_ofMembers hsplit hfresh
    (ofRoute first.trace.signature (Trace.timeline traces))
  refine ⟨?_, fun value hvalue => measures_ofMembers hvalue first _, ?_⟩
  · refine covers_ofMembers (List.mem_filter.mpr ⟨hfirst, beq_self_eq_true _⟩) ?_
    exact h.of_subset fun t ht => (hmem t (List.mem_filter.mp ht).1).1
  · refine ⟨_, _, _, htimeline, hopens, fun source destination hone target byTarget htarget => ?_⟩
    have hdetect := detect_of_one_stream hone htarget byTarget ⟨_, hmem _ hfirst⟩
    have hobserved := getElem?_follow none (front.map Step.trace) first.trace
      (back.map Step.trace)
    rw [← htimeline, Option.or_none] at hobserved
    exact ⟨_, _, hdetect, hobserved, compareWith_of_opens hopens rfl⟩

end Groups

/-- A trace of one answered step, which took as long as it came late. -/
def sighting (address : String) (time : Rat) : Trace Rat where
  source := "7"
  target := "10.0.0.9"
  hops :=
    [{ ttl := .whole 1, hosts := [⟨address, .null⟩], loss := 0, average := some time,
       best := none, worst := none, jitter := none, sent := .whole 1, received := .whole 1 }]
  time := time

/-- Three routes, of which the first one comes back at the time at which the third one comes. -/
def wandering : List (Trace Rat) :=
  [sighting "10.0.0.2" 2, sighting "10.0.0.1" 1, sighting "10.0.0.1" 3, sighting "10.0.0.3" 3]

theorem groups_divide_timeline_wandering :
    Trace.Timed wandering ∧
      (∀ g ∈ (groups wandering).head?, g.isChange = false) ∧
      (∀ g ∈ (groups wandering).tail, g.isChange = true) ∧
      (∀ g ∈ groups wandering, ∃ report a, Change.detect none true wandering = [report] ∧
        a ∈ report.observations ∧ a.isChange = g.isChange ∧
        a.previousSignature = g.previousSignature) ∧
      ((groups wandering).map fun g =>
          (g.signature, g.previousSignature, g.traceCount, g.averageLatency))
        = [("10.0.0.1", none, 2, some 2), ("10.0.0.2", some "10.0.0.1", 1, some 2),
            ("10.0.0.3", some "10.0.0.1", 1, some 3)] := by
  obtain ⟨inOrder, -, -, -, hfirst, hlater, hgroups⟩ :=
    groups_divide_timeline (Trace.timed_of_rat wandering)
  refine ⟨Trace.timed_of_rat wandering, hfirst, hlater, fun g hg => ?_, by decide +kernel⟩
  obtain ⟨-, -, before, first, after, -, -, hdetected⟩ := hgroups g hg
  have hone : ∀ t ∈ wandering, t.source = "7" ∧ t.target = "10.0.0.9" := by decide +kernel
  obtain ⟨report, a, hreport, hobserved, -, hchange, hprevious⟩ :=
    hdetected "7" "10.0.0.9" hone none true nofun
  exact ⟨report, a, hreport, List.mem_of_getElem? hobserved, hchange, hprevious⟩

end Route

end PathAtlas
