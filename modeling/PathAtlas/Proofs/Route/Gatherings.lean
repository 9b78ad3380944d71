/-
# Route groups in one go

A walk along a timeline takes each trace into the group of its route.  What such a group is in the
end is said here of its traces as a list: the extremes of their times, the mean of their latencies,
the greatest of their losses (`Group.ofMembers`).

* `add_ofMembers`:  one more trace takes the group of some traces to the group of one more;
* `foldl_take`:     a walk puts each trace, with the signature before it, into the entry of its
                    route;
* `groups_eq`:      so the groups are those of the routes, in the order of their first traces.
-/
import PathAtlas.Proofs.Order.Gathering
import PathAtlas.Route.Group

namespace PathAtlas.Route

variable {α : Type}

/-! ## 1. Groups and steps -/

/-- The group of the traces of one route, of which the first is given as a step. -/
def Group.ofMembers [Scalar α] (first : Step α) (traces : List (Trace α)) : Group α :=
  let signature := first.trace.signature
  let changed := first.previous.any (· ≠ signature)
  { signature
    hops := first.trace.identifiers
    firstSeen := (traces.map Trace.time).foldl Scalar.smaller first.trace.time
    lastSeen := (traces.map Trace.time).foldl Scalar.larger first.trace.time
    traceCount := traces.length
    averageLatency := (Scalar.runningMean (traces.filterMap Trace.endLatency)).mean
    maxLoss := (traces.map Trace.maxRespondingLoss).foldl Scalar.larger Scalar.zero
    triggeredCount := traces.countP Trace.triggered
    isChange := changed
    previousSignature := if changed then first.previous else none
    ids := (traces.map Trace.id).filter Json.isPresent }

/-- Every trace of a list with the signature before it, given the one before the list. -/
def steps : Option String → List (Trace α) → List (Step α)
  | _, [] => []
  | previous, trace :: rest => ⟨previous, trace⟩ :: steps (some trace.signature) rest

variable [Scalar α]

/-- What a walk keeps of the group of some traces. -/
def gatheringOf (first : Step α) (traces : List (Trace α)) : Gathering α where
  group := .ofMembers first traces
  latencies := (Scalar.runningMean (traces.filterMap Trace.endLatency)).count

/-! ## 2. Walking -/

theorem runningMean_append_toList (xs : List α) (x : Option α) :
    Scalar.runningMean (xs ++ x.toList)
      = (x.map (Scalar.runningMean xs).add).getD (Scalar.runningMean xs) := by
  cases x with
  | none => exact congrArg _ (List.append_nil xs)
  | some x => exact List.foldl_append

/-- **One more trace** is taken into its group. -/
theorem add_ofMembers (first : Step α) (traces : List (Trace α)) (trace : Trace α) :
    (gatheringOf first traces).add trace = gatheringOf first (traces ++ [trace]) := by
  have hlatencies : (traces ++ [trace]).filterMap Trace.endLatency
      = traces.filterMap Trace.endLatency ++ trace.endLatency.toList := by
    rw [List.filterMap_append]
    cases hlatency : trace.endLatency <;> simp [hlatency]
  have hids : (traces.map Trace.id ++ [trace.id]).filter Json.isPresent
      = if trace.id.isPresent then (traces.map Trace.id).filter Json.isPresent ++ [trace.id]
        else (traces.map Trace.id).filter Json.isPresent := by
    rw [List.filter_append]
    cases hid : trace.id.isPresent <;> simp [hid]
  have htriggered : (traces ++ [trace]).countP Trace.triggered
      = traces.countP Trace.triggered + if trace.triggered then 1 else 0 := by
    rw [List.countP_append, List.countP_singleton]
  simp only [Gathering.add, gatheringOf, Group.ofMembers, hlatencies, hids, htriggered,
    runningMean_append_toList, List.map_append, List.map_singleton, List.foldl_append,
    List.foldl_cons, List.foldl_nil, List.length_append, List.length_singleton]

/-- What the traces of one route make of the entry that the first of them opens. -/
theorem gathered_add (other : Gathering α) (first : Step α) (rest : List (Step α)) :
    Order.gathered other .opened (fun gathering step => gathering.add step.trace) (first :: rest)
      = gatheringOf first ((first :: rest).map Step.trace) := by
  have hfold (traces : List (Trace α)) :
      rest.foldl (fun gathering step => gathering.add step.trace) (gatheringOf first traces)
        = gatheringOf first (traces ++ rest.map Step.trace) := by
    induction rest generalizing traces with
    | nil => rw [List.foldl_nil, List.map_nil, List.append_nil]
    | cons step rest ih =>
      rw [List.foldl_cons, add_ofMembers, ih, List.append_assoc, List.map_cons]
      rfl
  have hopened : Gathering.opened first = gatheringOf first [] := rfl
  rw [Order.gathered, hopened, add_ofMembers, hfold]
  rfl

/-- **A walk** puts each trace, with the signature before it, into the entry of its route. -/
theorem foldl_take (walk : Walk α) (traces : List (Trace α)) :
    (traces.foldl Walk.take walk).groups
      = (steps walk.previous traces).foldl
          (fun entries step => Order.into step.trace.signature (.opened step)
            (·.add step.trace) entries) walk.groups := by
  induction traces generalizing walk with
  | nil => rfl
  | cons trace traces ih => exact ih (walk.take trace)

/-- **The groups in one go**: one for each route, in the order of their first traces. -/
theorem groups_eq (traces : List (Trace α)) :
    groups traces
      = (Order.groupBy (fun step => step.trace.signature)
          (steps none (Trace.timeline traces))).filterMap fun g =>
            g.2.head?.map fun first => .ofMembers first (g.2.map Step.trace) := by
  rw [groups, foldl_take]
  cases hsteps : steps none (Trace.timeline traces) with
  | nil => rfl
  | cons opening rest =>
    have hgathered := Order.gather_eq (Gathering.opened opening)
      (fun step : Step α => step.trace.signature) Gathering.opened
      (fun gathering step => gathering.add step.trace) (opening :: rest)
    refine (congrArg (List.map fun entry => entry.2.group) hgathered).trans ?_
    rw [List.map_map]
    refine (congrFun List.filterMap_eq_map _).symm.trans (List.filterMap_congr fun g hg => ?_)
    obtain ⟨first, others, hcons⟩ := List.exists_cons_of_ne_nil (Order.group_ne_nil g hg)
    rw [hcons, Function.comp_apply, Function.comp_apply, hcons, gathered_add]
    rfl

end PathAtlas.Route
