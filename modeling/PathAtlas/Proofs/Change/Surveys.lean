/-
# Change reports in one go

A walk through traces of all streams hands each observation to the report of its stream.  What a
report is in the end is said here of its observations as a list (`Report.ofObservations`).

* `observeAll`:        what a detector observes along a list of traces;
* `add_observations`:  one more observation takes the report of some to the report of one more;
* `foldl_take`:        a walk puts what the detector observes into the report of its stream;
* `detect_reports`:    so the reports are those of the streams, in their order, each of the
  observations that belong to it.
-/
import PathAtlas.Change.Report
import PathAtlas.Proofs.Order.Gathering

namespace PathAtlas.Change

variable {α : Type}

/-! ## 1. Observations -/

namespace Detector

/-- Takes in traces one after the other. -/
def observeAll : Detector → List (Trace α) → List (Observation α)
  | _, [] => []
  | detector, trace :: rest =>
    let (observation, detector) := detector.observe trace
    observation :: observeAll detector rest

theorem observeAll_cons (d : Detector) (trace : Trace α) (traces : List (Trace α)) :
    d.observeAll (trace :: traces)
      = compareWith (d.lastRoute (Stream.ofTrace d.byTarget trace)) trace
          :: (d.observe trace).2.observeAll traces := rfl

theorem trace_compareWith (route : Option (List String)) (trace : Trace α) :
    (compareWith route trace).trace = trace := by
  rw [compareWith.eq_def]
  cases route with
  | none => rfl
  | some before => simp only; split <;> rfl

theorem map_trace_observeAll (d : Detector) (traces : List (Trace α)) :
    (d.observeAll traces).map Observation.trace = traces := by
  induction traces generalizing d with
  | nil => rfl
  | cons trace traces ih => rw [observeAll_cons, List.map_cons, trace_compareWith, ih]

end Detector

/-! ## 2. Reports -/

/-- The changes that the observations of a stream tell. -/
def changesOf (stream : Stream) (as : List (Observation α)) : List (RouteChange α) :=
  as.filterMap (Observation.change? stream)

/-- The report of a stream of which some observations were made. -/
def Report.ofObservations (stream : Stream) (as : List (Observation α)) : Report α where
  stream
  observations := as
  changes := changesOf stream as

/-- **One more observation** is taken into the report of its stream. -/
theorem add_observations (stream : Stream) (as : List (Observation α)) (a : Observation α) :
    (Report.ofObservations stream as).add a = .ofObservations stream (as ++ [a]) := by
  have hchanges : changesOf stream (as ++ [a])
      = changesOf stream as ++ (a.change? stream).toList := by
    rw [changesOf, List.filterMap_append]
    cases hchange : a.change? stream <;> simp [changesOf, hchange]
  exact congrArg (Report.mk stream (as ++ [a])) hchanges.symm

/-- The report that the observations of one stream make of an empty one. -/
theorem gathered_observations (other : Report α) (key : Observation α → Stream)
    {as : List (Observation α)} (hne : as ≠ []) {stream : Stream}
    (hkey : ∀ a ∈ as, key a = stream) :
    Order.gathered other (fun a => { stream := key a }) Report.add as
      = .ofObservations stream as := by
  have hfold (before rest : List (Observation α)) :
      rest.foldl Report.add (.ofObservations stream before)
        = .ofObservations stream (before ++ rest) := by
    induction rest generalizing before with
    | nil => rw [List.foldl_nil, List.append_nil]
    | cons a rest ih => rw [List.foldl_cons, add_observations, ih, List.append_assoc]; rfl
  obtain ⟨first, rest, rfl⟩ := List.exists_cons_of_ne_nil hne
  have hopened : ({ stream := key first } : Report α) = .ofObservations stream [] := by
    rw [hkey first List.mem_cons_self]
    rfl
  rw [Order.gathered, hopened, add_observations, hfold]
  rfl

/-! ## 3. Walking -/

/-- **A walk** puts what its detector observes into the report of its stream. -/
theorem foldl_take (survey : Survey α) (traces : List (Trace α)) :
    (traces.foldl Survey.take survey).reports
      = (survey.detector.observeAll traces).foldl
          (fun entries a =>
            let stream := Stream.ofTrace survey.detector.byTarget a.trace
            Order.into stream { stream } (·.add a) entries) survey.reports := by
  -- the detector is carried along: it keeps its register up to date, and never its kind of stream
  induction traces generalizing survey with
  | nil => rfl
  | cons trace traces ih =>
    have hby : (survey.take trace).detector.byTarget = survey.detector.byTarget := rfl
    rw [List.foldl_cons, ih, hby, Detector.observeAll_cons, List.foldl_cons,
      Detector.trace_compareWith]
    rfl

/-- **The reports in one go**: one for each stream, in their order. -/
theorem detect_reports [Scalar α] (target : Option String) (byTarget : Bool)
    (traces : List (Trace α)) :
    let as := (Detector.mk byTarget []).observeAll
      ((Trace.timeline traces).filter fun t => target.all (t.target == ·))
    let key (a : Observation α) := Stream.ofTrace byTarget a.trace
    detect target byTarget traces
      = (Order.groupKeys Stream.before key as).map fun stream =>
          .ofObservations stream (as.filter (key · == stream)) := by
  intro as key
  have hsorted := Order.sortBy_gather (.ofObservations ⟨"", none⟩ []) Stream.before key
    (fun a => { stream := key a }) Report.add as
  rw [detect, foldl_take]
  refine (congrArg (List.map Prod.snd) hsorted).trans ?_
  rw [List.map_map]
  refine List.map_congr_left fun stream hstream => ?_
  refine gathered_observations _ key ?_ fun a ha => eq_of_beq (List.mem_filter.mp ha).2
  obtain ⟨a, ha, hkey⟩ := List.mem_map.mp (Order.mem_groupKeys.mp hstream)
  exact List.ne_nil_of_mem (List.mem_filter.mpr ⟨ha, beq_iff_eq.mpr hkey⟩)

end PathAtlas.Change
