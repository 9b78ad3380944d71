/-
# The statistics of a graph

A node shows the number of samples that were left at it, the means of their latencies and losses,
and the greatest loss; an edge shows the same of the samples at its far end.  Which samples these
are is told by the stops of the traces (`samplesAt`, `samplesBetween`), and `Stats.batch` is what
they come to when they are all taken together.

* `ofSamples_eq_batch`: statistics kept up to date are those of all samples together;
* `ofTraces_measures`:  the statistics and the health of every part of a graph.

The figures are exact fractions here.  Statistics kept in binary are rounded at every sample.
-/
import PathAtlas.Proofs.Topology.Structure
import PathAtlas.Proofs.Topology.Tallies

namespace PathAtlas.Topology

/-! ## 1. All samples together -/

/-- The statistics of some samples, all taken together. -/
def Stats.batch (samples : List (Sample Rat)) : Stats Rat where
  latency := Scalar.average? (samples.filterMap Sample.latency)
  loss := Scalar.average? (samples.filterMap Sample.loss)
  maxLoss := (samples.filterMap Sample.loss).max?
  count := samples.length

theorem batch_perm {xs ys : List (Sample Rat)} (h : xs.Perm ys) :
    Stats.batch xs = Stats.batch ys := by
  unfold Stats.batch
  rw [Scalar.average?_perm (h.filterMap _), Scalar.average?_perm (h.filterMap _),
    Scalar.max?_perm (h.filterMap _), h.length_eq]

/-- **Statistics kept up to date** are those of all samples together, when each has a loss. -/
theorem ofSamples_eq_batch {samples : List (Sample Rat)} (h : ∀ s ∈ samples, s.loss.isSome) :
    Stats.ofSamples samples = Stats.batch samples := by
  have hcount : samples.countP Sample.tells = samples.length :=
    List.countP_eq_length.mpr fun s hs => by simp [Sample.tells, h s hs]
  have hloss := Tally.loss_ofSamples_of_forall fun s hs _ => h s hs
  rw [Stats.ofSamples, Tally.stats, Tally.latency_ofSamples, Scalar.runningMean_eq, hloss,
    Tally.maxLoss_ofSamples, Tally.count_ofSamples, hcount]
  rfl

/-! ## 2. The samples of a part -/

variable {α : Type}

/-- The samples that some traces leave at a node. -/
def samplesAt (traces : List (Trace α)) (id : String) : List (Sample α) :=
  ((traces.flatMap stops).filter (·.node == id)).filterMap Stop.sample

/-- The samples that some traces leave at the far end of the steps from one node to another. -/
def samplesBetween (traces : List (Trace α)) (source target : String) : List (Sample α) :=
  ((traces.flatMap fun t => legs (stops t)).filter fun l =>
    l.1.node == source && l.2.node == target).filterMap fun l => l.2.sample

theorem samplesAt_eq (traces : List (Trace α)) (id : String) :
    (visitsAt traces id).filterMap Visit.sample = samplesAt traces id := by
  have hstops : traces.flatMap stops = (traces.flatMap visits).map Visit.stop := by
    simp only [List.map_flatMap, map_stop_visits]
  rw [samplesAt, hstops, List.filter_map, List.filterMap_map]
  rfl

/-- A step to a node and on the same leg of a trace is no step, so that it tells nothing about an
edge between two nodes. -/
theorem samplesBetween_eq (traces : List (Trace α)) {u v : String} (hne : u ≠ v) :
    (stepsBetween traces (u, v)).filterMap Link.sample = samplesBetween traces u v := by
  have htrace : ∀ t : Trace α,
      ((links t).filter fun l => (l.source, l.target) == (u, v)).filterMap Link.sample
        = ((legs (stops t)).filter fun l => l.1.node == u && l.2.node == v).filterMap
            fun l => l.2.sample := by
    intro t
    rw [links, linksOf_eq, ← map_stop_visits, legs_map, List.filter_map, List.filter_map,
      List.filterMap_map, List.filterMap_map, List.filter_filter]
    have hfilter : ∀ l ∈ legs (visits t),
        (((fun l : Link α => (l.source, l.target) == (u, v)) ∘ fun l : Visit α × Visit α =>
            (⟨l.1.node, l.2.node, l.2.path, l.2.sample⟩ : Link α)) l
          && decide (l.1.node ≠ l.2.node))
        = ((fun l : Stop α × Stop α => l.1.node == u && l.2.node == v)
            ∘ Prod.map Visit.stop Visit.stop) l := by
      intro l _
      rw [Bool.eq_iff_iff]
      simp only [Function.comp_apply, Prod.map_fst, Prod.map_snd, Visit.stop, Bool.and_eq_true,
        beq_iff_eq, Prod.mk.injEq, decide_eq_true_eq]
      constructor
      · exact fun h => h.1
      · rintro ⟨rfl, rfl⟩
        exact ⟨⟨rfl, rfl⟩, hne⟩
    rw [List.filter_congr hfilter]
    rfl
  simp only [stepsBetween, samplesBetween, List.filter_flatMap, List.filterMap_flatMap, htrace]

/-- Every sample of a trace comes with a loss. -/
theorem loss_of_mem_stops {trace : Trace α} {s : Stop α} (h : s ∈ stops trace) {sample : Sample α}
    (hsample : s.sample = some sample) : sample.loss.isSome := by
  have hway : s ∈ wayStops trace → sample.loss.isSome := by
    intro h
    rcases List.mem_cons.mp h with rfl | h
    · simp at hsample
    · obtain ⟨hop, -, rfl⟩ := List.mem_map.mp h
      simp only [hopSample] at hsample
      split at hsample
      · obtain rfl := Option.some.inj hsample
        rfl
      · simp at hsample
  have hend : ∀ last, s = endStop trace last → sample.loss.isSome := by
    rintro last rfl
    obtain rfl := Option.some.inj hsample
    rfl
  unfold stops at h
  split at h
  · simp at h
  · split at h
    · rcases List.mem_append.mp h with h | h
      · exact hway ((List.dropLast_sublist _).subset h)
      · exact hend _ (List.mem_singleton.mp h)
    · rcases List.mem_append.mp h with h | h
      · exact hway h
      · exact hend _ (List.mem_singleton.mp h)

theorem loss_of_mem_samplesAt {traces : List (Trace α)} {id : String} :
    ∀ s ∈ samplesAt traces id, s.loss.isSome := by
  intro s hs
  obtain ⟨stop, hstop, hsample⟩ := List.mem_filterMap.mp hs
  obtain ⟨t, -, hmem⟩ := List.mem_flatMap.mp (List.mem_filter.mp hstop).1
  exact loss_of_mem_stops hmem hsample

theorem loss_of_mem_samplesBetween {traces : List (Trace α)} {u v : String} :
    ∀ s ∈ samplesBetween traces u v, s.loss.isSome := by
  intro s hs
  obtain ⟨leg, hleg, hsample⟩ := List.mem_filterMap.mp hs
  obtain ⟨t, -, hmem⟩ := List.mem_flatMap.mp (List.mem_filter.mp hleg).1
  exact loss_of_mem_stops (mem_of_mem_legs hmem).2 hsample

/-! ## 3. Health -/

/-- A class of statistics is unknown just when there are no samples. -/
theorem statusOf_batch (limits : Thresholds Rat) {samples : List (Sample Rat)}
    (h : ∀ s ∈ samples, s.loss.isSome) :
    statusOf limits (Stats.batch samples) = .unknown ↔ (Stats.batch samples).count = 0 := by
  cases samples with
  | nil => simp [statusOf, Stats.hasData, Stats.batch]
  | cons s samples =>
    obtain ⟨x, hx⟩ := Option.isSome_iff_exists.mp (h s (by simp))
    have hloss : (Stats.batch (s :: samples)).loss.isNone = false := by
      simp [Stats.batch, Scalar.average?, hx]
    have hcount : 0 < (Stats.batch (s :: samples)).count := by simp [Stats.batch]
    have hknown : statusOf limits (Stats.batch (s :: samples)) ≠ .unknown := by
      simp only [statusOf, Stats.hasData, hcount, decide_true, if_true, Thresholds.classify, hloss,
        Bool.and_false, Bool.false_eq_true, if_false]
      split
      · simp
      · split <;> simp
    simp [hknown, hcount.ne']

/-- A class of statistics with samples is that of its averages. -/
theorem statusOf_of_count_ne_zero [Scalar α] (limits : Thresholds α) {stats : Stats α}
    (h : stats.count ≠ 0) : statusOf limits stats = limits.classify stats.latency stats.loss := by
  rw [statusOf, if_pos (by simpa [Stats.hasData] using Nat.pos_of_ne_zero h)]

/-! ## 4. The graph -/

/-- Statistics and health that belong to some samples. -/
structure Shows (limits : Thresholds Rat) (stats : Stats Rat) (status : Health)
    (samples : List (Sample Rat)) : Prop where
  batch : stats = Stats.batch samples
  unknown : status = .unknown ↔ stats.count = 0
  known : stats.count ≠ 0 → status = limits.classify stats.latency stats.loss

/-- What the parts of a graph of some traces have to show. -/
structure Measures (limits : Thresholds Rat) (g : Graph Rat) (traces : List (Trace Rat)) :
    Prop where
  /-- An agent shows no samples, whatever is left at it. -/
  agents : ∀ node ∈ g.nodes, node.role = .agent → Shows limits node.stats node.status []
  nodes : ∀ node ∈ g.nodes, node.role ≠ .agent →
    Shows limits node.stats node.status (samplesAt traces node.id)
  edges : ∀ e ∈ g.edges, Shows limits e.stats e.status (samplesBetween traces e.source e.target)

theorem shows_batch (limits : Thresholds Rat) {samples : List (Sample Rat)}
    (h : ∀ s ∈ samples, s.loss.isSome) :
    Shows limits (Stats.ofSamples samples) (statusOf limits (Stats.ofSamples samples)) samples where
  batch := ofSamples_eq_batch h
  unknown := by
    rw [ofSamples_eq_batch h]
    exact statusOf_batch limits h
  known := statusOf_of_count_ne_zero limits

/-- A node shows the statistics of the samples of its visits. -/
theorem nodeNamed_shows (limits : Thresholds Rat) (id : String) (visits : List (Visit Rat))
    (hostName : Json) (h : ∀ s ∈ visits.filterMap Visit.sample, s.loss.isSome) :
    let node := nodeNamed limits id visits hostName
    Shows limits node.stats node.status
      (if roleOf visits = .agent then [] else visits.filterMap Visit.sample) := by
  simp only [nodeNamed]
  cases roleOf visits with
  | hop => exact shows_batch limits h
  | destination => exact shows_batch limits h
  | agent => exact ⟨rfl, by simp [agentNode], by simp [agentNode]⟩

/-- **The statistics of a graph.**  Traces have a graph when their host names are texts or absent,
and the parts of every graph that traces have show the samples left at them. -/
theorem ofTraces_measures (limits : Thresholds Rat) (time : Rat) (traces : List (Trace Rat)) :
    (Named traces → ∃ g, Graph.ofTraces limits time traces = .ok g) ∧
      ∀ g, Graph.ofTraces limits time traces = .ok g → Measures limits g traces := by
  refine ⟨ofTraces_of_named limits time, fun g h => ?_⟩
  have hnode : ∀ node ∈ g.nodes, Shows limits node.stats node.status
      (if node.role = .agent then [] else samplesAt traces node.id) := by
    intro node hnode
    obtain ⟨hostName, -, he⟩ := isNode_of_mem h hnode
    have hshows := nodeNamed_shows limits node.id (visitsAt traces node.id) hostName
      (by rw [samplesAt_eq]; exact loss_of_mem_samplesAt)
    rw [samplesAt_eq, ← nodeNamed_role limits node.id _ hostName, ← he] at hshows
    exact hshows
  constructor
  case agents =>
    intro node hmem hrole
    simpa [hrole] using hnode node hmem
  case nodes =>
    intro node hmem hrole
    simpa [hrole] using hnode node hmem
  case edges =>
    intro e he
    obtain ⟨hmem, hedge⟩ := edge_of_mem h he
    have hloss : ∀ s ∈ samplesBetween traces e.source e.target, s.loss.isSome :=
      loss_of_mem_samplesBetween
    have hshows := shows_batch limits hloss
    rw [← samplesBetween_eq traces (mem_edgeEnds.mp hmem).1] at hshows ⊢
    rw [hedge]
    exact hshows

theorem ofTraces_measures_twoSteps :
    ∃ g, Graph.ofTraces .standard 0 [twoSteps] = .ok g ∧ Measures .standard g [twoSteps] := by
  obtain ⟨hexists, hmeasures⟩ := ofTraces_measures .standard 0 [twoSteps]
  obtain ⟨g, h⟩ := hexists named_twoSteps
  exact ⟨g, h, hmeasures g h⟩

end PathAtlas.Topology
