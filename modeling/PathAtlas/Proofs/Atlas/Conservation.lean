/-
# What the views make of a window

The routes, the changes, the paths and the summary all count the traces of one window, each in its
own way: by route within a path, by stream, by the name of a path, and all at once.  Grouping puts
every element into one group (`sum_countP_groupByText`), and sorting moves them, so whatever they
are grouped by, the counts come to the number of traces that have hops (`refresh_conserves`).  Names
do not matter: where two sources and targets have one path name, the groups of both are counted in
one place.

Groups are ranked by a comparison that is no order when a time is not a number.  It always tells
tiers apart, though, and that is enough for them to come in order of their tiers
(`rank_pairwise_tier`).
-/
import PathAtlas.Atlas.Views
import PathAtlas.Proofs.Atlas.FailedRefresh
import PathAtlas.Proofs.Order.Agreement
import PathAtlas.Proofs.Route.Groups

namespace PathAtlas

variable {α : Type}

/-! ## 1. Routes -/

namespace Route

variable [Scalar α]

theorem length_timeline (traces : List (Trace α)) :
    (Trace.timeline traces).length = traces.countP Trace.hasHops := by
  rw [Trace.timeline, ← List.countP_eq_length_filter]
  exact (Order.ascending_perm Trace.time traces).countP_eq _

/-- The groups of some traces count each trace with hops once. -/
theorem sum_traceCount_groups (traces : List (Trace α)) :
    ((groups traces).map Group.traceCount).sum = traces.countP Trace.hasHops := by
  have hcounts : (groups traces).map Group.traceCount
      = (Order.groupBy (fun step : Step α => step.trace.signature)
          (steps none (Trace.timeline traces))).map fun g => g.2.length := by
    rw [groups_eq, List.map_filterMap]
    refine (List.filterMap_congr fun g hg => ?_).trans (congrFun List.filterMap_eq_map _)
    obtain ⟨first, rest, hcons⟩ := List.exists_cons_of_ne_nil (Order.group_ne_nil g hg)
    simp [hcons, Group.ofMembers]
  rw [hcounts, Order.sum_length_groupBy, ← length_timeline, ← List.length_map, map_trace_steps]

/-- **Groups are ranked** in order of their tiers, whatever their times are. -/
theorem rank_pairwise_tier (rule : TieBreak) (gs : List (Group α)) :
    (rank rule gs).Pairwise fun g g' => g.tier ≤ g'.tier := by
  have : IsTrans (Group α) fun g g' => g.tier ≤ g'.tier := ⟨fun _ _ _ => le_trans⟩
  refine Order.Runs.sortAmong_pairwise _ (List.pairwise_of_forall fun g g' => ?_)
  constructor
  · intro h
    simp only [shownBefore, Bool.or_eq_true, Bool.and_eq_true, decide_eq_true_eq, beq_iff_eq] at h
    rcases h with h | ⟨h, -⟩
    · exact h.le
    · exact h.le
  · intro h
    simp only [shownBefore, Bool.or_eq_false_iff, decide_eq_false_iff_not] at h
    exact not_lt.mp h.1

end Route

/-! ## 2. Changes -/

namespace Change

variable [Scalar α]

/-- The reports of some traces count each trace that is looked at once. -/
theorem sum_length_detect (target : Option String) (byTarget : Bool) (traces : List (Trace α)) :
    ((detect target byTarget traces).map fun report => report.observations.length).sum
      = traces.countP (wanted target) := by
  have hobserved : ∀ (d : Detector) (ts : List (Trace α)), (d.observeAll ts).length = ts.length :=
    fun d ts => by rw [← List.length_map, Detector.map_trace_observeAll]
  rw [detect_reports, filter_timeline_eq, List.map_map]
  refine (Order.sum_length_groupKeys Stream.before _ _).trans ?_
  rw [hobserved, ← List.countP_eq_length_filter]
  exact (Order.ascending_perm Trace.time traces).countP_eq _

end Change

/-! ## 3. Paths -/

namespace Topology

variable [Scalar α] {limits : Thresholds α} {time : α} {traces : List (Trace α)} {g : Graph α}

omit [Scalar α] in
theorem recordCount_pathOf (id : String) (ts : List (Trace α)) :
    (pathOf id ts).recordCount = ts.length := by
  cases ts <;> rfl

/-- The paths of a graph count each trace with hops once. -/
theorem sum_recordCount_paths (h : Graph.ofTraces limits time traces = .ok g) :
    (g.paths.map PathInfo.recordCount).sum = traces.countP Trace.hasHops := by
  obtain ⟨-, -, -, hpaths, -⟩ := ofTraces_eq_ok.mp h
  have hgroups := Order.groupByText_eq Trace.pathId (traces.filter Trace.hasHops)
  have hcounts : g.paths.map PathInfo.recordCount
      = (Order.groupByText Trace.pathId (traces.filter Trace.hasHops)).map fun g =>
          g.2.countP fun _ => true := by
    rw [hpaths, hgroups, List.map_map, List.map_map]
    refine List.map_congr_left fun id _ => ?_
    simp only [Function.comp_apply, recordCount_pathOf, List.countP_true]
    rfl
  rw [hcounts, Order.sum_countP_groupByText, List.countP_true, List.countP_eq_length_filter]

end Topology

/-! ## 4. The views -/

namespace Atlas

/-- Whether a trace is asked for: it has hops, and the source and the target where these are
given. -/
def asked (source target : Option String) (trace : Trace α) : Bool :=
  trace.hasHops && (source.all (trace.source == ·) && target.all (trace.target == ·))

section Views

variable [Scalar α] (a : Atlas α) (source target : Option String)

/-- The groups of all paths count each trace that is asked for once. -/
theorem sum_traceCount_routeGroups (rule : Route.TieBreak) :
    ((a.routeGroups source target rule).map Route.Group.traceCount).sum
      = a.traces.countP (asked source target) := by
  have hpaths := Order.sum_countP_groupByText Trace.pathId Trace.hasHops (a.tracesFor source target)
  simp only [← Route.sum_traceCount_groups] at hpaths
  have hasked : (a.tracesFor source target).countP Trace.hasHops
      = a.traces.countP (asked source target) := List.countP_filter
  rw [routeGroups, Route.rank, ((Route.rankBy_perm _ rule _).map _).sum_eq, List.map_flatMap,
    List.flatMap_def, List.sum_flatten, List.map_map, ← hasked, ← Route.sum_traceCount_groups,
    ← hpaths]
  rfl

theorem sum_length_routeChanges :
    ((a.routeChanges source target).map fun report => report.observations.length).sum
      = a.traces.countP (asked source target) := by
  rw [routeChanges, Change.sum_length_detect, tracesFor, List.countP_filter]
  refine List.countP_congr fun t _ => ?_
  simp only [Change.wanted, asked, Bool.and_eq_true, Option.all_none, and_true]
  tauto

end Views

section Refreshing

variable [Scalar α] [Planar α]

/-- **No trace is lost** or counted twice.  A refresh takes in every window whose host names are
texts or absent.  After a refresh the route groups and the route changes of a source and to a target
count the traces with hops that were asked for, and the paths of the graph and the summary count all
that have hops.  Groups are listed in order of their tiers. -/
theorem refresh_conserves (a : Atlas α) (generatedAt : α) (traces : List (Trace α)) :
    (Topology.Named traces → ∃ g b, a.refresh generatedAt traces = (.ok g, b)) ∧
      ∀ g b, a.refresh generatedAt traces = (.ok g, b) →
        (∀ source target,
          (∀ rule,
            ((b.routeGroups source target rule).map Route.Group.traceCount).sum
              = traces.countP (asked source target) ∧
            (b.routeGroups source target rule).Pairwise fun x y => x.tier ≤ y.tier) ∧
          ((b.routeChanges source target).map fun report => report.observations.length).sum
            = traces.countP (asked source target)) ∧
        b.graph = some g ∧
        (g.paths.map Topology.PathInfo.recordCount).sum = traces.countP Trace.hasHops ∧
        b.summary.traceCount = traces.countP Trace.hasHops := by
  have hperm : (window traces).Perm (traces.filter Trace.hasHops) :=
    Order.ascending_perm Trace.time _
  have hwindow : (window traces).countP Trace.hasHops = traces.countP Trace.hasHops := by
    rw [hperm.countP_eq, List.countP_filter]
    simp only [Bool.and_self]
  have hasked : ∀ source target, (window traces).countP (asked source target)
      = traces.countP (asked source target) := by
    intro source target
    rw [hperm.countP_eq, List.countP_filter]
    refine List.countP_congr fun t _ => ?_
    simp only [asked, Bool.and_eq_true]
    tauto
  constructor
  · intro hnamed
    have hnamed' : Topology.Named (window traces) := fun t ht =>
      hnamed t (List.mem_filter.mp (hperm.mem_iff.mp ht)).1
    obtain ⟨g, hg⟩ := Topology.ofTraces_of_named a.limits generatedAt hnamed'
    exact ⟨g, _, refresh_of_ok hg⟩
  · intro g b hrefresh
    obtain ⟨hbuilt, hadopt⟩ := refresh_eq_ok hrefresh
    have htraces : b.traces = window traces := by
      rw [hadopt, adopt, traces_relayout]
    have hgraph : b.graph = some g := by
      rw [hadopt, adopt, graph_relayout]
    refine ⟨fun source target => ⟨fun rule => ⟨?_, Route.rank_pairwise_tier rule _⟩, ?_⟩, hgraph,
      ?_, ?_⟩
    · rw [sum_traceCount_routeGroups, htraces, hasked]
    · rw [sum_length_routeChanges, htraces, hasked]
    · rw [Topology.sum_recordCount_paths hbuilt, hwindow]
    · show b.traces.length = _
      rw [htraces, hperm.length_eq, ← List.countP_eq_length_filter]

end Refreshing

/-- Two traces of two sources and a third one without hops; the times are no numbers. -/
def untimed : List (Trace Float) :=
  [{ oneStep with time := 0.0 / 0.0 }, { oneStep with source := "8", time := 0.0 / 0.0 },
    { oneStep with hops := [] }]

theorem named_untimed : Topology.Named untimed := by decide

theorem refresh_conserves_untimed :
    ∃ g b, blank.refresh 0 untimed = (.ok g, b) ∧
      ((b.routeGroups none none .recency).map Route.Group.traceCount).sum = 2 ∧
      ((b.routeGroups (some "8") none .count).map Route.Group.traceCount).sum = 1 ∧
      (b.routeGroups none none .recency).Pairwise (fun x y => x.tier ≤ y.tier) ∧
      (g.paths.map Topology.PathInfo.recordCount).sum = 2 ∧ b.summary.traceCount = 2 := by
  obtain ⟨hexists, hconserves⟩ := refresh_conserves blank 0 untimed
  obtain ⟨g, b, hrefresh⟩ := hexists named_untimed
  obtain ⟨hviews, -, hpaths, hsummary⟩ := hconserves g b hrefresh
  obtain ⟨hall, -⟩ := hviews none none
  obtain ⟨hsource, -⟩ := hviews (some "8") none
  have htwo : untimed.countP (asked none none) = 2 := by decide +kernel
  have hone : untimed.countP (asked (some "8") none) = 1 := by decide +kernel
  have hhops : untimed.countP Trace.hasHops = 2 := by decide +kernel
  exact ⟨g, b, hrefresh, (hall .recency).1.trans htwo, (hsource .count).1.trans hone,
    (hall .recency).2, hpaths.trans hhops, hsummary.trans hhops⟩

end Atlas

end PathAtlas
