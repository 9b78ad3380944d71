/-
# Destinations in the list and on the map

The list of destinations and the node of a destination tell of the same traces, those that end at
it, when no trace passes the node on its way (`EndsOnly`).  Of each such trace both take the loss of
the last step (`samplesAt_of_endsOnly`).  The latency they take from different steps.  The node has
that of the last step, and none when nobody answered there.  The list goes back to the last step
that was answered, which may be far from the destination.

So a trace whose last step is silent brings a latency into the list alone (`strays`).  Losses and
agents are the same in both places all the same, and everything is when these latencies leave the
mean where it is (`destinations_agree_iff`).

The figures are exact fractions here, as they are for the statistics of a graph.
-/
import PathAtlas.Atlas.Views
import PathAtlas.Proofs.Atlas.FailedRefresh
import PathAtlas.Proofs.Topology.Statistics

namespace PathAtlas

variable {α : Type}

/-! ## 1. The last step -/

namespace Trace

/-- The latency of the last step, if somebody answered there. -/
def lastLatency (trace : Trace α) : Option α := trace.hops.getLast?.bind Hop.latency

/-- Nobody answered at the last step. -/
def endsSilent (trace : Trace α) : Bool := !trace.hops.getLast?.any Hop.responds

theorem exists_last {trace : Trace α} (h : trace.hasHops = true) :
    ∃ last, trace.hops.getLast? = some last :=
  Option.isSome_iff_exists.mp (List.getLast?_isSome.mpr (by simpa [Trace.hasHops] using h))

theorem endLatency_of_endsSilent_eq_false {trace : Trace α} (h : trace.endsSilent = false) :
    trace.endLatency = trace.lastLatency := by
  obtain ⟨last, hlast, hresponds⟩ : ∃ last, trace.hops.getLast? = some last ∧
      last.responds = true := by simpa [endsSilent, Option.any_eq_true] using h
  obtain ⟨front, hfront⟩ := List.getLast?_eq_some_iff.mp hlast
  rw [lastLatency, hlast, endLatency, hfront, List.reverse_append, List.reverse_singleton,
    List.singleton_append, List.find?_cons_of_pos hresponds]
  simp [Hop.latency, hresponds]

theorem lastLatency_of_endsSilent {trace : Trace α} (h : trace.endsSilent = true) :
    trace.lastLatency = none := by
  rw [lastLatency]
  cases hlast : trace.hops.getLast? with
  | none => rfl
  | some last =>
    have hsilent : last.responds = false := by simpa [endsSilent, hlast] using h
    simp [Hop.latency, hsilent]

/-- The latencies of traces that end at a silent step, each from a step before it. -/
def strays (traces : List (Trace α)) : List α := (traces.filter endsSilent).filterMap endLatency

/-- **The latencies of last answers** are those of last steps and the strays. -/
theorem filterMap_endLatency_perm (traces : List (Trace α)) :
    (traces.filterMap endLatency).Perm (traces.filterMap lastLatency ++ strays traces) := by
  induction traces with
  | nil => exact .refl _
  | cons t traces ih =>
    cases hsilent : t.endsSilent with
    | true =>
      rw [strays, List.filter_cons_of_pos hsilent, List.filterMap_cons (f := lastLatency),
        lastLatency_of_endsSilent hsilent, List.filterMap_cons, List.filterMap_cons]
      cases t.endLatency with
      | none => exact ih
      | some x => exact (ih.cons x).trans List.perm_middle.symm
    | false =>
      have hstrays : strays (t :: traces) = strays traces := by
        rw [strays, List.filter_cons_of_neg (by simp [hsilent]), strays]
      rw [hstrays, List.filterMap_cons, List.filterMap_cons,
        endLatency_of_endsSilent_eq_false hsilent]
      cases t.lastLatency with
      | none => exact ih
      | some x => exact ih.cons x

end Trace

/-! ## 2. Where traces end -/

namespace Topology

/-- A node is in the itineraries of traces only at their ends. -/
def EndsOnly (id : String) (traces : List (Trace α)) : Prop :=
  ∀ t ∈ traces, id ∉ (itinerary t).dropLast

instance (id : String) (traces : List (Trace α)) : Decidable (EndsOnly id traces) :=
  inferInstanceAs (Decidable (∀ t ∈ traces, id ∉ (itinerary t).dropLast))

theorem stops_eq_append {trace : Trace α} {last : Hop α} (h : trace.hops.getLast? = some last) :
    ∃ way, stops trace = way ++ [endStop trace last] := by
  unfold stops
  rw [h]
  simp only
  split
  · exact ⟨_, rfl⟩
  · exact ⟨_, rfl⟩

theorem itinerary_eq_append {trace : Trace α} (h : trace.hasHops = true) :
    itinerary trace = (itinerary trace).dropLast ++ [destinationId trace] := by
  obtain ⟨last, hlast⟩ := Trace.exists_last h
  obtain ⟨way, hstops⟩ := stops_eq_append hlast
  rw [← map_node_stops, hstops, List.map_append, List.map_singleton, List.dropLast_concat]
  rfl

/-- What a trace that may only end at a node leaves there. -/
theorem samples_of_endsOnly {trace : Trace α} {id : String} (h : id ∉ (itinerary trace).dropLast) :
    ((stops trace).filter (·.node == id)).filterMap Stop.sample
      = if destinationId trace == id then (trace.hops.getLast?.map endSample).toList else [] := by
  cases hlast : trace.hops.getLast? with
  | none => simp [stops, hlast]
  | some last =>
    obtain ⟨way, hstops⟩ := stops_eq_append hlast
    rw [← map_node_stops, hstops, List.map_append, List.map_singleton, List.dropLast_concat] at h
    have hway : way.filter (·.node == id) = [] :=
      List.filter_eq_nil_iff.mpr fun s hs hid => h (List.mem_map.mpr ⟨s, hs, eq_of_beq hid⟩)
    rw [hstops, List.filter_append, hway, List.nil_append, List.filter_singleton]
    have hnode : (endStop trace last).node = destinationId trace := rfl
    rw [hnode]
    cases destinationId trace == id <;> rfl

variable {traces : List (Trace α)} {id : String}

/-- **The samples at a node** where traces only end are those of their last steps. -/
theorem samplesAt_of_endsOnly (h : EndsOnly id traces) :
    samplesAt traces id = (traces.filter (destinationId · == id)).filterMap fun t =>
      t.hops.getLast?.map endSample := by
  induction traces with
  | nil => rfl
  | cons t traces ih =>
    obtain ⟨hfirst, hrest⟩ := List.forall_mem_cons.mp h
    rw [samplesAt, List.flatMap_cons, List.filter_append, List.filterMap_append,
      samples_of_endsOnly hfirst, ← samplesAt, ih hrest, List.filter_cons]
    split
    · rw [List.filterMap_cons]
      cases t.hops.getLast? <;> rfl
    · rfl

/-- **The visitors of a node** where traces only end, none of them an agent's, are their sources. -/
theorem visitors_of_endsOnly (h : EndsOnly id traces) (hhops : ∀ t ∈ traces, t.hasHops = true)
    (hroles : ∀ v ∈ visitsAt traces id, v.role ≠ .agent) :
    visitors (visitsAt traces id)
      = Order.textSet ((traces.filter (destinationId · == id)).map Trace.source) := by
  refine Order.textSet_eq_of_mem_iff fun source => ?_
  simp only [List.mem_map, List.mem_filter, decide_eq_true_eq, beq_iff_eq]
  constructor
  · rintro ⟨v, ⟨hv, -⟩, rfl⟩
    obtain ⟨t, ht, hmem, hid⟩ := mem_visitsAt.mp hv
    have hstop : id ∈ itinerary t := by
      rw [← map_node_visits, ← hid]
      exact List.mem_map_of_mem hmem
    rw [itinerary_eq_append (hhops t ht)] at hstop
    rcases List.mem_append.mp hstop with hway | hend
    · exact absurd hway (h t ht)
    · exact ⟨t, ⟨ht, (List.mem_singleton.mp hend).symm⟩, (belongs_of_mem hmem).source.symm⟩
  · rintro ⟨t, ⟨ht, rfl⟩, rfl⟩
    have hstop : destinationId t ∈ (visits t).map Visit.node := by
      rw [map_node_visits, itinerary_eq_append (hhops t ht)]
      exact List.mem_concat_self
    obtain ⟨v, hmem, hid⟩ := List.mem_map.mp hstop
    have hv := mem_visitsAt.mpr ⟨t, ht, hmem, hid⟩
    exact ⟨v, ⟨hv, hroles v hv⟩, (belongs_of_mem hmem).source⟩

end Topology

/-! ## 3. What either shows -/

namespace Atlas

open PathAtlas.Topology

/-- An entry of the list is about the traces that end at its destination. -/
theorem mem_destinations [Scalar α] {a : Atlas α} {d : DestinationSummary α}
    (h : d ∈ a.destinations) :
    ∃ latest, (a.traces.filter (destinationId · == d.id)).getLast? = some latest ∧
      d = summarizeDestination a.limits d.id latest
        (a.traces.filter (destinationId · == d.id)) := by
  rw [destinations, Order.groupByText_eq, List.filterMap_map] at h
  obtain ⟨id, -, hd⟩ := List.mem_filterMap.mp h
  obtain ⟨latest, hlatest, rfl⟩ := Option.map_eq_some_iff.mp hd
  exact ⟨latest, hlatest, rfl⟩

/-- The statistics of the last steps of some traces. -/
theorem batch_lastSteps {ends : List (Trace Rat)} (h : ∀ t ∈ ends, t.hasHops = true) :
    Stats.batch (ends.filterMap fun t => t.hops.getLast?.map endSample)
      = { latency := Scalar.average? (ends.filterMap Trace.lastLatency)
          loss := Scalar.average? (ends.map lastLoss)
          maxLoss := (ends.map lastLoss).max?
          count := ends.length } := by
  have hlatency : (ends.filterMap fun t => t.hops.getLast?.map endSample).filterMap Sample.latency
      = ends.filterMap Trace.lastLatency := by
    rw [List.filterMap_filterMap]
    refine List.filterMap_congr fun t _ => ?_
    rw [Trace.lastLatency]
    cases t.hops.getLast? <;> rfl
  have hloss : (ends.filterMap fun t => t.hops.getLast?.map endSample).filterMap Sample.loss
      = ends.map lastLoss := by
    rw [List.filterMap_filterMap, ← List.filterMap_eq_map]
    refine List.filterMap_congr fun t ht => ?_
    obtain ⟨last, hlast⟩ := Trace.exists_last (h t ht)
    simp [hlast, endSample, lastLoss]
  have hcount : (ends.filterMap fun t => t.hops.getLast?.map endSample).length = ends.length := by
    rw [List.length_filterMap_eq_countP, List.countP_eq_length]
    intro t ht
    obtain ⟨last, hlast⟩ := Trace.exists_last (h t ht)
    simp [hlast]
  rw [Stats.batch, hlatency, hloss, hcount]

/-- What an entry of the list shows of the traces that end at its destination. -/
theorem figures_of_mem {a : Atlas Rat} {d : DestinationSummary Rat} (h : d ∈ a.destinations) :
    let ends := a.traces.filter (destinationId · == d.id)
    ends ≠ [] ∧ d.latency = Scalar.average? (ends.filterMap Trace.endLatency) ∧
      some d.loss = Scalar.average? (ends.map lastLoss) ∧
      d.status = a.limits.classify d.latency (some d.loss) ∧
      d.agentCount = (Order.textSet (ends.map Trace.source)).length := by
  obtain ⟨latest, hlatest, hd⟩ := mem_destinations h
  have hne : a.traces.filter (destinationId · == d.id) ≠ [] :=
    List.ne_nil_of_mem (List.mem_of_getLast? hlatest)
  refine ⟨hne, ?_, ?_, by rw [hd]; rfl, by rw [hd]; rfl⟩
  · rw [← Scalar.mean?_eq, hd]
    rfl
  · rw [← Scalar.mean?_eq, Scalar.mean?, if_neg (by simpa using hne), hd]
    rfl

theorem nodeNamed_of_destination [Scalar α] (limits : Thresholds α) (id : String)
    {visits : List (Visit α)} (hostName : Json) (h : roleOf visits = .destination) :
    let node := nodeNamed limits id visits hostName
    node.stats = Stats.ofSamples (visits.filterMap Visit.sample) ∧
      node.status = statusOf limits node.stats ∧ node.agents = visitors visits := by
  simp [nodeNamed, h, Node.agents]

/-- What the node of a destination shows of the traces that end at it. -/
theorem figures_of_destination {limits : Thresholds Rat} {time : Rat} {traces : List (Trace Rat)}
    {g : Graph Rat} (h : Graph.ofTraces limits time traces = .ok g)
    (hhops : ∀ t ∈ traces, t.hasHops = true) {node : Node Rat} (hnode : node ∈ g.nodes)
    (hrole : node.role = .destination) (hends : EndsOnly node.id traces) :
    let ends := traces.filter (destinationId · == node.id)
    node.stats = Stats.batch (ends.filterMap fun t => t.hops.getLast?.map endSample) ∧
      node.status = statusOf limits node.stats ∧
      node.agents = Order.textSet (ends.map Trace.source) := by
  obtain ⟨hostName, -, he⟩ := isNode_of_mem h hnode
  have hroles : ∀ v ∈ visitsAt traces node.id, v.role ≠ .agent := fun v hv hagent => by
    have hle := (role_of_mem h hnode).2 v hv
    rw [hrole, hagent] at hle
    exact absurd hle (by decide)
  have hrole : roleOf (visitsAt traces node.id) = .destination := by
    rw [← nodeNamed_role limits node.id _ hostName, ← he, hrole]
  have hshown : node.stats = Stats.ofSamples ((visitsAt traces node.id).filterMap Visit.sample) ∧
      node.status = statusOf limits node.stats ∧
      node.agents = visitors (visitsAt traces node.id) := by
    have hshown := nodeNamed_of_destination limits node.id hostName hrole
    rwa [← he] at hshown
  obtain ⟨hstats, hstatus, hagents⟩ := hshown
  refine ⟨?_, hstatus, hagents.trans (visitors_of_endsOnly hends hhops hroles)⟩
  rw [hstats, samplesAt_eq, ofSamples_eq_batch loss_of_mem_samplesAt, samplesAt_of_endsOnly hends]

/-! ## 4. The list and the map -/

/-- An entry of the list and a node of the map show the same. -/
structure Agrees (d : DestinationSummary α) (node : Node α) : Prop where
  latency : d.latency = node.stats.latency
  loss : some d.loss = node.stats.loss
  status : d.status = node.status
  agentCount : d.agentCount = node.agents.length

section Refreshing

variable [Planar Rat]

/-- **The list and the map agree** on a destination just when its strays do not move the mean.  A
refresh takes in every window whose host names are texts or absent.  Afterwards, where no trace
passes a destination on its way, its entry and its node tell of the same traces.  Their losses and
their agents are the same.  The node has the mean latency of the last steps, and the entry that of
the last answers; so all is the same when there are no strays, or when they have the same mean. -/
theorem destinations_agree_iff (a : Atlas Rat) (generatedAt : Rat) (traces : List (Trace Rat)) :
    (Named traces → ∃ g b, a.refresh generatedAt traces = (.ok g, b)) ∧
      ∀ g b, a.refresh generatedAt traces = (.ok g, b) → b.graph = some g ∧
        ∀ d ∈ b.destinations, ∀ node ∈ g.nodes, node.id = d.id → node.role = .destination →
          EndsOnly d.id traces →
          let ends := (window traces).filter (destinationId · == d.id)
          d.latency = Scalar.average? (ends.filterMap Trace.endLatency) ∧
            node.stats.latency = Scalar.average? (ends.filterMap Trace.lastLatency) ∧
            some d.loss = node.stats.loss ∧ d.agentCount = node.agents.length ∧
            (Agrees d node ↔ Trace.strays ends = [] ∨
              Scalar.average? (Trace.strays ends) = node.stats.latency) := by
  refine ⟨a.exists_refresh generatedAt, fun g b hrefresh => ?_⟩
  obtain ⟨hbuilt, htraces, hgraph, hlimits⟩ := holds_of_refresh hrefresh
  refine ⟨hgraph, fun d hd node hnode hid hrole hends => ?_⟩
  have hhops : ∀ t ∈ window traces, t.hasHops = true := fun t ht => (mem_window.mp ht).2
  have hwindow : EndsOnly node.id (window traces) := fun t ht => hid ▸ hends t (mem_window.mp ht).1
  obtain ⟨hstats, hstatus, hagents⟩ := figures_of_destination hbuilt hhops hnode hrole hwindow
  obtain ⟨hne, hlatency, hloss, hclass, hcount⟩ := figures_of_mem hd
  rw [htraces] at hne hlatency hloss hcount
  rw [hid, batch_lastSteps fun t ht => hhops t (List.mem_filter.mp ht).1] at hstats
  rw [hlimits] at hclass
  rw [hid] at hagents
  intro ends
  have hshown : node.status = a.limits.classify node.stats.latency node.stats.loss := by
    refine hstatus.trans (statusOf_of_count_ne_zero a.limits ?_)
    rw [hstats]
    exact mt List.length_eq_zero_iff.mp hne
  have hown : node.stats.latency = Scalar.average? (ends.filterMap Trace.lastLatency) := by
    rw [hstats]
  have hloss : some d.loss = node.stats.loss := by rw [hloss, hstats]
  have hcount : d.agentCount = node.agents.length := by rw [hcount, hagents]
  refine ⟨hlatency, hown, hloss, hcount, ?_⟩
  have hstrays : d.latency = node.stats.latency ↔ Trace.strays ends = [] ∨
      Scalar.average? (Trace.strays ends) = node.stats.latency := by
    rw [hlatency, hown, Scalar.average?_perm (Trace.filterMap_endLatency_perm ends),
      Scalar.average?_append_eq_left_iff]
  rw [← hstrays]
  refine ⟨Agrees.latency, fun hsame => ⟨hsame, hloss, ?_, hcount⟩⟩
  rw [hclass, hshown, hsame, hloss]

end Refreshing

/-- Fractions have no roots and no angles; a drawing in columns asks for none. -/
@[reducible]
def columnsOnly : Planar Rat where
  sqrt := id
  cos := id
  sin := id
  power := fun x _ => x
  hypot := fun x y => x + y
  pi := 3

attribute [local instance] columnsOnly

def exactBlank : Atlas Rat where
  limits := .standard
  mode := .hierarchical
  layerGap := 200
  nodeGap := 80
  pinEndpoints := true
  iterations := 0

def listed (ds : List (DestinationSummary Rat)) : List (String × Option Rat × Rat) :=
  ds.map fun d => (d.id, d.latency, d.loss)

def shown (g : Graph Rat) : List (String × Option Rat × Option Rat) :=
  (g.nodes.filter fun node => node.role == .destination).map fun node =>
    (node.id, node.stats.latency, node.stats.loss)

/-- What a refresh shows is known from its window. -/
theorem listed_and_shown {a b : Atlas Rat} {generatedAt : Rat} {traces : List (Trace Rat)}
    {g : Graph Rat} (h : a.refresh generatedAt traces = (.ok g, b)) :
    listed b.destinations
        = listed ({ a with traces := window traces } : Atlas Rat).destinations ∧
      (Graph.ofTraces a.limits generatedAt (window traces)).toOption.map shown
        = some (shown g) := by
  obtain ⟨hbuilt, htraces, -, hlimits⟩ := holds_of_refresh h
  rw [destinations, destinations, htraces, hlimits, hbuilt]
  exact ⟨rfl, rfl⟩

theorem destinations_agree_twoSteps : ∃ g b, exactBlank.refresh 0 [twoSteps] = (.ok g, b) ∧
    ∃ d ∈ b.destinations, ∃ node ∈ g.nodes, node.id = d.id ∧ node.role = .destination ∧
      EndsOnly d.id [twoSteps] ∧ Agrees d node := by
  obtain ⟨hexists, hagree⟩ := destinations_agree_iff exactBlank 0 [twoSteps]
  obtain ⟨g, b, hrefresh⟩ := hexists named_twoSteps
  obtain ⟨hlisted, hshown⟩ := listed_and_shown hrefresh
  have hlisted : ("10.0.0.9", some 12, 0) ∈ listed b.destinations := by
    rw [hlisted]
    decide +kernel
  have hshown : ("10.0.0.9", some 12, some 0) ∈ shown g := by
    have hwindow : ((Graph.ofTraces exactBlank.limits 0 (window [twoSteps])).toOption.map shown).any
        fun shown => shown.contains ("10.0.0.9", some 12, some 0) := by decide +kernel
    rw [hshown] at hwindow
    exact List.contains_iff_mem.mp hwindow
  obtain ⟨d, hd, hfigures⟩ := List.mem_map.mp hlisted
  obtain ⟨node, hnode, hfigures'⟩ := List.mem_map.mp hshown
  obtain ⟨hnode, hrole⟩ := List.mem_filter.mp hnode
  have hid : d.id = "10.0.0.9" := congrArg Prod.fst hfigures
  have hsame : node.id = d.id := (congrArg Prod.fst hfigures').trans hid.symm
  have hends : EndsOnly d.id [twoSteps] := by
    rw [hid]
    decide +kernel
  have hstrays : Trace.strays ((window [twoSteps]).filter (destinationId · == d.id)) = [] := by
    rw [hid]
    decide +kernel
  obtain ⟨-, -, -, -, hiff⟩ :=
    (hagree g b hrefresh).2 d hd node hnode hsame (eq_of_beq hrole) hends
  exact ⟨g, b, hrefresh, d, hd, node, hnode, hsame, eq_of_beq hrole, hends,
    hiff.mpr (.inl hstrays)⟩

/-- A trace whose target did not answer. -/
def silentEnd : Trace Rat :=
  { twoSteps with hops :=
      [{ ttl := .whole 1, hosts := [⟨"10.0.0.1", .null⟩], loss := 0, average := some 10
         best := some 10, worst := some 10, jitter := none
         sent := .whole 1, received := .whole 1 },
       { ttl := .whole 2, hosts := [], loss := 100, average := none, best := none, worst := none
         jitter := none, sent := .whole 1, received := .whole 0 }] }

/-- The list takes the latency of the step before the end for that of the destination. -/
theorem destinations_agree_silentEnd : EndsOnly "10.0.0.9" [silentEnd] ∧
    ∃ g b, exactBlank.refresh 0 [silentEnd] = (.ok g, b) ∧
      listed b.destinations = [("10.0.0.9", some 10, 100)] ∧
      shown g = [("10.0.0.9", none, some 100)] := by
  have hnamed : Named [silentEnd] := by decide
  obtain ⟨g, b, hrefresh⟩ := exactBlank.exists_refresh 0 hnamed
  obtain ⟨hlisted, hshown⟩ := listed_and_shown hrefresh
  refine ⟨by decide +kernel, g, b, hrefresh, hlisted.trans (by decide +kernel), ?_⟩
  refine Option.some.inj (hshown.symm.trans ?_)
  decide +kernel

end Atlas

end PathAtlas
