/-
# The order of the traces

A graph does not depend on the order in which its traces come, although almost every field of a
node is kept up to date trace by trace: the first name that is given wins, depths are compared,
roles rise, means are extended.  Each of these is known from the visits to the node as a
collection.  The first name wins over no other, because all names that are given are the same
(`VisitsOf`); the other fields are a least, a greatest, a set or a mean.

One thing can differ.  A host name that is a number may be written in several ways, and which one
is kept depends on the order (`Node.Alike`).  Host names that are texts have no such freedom.
-/
import PathAtlas.Proofs.Topology.Statistics
import PathAtlas.Proofs.Topology.ToldNames

namespace PathAtlas.Topology

variable {α : Type}

/-! ## 1. Single fields -/

theorem given_eq_some {s : Option String} {a : String} (h : given s = some a) : s = some a :=
  (Option.filter_eq_some_iff.mp h).1

/-- The first text that is given does not depend on the order when there is only one. -/
theorem firstGiven_perm {texts texts' : List (Option String)} (h : texts.Perm texts')
    (hone : ∀ a b, some a ∈ texts → some b ∈ texts → a = b) :
    firstGiven texts = firstGiven texts' := by
  have hmem : ∀ {ts : List (Option String)} {a}, firstGiven ts = some a → some a ∈ ts := by
    intro ts a ha
    obtain ⟨s, hs, hgiven⟩ := List.exists_of_findSome?_eq_some ha
    exact given_eq_some hgiven ▸ hs
  have hnone : firstGiven texts = none ↔ firstGiven texts' = none := by
    simp only [firstGiven, List.findSome?_eq_none_iff, h.mem_iff]
  cases ha : firstGiven texts with
  | none => exact (hnone.mp ha).symm
  | some a =>
    cases hb : firstGiven texts' with
    | none => simp [hnone.mpr hb] at ha
    | some b => rw [hone a b (hmem ha) (h.mem_iff.mpr (hmem hb))]

theorem leastDepth_eq (depths : List Nat) : leastDepth depths = depths.min?.getD 0 := by
  cases depths <;> rfl

theorem leastDepth_perm {depths depths' : List Nat} (h : depths.Perm depths') :
    leastDepth depths = leastDepth depths' := by
  have hmin : depths.min? = depths'.min? := by
    ext d
    simp only [List.min?_eq_some_iff, h.mem_iff]
  rw [leastDepth_eq, leastDepth_eq, hmin]

theorem roleOf_perm {vs vs' : List (Visit α)} (h : vs.Perm vs') : roleOf vs = roleOf vs' := by
  have hle : ∀ {ws ws' : List (Visit α)}, ws.Perm ws' → (roleOf ws).rank ≤ (roleOf ws').rank := by
    intro ws ws' h
    refine rank_le_foldl_higher _ _ _ ?_
    exact ((h.map _).cons _).mem_iff.mp (foldl_higher_mem _ _)
  exact Role.rank_injective (le_antisymm (hle h) (hle h.symm))

theorem visitors_perm {vs vs' : List (Visit α)} (h : vs.Perm vs') : visitors vs = visitors vs' :=
  Order.textSet_perm ((h.filter _).map _)

/-! ## 2. Nodes -/

/-- All visits are visits to one node. -/
def VisitsOf (id : String) (vs : List (Visit α)) : Prop :=
  ∀ v ∈ vs, v.node = id ∧ ∃ trace, Belongs trace v

theorem visitsOf_visitsAt (traces : List (Trace α)) (id : String) :
    VisitsOf id (visitsAt traces id) := by
  intro v hv
  obtain ⟨t, -, hmem, hid⟩ := mem_visitsAt.mp hv
  exact ⟨hid, t, belongs_of_mem hmem⟩

/-- What all visits tell in the same way has no first one. -/
theorem VisitsOf.firstGiven_perm {id : String} {vs vs' : List (Visit α)} (hvs : VisitsOf id vs)
    (h : vs.Perm vs') {field : Visit α → Option String} (spells : String → String → Prop)
    (hfield : ∀ trace v, Belongs trace v → ∀ a, field v = some a → spells a v.node)
    (hone : ∀ a b, spells a id → spells b id → a = b) :
    firstGiven (vs.map field) = firstGiven (vs'.map field) := by
  have hspells : ∀ a, some a ∈ vs.map field → spells a id := by
    intro a ha
    obtain ⟨v, hv, hva⟩ := List.mem_map.mp ha
    obtain ⟨hid, trace, hbelongs⟩ := hvs v hv
    exact hid ▸ hfield trace v hbelongs a hva
  exact Topology.firstGiven_perm (h.map _) fun a b ha hb => hone a b (hspells a ha) (hspells b hb)

section Fields

variable {id : String} {vs vs' : List (Visit α)}

theorem VisitsOf.agent_perm (hvs : VisitsOf id vs) (h : vs.Perm vs') :
    firstGiven (vs.map Visit.agent) = firstGiven (vs'.map Visit.agent) :=
  hvs.firstGiven_perm h (fun a node => node = agentId a) (fun _ _ hv => hv.agent)
    fun _ _ ha hb => agentId_inj.mp (ha.symm.trans hb)

theorem VisitsOf.target_perm (hvs : VisitsOf id vs) (h : vs.Perm vs') :
    firstGiven (vs.map Visit.target) = firstGiven (vs'.map Visit.target) :=
  hvs.firstGiven_perm h (fun t node => node = t) (fun _ _ hv => hv.target)
    fun _ _ ha hb => ha.symm.trans hb

theorem VisitsOf.address_perm (hvs : VisitsOf id vs) (h : vs.Perm vs') :
    firstGiven (vs.map Visit.address) = firstGiven (vs'.map Visit.address) :=
  hvs.firstGiven_perm h (fun a node => node = a) (fun _ _ hv => hv.address)
    fun _ _ ha hb => ha.symm.trans hb

theorem VisitsOf.scope_perm (hvs : VisitsOf id vs) (h : vs.Perm vs') :
    firstGiven (vs.map Visit.scope) = firstGiven (vs'.map Visit.scope) :=
  hvs.firstGiven_perm h (fun s node => ∃ depth, node = silentId s depth)
    (fun _ _ hv => hv.scope)
    fun _ _ ⟨_, ha⟩ ⟨_, hb⟩ => (silentId_inj.mp (ha.symm.trans hb)).1

end Fields

theorem stats_perm {samples samples' : List (Sample Rat)} (h : samples.Perm samples')
    (hloss : ∀ s ∈ samples, s.loss.isSome) :
    Stats.ofSamples samples = Stats.ofSamples samples' := by
  rw [ofSamples_eq_batch hloss, ofSamples_eq_batch fun s hs => hloss s (h.mem_iff.mpr hs),
    batch_perm h]

/-- **A node** is the same from its visits in any order. -/
theorem nodeNamed_perm (limits : Thresholds Rat) {id : String} {vs vs' : List (Visit Rat)}
    (hvs : VisitsOf id vs) (h : vs.Perm vs')
    (hloss : ∀ s ∈ vs.filterMap Visit.sample, s.loss.isSome) (hostName : Json) :
    nodeNamed limits id vs hostName = nodeNamed limits id vs' hostName := by
  simp only [nodeNamed, agentNode, roleOf_perm h, hvs.agent_perm h, hvs.target_perm h,
    hvs.address_perm h, hvs.scope_perm h, visitors_perm h, stats_perm (h.filterMap _) hloss,
    leastDepth_perm (h.filterMap Visit.depth), Order.textSet_perm (h.map Visit.path)]

/-- Details that differ at most in how a host name is written. -/
def Detail.Alike : Detail → Detail → Prop
  | .hop address name number scope agents, .hop address' name' number' scope' agents' =>
    address = address' ∧ name.Alike name' ∧ number = number' ∧ scope = scope' ∧ agents = agents'
  | .destination target name agents, .destination target' name' agents' =>
    target = target' ∧ name.Alike name' ∧ agents = agents'
  | .agent name, .agent name' => name = name'
  | _, _ => False

/-- Nodes that differ at most in how a host name is written. -/
structure Node.Alike (a b : Node α) : Prop where
  id : a.id = b.id
  label : a.label.Alike b.label
  stats : a.stats = b.stats
  paths : a.paths = b.paths
  status : a.status = b.status
  detail : a.detail.Alike b.detail

/-- Names that are alike give nodes that are. -/
theorem nodeNamed_alike [Scalar α] (limits : Thresholds α) (id : String) (vs : List (Visit α))
    {m m' : Json} (h : m.Alike m') (hpresent : m.isPresent = m'.isPresent) :
    (nodeNamed limits id vs m).Alike (nodeNamed limits id vs m') := by
  have hlabel : ∀ fallback : String,
      (if m.isPresent then m else .text fallback).Alike
        (if m'.isPresent then m' else .text fallback) := by
    intro fallback
    rw [← hpresent]
    split
    · exact h
    · exact .inl rfl
  simp only [nodeNamed]
  cases roleOf vs with
  | hop => exact ⟨rfl, hlabel _, rfl, rfl, rfl, rfl, h, rfl, rfl, rfl⟩
  | destination => exact ⟨rfl, hlabel _, rfl, rfl, rfl, rfl, h, rfl⟩
  | agent => exact ⟨rfl, .inl rfl, rfl, rfl, rfl, rfl⟩

/-! ## 3. The material of a graph -/

section Material

variable {traces traces' : List (Trace α)}

theorem visitsAt_perm (h : traces.Perm traces') (id : String) :
    (visitsAt traces id).Perm (visitsAt traces' id) := (h.flatMap_right _).filter _

theorem stepsBetween_perm (h : traces.Perm traces') (ends : String × String) :
    (stepsBetween traces ends).Perm (stepsBetween traces' ends) := (h.flatMap_right _).filter _

theorem tracesOf_perm (h : traces.Perm traces') (pathId : String) :
    (tracesOf traces pathId).Perm (tracesOf traces' pathId) := (h.filter _).filter _

theorem nodeNames_perm (h : traces.Perm traces') : nodeNames traces = nodeNames traces' :=
  Order.groupKeys_eq_of_mem_iff Order.isOrder_text fun _ => ((h.flatMap_right _).map _).mem_iff

theorem edgeEnds_perm (h : traces.Perm traces') : edgeEnds traces = edgeEnds traces' :=
  Order.groupKeys_eq_of_mem_iff Order.isOrder_pair fun _ => ((h.flatMap_right _).map _).mem_iff

theorem pathNames_perm (h : traces.Perm traces') : pathNames traces = pathNames traces' :=
  Order.groupKeys_eq_of_mem_iff Order.isOrder_text fun _ => ((h.filter _).map _).mem_iff

end Material

/-- The paths of a graph with the numbers of their traces. -/
def Graph.pathCounts (g : Graph α) : List (String × Nat) :=
  g.paths.map fun p => (p.pathId, p.recordCount)

theorem pathOf_counts (pathId : String) (traces : List (Trace α)) :
    ((pathOf pathId traces).pathId, (pathOf pathId traces).recordCount)
      = (pathId, traces.length) := by
  cases traces <;> rfl

variable {limits : Thresholds Rat} {time time' : Rat} {traces traces' : List (Trace Rat)}

/-- An edge does not depend on the order of its steps. -/
theorem edgeOf_perm (h : traces.Perm traces') {ends : String × String}
    (hends : ends ∈ edgeEnds traces) (nodeIds : List String) :
    edgeOf limits nodeIds ends (stepsBetween traces ends)
      = edgeOf limits nodeIds ends (stepsBetween traces' ends) := by
  have hsteps := stepsBetween_perm h ends
  have hloss : ∀ s ∈ (stepsBetween traces ends).filterMap Link.sample, s.loss.isSome := by
    rw [samplesBetween_eq traces (mem_edgeEnds.mp hends).1]
    exact loss_of_mem_samplesBetween
  simp only [edgeOf, stats_perm (hsteps.filterMap _) hloss,
    Order.textSet_perm (hsteps.map Link.path)]

/-- Edges and path counts of two graphs whose traces differ in their order. -/
theorem edges_perm (h : traces.Perm traces') {g g' : Graph Rat}
    (hg : Graph.ofTraces limits time traces = .ok g)
    (hg' : Graph.ofTraces limits time' traces' = .ok g') :
    g.edges = g'.edges ∧ g.pathCounts = g'.pathCounts := by
  obtain ⟨-, -, hedges, hpaths, -⟩ := ofTraces_eq_ok.mp hg
  obtain ⟨-, -, hedges', hpaths', -⟩ := ofTraces_eq_ok.mp hg'
  constructor
  · rw [hedges, hedges', ← edgeEnds_perm h, ← nodeNames_perm h]
    exact List.map_congr_left fun ends hends => edgeOf_perm h hends _
  · simp only [Graph.pathCounts, hpaths, hpaths', ← pathNames_perm h, List.map_map,
      Function.comp_def, pathOf_counts, (tracesOf_perm h _).length_eq]

/-- The host names of one node, as far as they are present, have ranks. -/
theorem ranked_of_checked (hnames : FinitelyNamed traces)
    (hcheck : ∀ v ∈ traces.flatMap visits, checkName v.hostName = .ok ()) (id : String) :
    ∀ n ∈ (visitsAt traces id).map Visit.hostName, n.isPresent = true → n.Ranked := by
  intro n hn hpresent
  obtain ⟨v, hv, rfl⟩ := List.mem_map.mp hn
  have hv := (List.mem_filter.mp hv).1
  have hfinite : v.hostName.IsFinite :=
    hostName_of_mem (p := Json.IsFinite) (fun h => by simp [Json.isNumber] at h) hnames hv
  have hchecked := hcheck v hv
  rw [checkName, if_pos hpresent] at hchecked
  exact hfinite.ranked hpresent hchecked

/-- Nodes that are made for the same names stand side by side. -/
theorem forall₂_of_isNode {related : Node Rat → Node Rat → Prop} {ids : List String}
    {nodes nodes' : List (Node Rat)} (h : List.Forall₂ (IsNode limits traces) ids nodes)
    (h' : List.Forall₂ (IsNode limits traces') ids nodes')
    (hrelated : ∀ {id node node'}, IsNode limits traces id node → IsNode limits traces' id node' →
      related node node') : List.Forall₂ related nodes nodes' := by
  induction h generalizing nodes' with
  | nil =>
    cases h'
    exact .nil
  | cons hnode _ ih =>
    cases h' with
    | cons hnode' h' => exact .cons (hrelated hnode hnode') (ih h')

/-! ## 4. The graph -/

theorem loss_of_mem_visitsAt (traces : List (Trace Rat)) (id : String) :
    ∀ s ∈ (visitsAt traces id).filterMap Visit.sample, s.loss.isSome := by
  rw [samplesAt_eq]
  exact loss_of_mem_samplesAt

/-- Nodes of one id are alike whatever the order of the visits was. -/
theorem alike_of_isNode (h : traces.Perm traces') (hnames : FinitelyNamed traces)
    (hcheck : ∀ v ∈ traces.flatMap visits, checkName v.hostName = .ok ()) {id : String}
    {node node' : Node Rat} (hnode : IsNode limits traces id node)
    (hnode' : IsNode limits traces' id node') : node.Alike node' := by
  obtain ⟨m, hm, rfl⟩ := hnode
  obtain ⟨m', hm', rfl⟩ := hnode'
  have hperm := visitsAt_perm h id
  obtain ⟨halike, hpresent⟩ :=
    leastName_alike (hperm.map Visit.hostName) (ranked_of_checked hnames hcheck id) hm hm'
  rw [← nodeNamed_perm limits (visitsOf_visitsAt traces id) hperm (loss_of_mem_visitsAt traces id)]
  exact nodeNamed_alike limits id _ halike hpresent

/-- Nodes of one id are the same whatever the order of the visits was, when all host names are
names. -/
theorem eq_of_isNode (h : traces.Perm traces') (hnames : Named traces) {id : String}
    {node node' : Node Rat} (hnode : IsNode limits traces id node)
    (hnode' : IsNode limits traces' id node') : node = node' := by
  obtain ⟨m, hm, rfl⟩ := hnode
  obtain ⟨m', hm', rfl⟩ := hnode'
  have hperm := visitsAt_perm h id
  have hname := hnames.isName_visitsAt id
  have hname' : ∀ n ∈ (visitsAt traces' id).map Visit.hostName, n.IsName :=
    fun n hn => hname n ((hperm.map Visit.hostName).mem_iff.mpr hn)
  obtain ⟨n, hn, hisName⟩ := leastName_isName hname
  obtain ⟨n', hn', hisName'⟩ := leastName_isName hname'
  obtain rfl := Except.ok.inj (hm.symm.trans hn)
  obtain rfl := Except.ok.inj (hm'.symm.trans hn')
  obtain ⟨halike, -⟩ := leastName_alike (hperm.map Visit.hostName) (ranked_of_isName hname) hm hm'
  obtain rfl := halike.eq hisName hisName'
  exact nodeNamed_perm limits (visitsOf_visitsAt traces id) hperm (loss_of_mem_visitsAt traces id) _

/-- **The order of the traces** has no say in their graph.  Where all host names are texts or
absent, there are graphs for both orders, with the same nodes, the same edges and the same numbers
of traces.  Other host names may keep the traces from having a graph, in both orders alike; when
they do not, the two graphs differ at most in how a name is written. -/
theorem ofTraces_perm (limits : Thresholds Rat) (time time' : Rat)
    {traces traces' : List (Trace Rat)} (h : traces.Perm traces') :
    (Named traces →
      ∃ g g', Graph.ofTraces limits time traces = .ok g ∧
        Graph.ofTraces limits time' traces' = .ok g' ∧
        g.nodes = g'.nodes ∧ g.edges = g'.edges ∧ g.pathCounts = g'.pathCounts) ∧
    (FinitelyNamed traces →
      (Fails (Graph.ofTraces limits time traces) ∧ Fails (Graph.ofTraces limits time' traces')) ∨
      ∃ g g', Graph.ofTraces limits time traces = .ok g ∧
        Graph.ofTraces limits time' traces' = .ok g' ∧
        List.Forall₂ Node.Alike g.nodes g'.nodes ∧
        g.edges = g'.edges ∧ g.pathCounts = g'.pathCounts) := by
  constructor
  · intro hnames
    have hnames' : Named traces' := fun t ht => hnames t (h.mem_iff.mpr ht)
    obtain ⟨g, hg⟩ := ofTraces_of_named limits time hnames
    obtain ⟨g', hg'⟩ := ofTraces_of_named limits time' hnames'
    have hnodes := (ofTraces_eq_ok.mp hg).2.1
    have hnodes' := (ofTraces_eq_ok.mp hg').2.1
    rw [← nodeNames_perm h] at hnodes'
    refine ⟨g, g', hg, hg', ?_, edges_perm h hg hg'⟩
    exact List.forall₂_eq_eq_eq ▸
      forall₂_of_isNode hnodes hnodes' fun hnode hnode' => eq_of_isNode h hnames hnode hnode'
  · intro hnames
    by_cases hf : Fails (Graph.ofTraces limits time traces)
    · exact .inl ⟨hf, (fails_ofTraces_perm h).mp hf⟩
    · obtain ⟨g, hg⟩ := not_fails_iff.mp hf
      obtain ⟨g', hg'⟩ := not_fails_iff.mp fun hf' => hf ((fails_ofTraces_perm h).mpr hf')
      have hnodes := (ofTraces_eq_ok.mp hg).2.1
      have hnodes' := (ofTraces_eq_ok.mp hg').2.1
      rw [← nodeNames_perm h] at hnodes'
      refine .inr ⟨g, g', hg, hg', ?_, edges_perm h hg hg'⟩
      exact forall₂_of_isNode hnodes hnodes' fun hnode hnode' =>
        alike_of_isNode h hnames (ofTraces_eq_ok.mp hg).1 hnode hnode'

theorem ofTraces_perm_twoSteps :
    ∃ g g', Graph.ofTraces .standard 0 [twoSteps, { twoSteps with source := "8" }] = .ok g ∧
      Graph.ofTraces .standard 1 [{ twoSteps with source := "8" }, twoSteps] = .ok g' ∧
      g.nodes = g'.nodes ∧ g.edges = g'.edges ∧ g.pathCounts = g'.pathCounts := by
  refine (ofTraces_perm .standard 0 1 (.swap _ _ _)).1 ?_
  intro t ht hop hhop
  have hhop : hop ∈ twoSteps.hops := by
    rcases List.mem_cons.mp ht with rfl | ht
    · exact hhop
    · obtain rfl := List.mem_singleton.mp ht
      exact hhop
  exact named_twoSteps twoSteps (by simp) hop hhop

end PathAtlas.Topology
