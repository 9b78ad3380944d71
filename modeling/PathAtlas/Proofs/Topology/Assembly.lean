/-
# What a graph is made of

`Graph.ofTraces` takes traces in one after the other and puts down what they tell in drafts.  Here
it is taken apart: each node is made from the visits to it alone, each edge from the steps between
its ends alone, and each path from its own traces.

* `ofTraces_eq`:         a graph with its parts spelled out, whatever came in between two visits to
  a node;
* `ofTraces_eq_ok`:      the parts of a graph, one by one;
* `fails_ofTraces_iff`:  the only thing that can go wrong is a host name;
* `ofTraces_of_named`:   nothing goes wrong when every host name is a text or absent.

What a part says depends on its visits or steps, and these are counted by trace (`mem_visitsAt`,
`mem_stepsBetween`).
-/
import PathAtlas.Proofs.Order.Grouping
import PathAtlas.Proofs.Topology.HostNames
import PathAtlas.Proofs.Topology.Stops
import PathAtlas.Proofs.Topology.Visits

namespace PathAtlas.Topology

variable {α : Type}

/-! ## 1. The material of the parts -/

def visitsAt (traces : List (Trace α)) (id : String) : List (Visit α) :=
  (traces.flatMap visits).filter (·.node == id)

/-- All steps of some traces from one node to another. -/
def stepsBetween (traces : List (Trace α)) (ends : String × String) : List (Link α) :=
  (traces.flatMap links).filter fun l => (l.source, l.target) == ends

/-- The traces of a path, those without hops left out. -/
def tracesOf (traces : List (Trace α)) (pathId : String) : List (Trace α) :=
  (traces.filter Trace.hasHops).filter (·.pathId == pathId)

def nodeNames (traces : List (Trace α)) : List String :=
  Order.groupKeys (fun a b => decide (a < b)) Visit.node (traces.flatMap visits)

def edgeEnds (traces : List (Trace α)) : List (String × String) :=
  Order.groupKeys Order.pairBefore (fun l => (l.source, l.target)) (traces.flatMap links)

def pathNames (traces : List (Trace α)) : List String :=
  Order.groupKeys (fun a b => decide (a < b)) Trace.pathId (traces.filter Trace.hasHops)

theorem mem_visitsAt {traces : List (Trace α)} {id : String} {v : Visit α} :
    v ∈ visitsAt traces id ↔ ∃ t ∈ traces, v ∈ visits t ∧ v.node = id := by
  simp only [visitsAt, List.mem_filter, List.mem_flatMap, beq_iff_eq]
  constructor
  · rintro ⟨⟨t, ht, hv⟩, hid⟩
    exact ⟨t, ht, hv, hid⟩
  · rintro ⟨t, ht, hv, hid⟩
    exact ⟨⟨t, ht, hv⟩, hid⟩

theorem mem_stepsBetween {traces : List (Trace α)} {ends : String × String} {l : Link α} :
    l ∈ stepsBetween traces ends ↔ ∃ t ∈ traces, l ∈ links t ∧ (l.source, l.target) = ends := by
  simp only [stepsBetween, List.mem_filter, List.mem_flatMap, beq_iff_eq]
  constructor
  · rintro ⟨⟨t, ht, hl⟩, he⟩
    exact ⟨t, ht, hl, he⟩
  · rintro ⟨t, ht, hl, he⟩
    exact ⟨⟨t, ht, hl⟩, he⟩

/-- Nodes are the members of itineraries. -/
theorem mem_nodeNames {traces : List (Trace α)} {id : String} :
    id ∈ nodeNames traces ↔ ∃ t ∈ traces, id ∈ itinerary t := by
  simp only [nodeNames, Order.mem_groupKeys, List.map_flatMap, map_node_visits, List.mem_flatMap]

theorem nodeNames_pairwise (traces : List (Trace α)) : (nodeNames traces).Pairwise (· < ·) :=
  (Order.groupKeys_pairwise Order.isOrder_text _).imp of_decide_eq_true

/-- The steps of a trace join neighbours in its itinerary, unless these are one node. -/
theorem exists_mem_links {trace : Trace α} {u v : String} :
    (∃ l ∈ links trace, (l.source, l.target) = (u, v)) ↔ u ≠ v ∧ [u, v] <:+: itinerary trace := by
  rw [← mem_legs, ← map_node_visits, legs_map, links, linksOf_eq]
  simp only [List.mem_map, List.mem_filter, decide_eq_true_eq]
  constructor
  · rintro ⟨l, ⟨leg, ⟨hleg, hne⟩, rfl⟩, he⟩
    obtain ⟨rfl, rfl⟩ := Prod.mk.inj he
    exact ⟨hne, leg, hleg, rfl⟩
  · rintro ⟨hne, leg, hleg, he⟩
    obtain ⟨rfl, rfl⟩ := Prod.mk.inj he
    exact ⟨_, ⟨leg, ⟨hleg, hne⟩, rfl⟩, rfl⟩

/-- Edges join the nodes that follow each other in itineraries. -/
theorem mem_edgeEnds {traces : List (Trace α)} {u v : String} :
    (u, v) ∈ edgeEnds traces ↔ u ≠ v ∧ ∃ t ∈ traces, [u, v] <:+: itinerary t := by
  rw [edgeEnds, Order.mem_groupKeys, List.map_flatMap, List.mem_flatMap]
  simp only [List.mem_map, exists_mem_links]
  constructor
  · rintro ⟨t, ht, hne, h⟩
    exact ⟨hne, t, ht, h⟩
  · rintro ⟨hne, t, ht, h⟩
    exact ⟨t, ht, hne, h⟩

theorem edgeEnds_pairwise (traces : List (Trace α)) :
    (edgeEnds traces).Pairwise fun a b => Order.pairBefore a b = true :=
  Order.groupKeys_pairwise Order.isOrder_pair _

/-! ## 2. Host names -/

/-- Every host name of some traces is a text or absent. -/
def Named (traces : List (Trace α)) : Prop := ∀ t ∈ traces, ∀ hop ∈ t.hops, hop.name.IsName

instance (traces : List (Trace α)) : Decidable (Named traces) :=
  inferInstanceAs (Decidable (∀ t ∈ traces, ∀ hop ∈ t.hops, hop.name.IsName))

/-- Every host name of some traces that is a number is a finite one. -/
def FinitelyNamed (traces : List (Trace α)) : Prop :=
  ∀ t ∈ traces, ∀ hop ∈ t.hops, hop.name.IsFinite

/-- What holds of null and of all host names of traces holds of the host names of their visits. -/
theorem hostName_of_mem {p : Json → Prop} {traces : List (Trace α)} (hnull : p .null)
    (h : ∀ t ∈ traces, ∀ hop ∈ t.hops, p hop.name) {v : Visit α}
    (hv : v ∈ traces.flatMap visits) : p v.hostName := by
  obtain ⟨t, ht, hv⟩ := List.mem_flatMap.mp hv
  rcases (belongs_of_mem hv).hostName with hname | ⟨hop, hhop, hname⟩
  · exact hname ▸ hnull
  · exact hname ▸ h t ht hop hhop

theorem checkName_of_isName {name : Json} (h : name.IsName) : checkName name = .ok () := by
  unfold checkName
  split
  · cases name <;> simp_all [Json.IsName, Json.checkName]
  · rfl

/-- The host names of one node are as they should be when all are. -/
theorem Named.isName_visitsAt {traces : List (Trace α)} (h : Named traces) (id : String) :
    ∀ n ∈ (visitsAt traces id).map Visit.hostName, n.IsName := by
  intro n hn
  obtain ⟨v, hv, rfl⟩ := List.mem_map.mp hn
  exact hostName_of_mem trivial h (List.mem_filter.mp hv).1

theorem Named.checkName {traces : List (Trace α)} (h : Named traces) :
    ∀ v ∈ traces.flatMap visits, checkName v.hostName = .ok () :=
  fun _ hv => checkName_of_isName (hostName_of_mem trivial h hv)

/-! ## 3. Taking a graph apart -/

variable [Scalar α] {limits : Thresholds α} {time : α} {traces : List (Trace α)} {g : Graph α}

theorem nodeNamed_id (id : String) (visits : List (Visit α)) (hostName : Json) :
    (nodeNamed limits id visits hostName).id = id := by
  simp only [nodeNamed]
  cases roleOf visits <;> rfl

section Sorted

variable (traces)

/-- What a builder knows once it has taken in some traces. -/
def told : Builder α := Builder.past {} (traces.flatMap visits) (traces.flatMap links) traces

theorem sorted_nodes : Order.byText Prod.fst (told traces).nodes
    = (nodeNames traces).map fun id => (id, draftOf (visitsAt traces id)) := by
  have hsorted := Order.sortBy_gather (draftOf []) (fun a b : String => decide (a < b)) Visit.node
    NodeDraft.opened NodeDraft.touch (traces.flatMap visits)
  simp only [gathered_touch] at hsorted
  exact hsorted

theorem sorted_edges : Order.sortBy (fun a b => Order.pairBefore a.1 b.1) (told traces).edges
    = (edgeEnds traces).map fun ends => (ends, edgeDraftOf (stepsBetween traces ends)) := by
  have hsorted := Order.sortBy_gather {} Order.pairBefore (fun l : Link α => (l.source, l.target))
    (fun _ => {}) EdgeDraft.touch (traces.flatMap links)
  simp only [gathered_edge] at hsorted
  exact hsorted

/-- The paths in the order of their names, each with its traces. -/
theorem sorted_paths : (Order.byText Prod.fst (told traces).paths).map Prod.snd
    = (pathNames traces).map fun id => pathOf id (tracesOf traces id) := by
  have hsorted := Order.sortBy_gather (pathOf "" ([] : List (Trace α)))
    (fun a b : String => decide (a < b)) Trace.pathId openPath (fun info _ => info.counted)
    (traces.filter Trace.hasHops)
  refine (congrArg (List.map Prod.snd) hsorted).trans ?_
  rw [List.map_map]
  refine List.map_congr_left fun id hid => gathered_path _ ?_ fun t ht => ?_
  · obtain ⟨t, ht, hpath⟩ := List.mem_map.mp (Order.mem_groupKeys.mp hid)
    exact List.ne_nil_of_mem (List.mem_filter.mpr ⟨ht, beq_iff_eq.mpr hpath⟩)
  · exact eq_of_beq (List.mem_filter.mp ht).2

end Sorted

/-- **A graph with its parts spelled out.** -/
theorem ofTraces_eq (limits : Thresholds α) (time : α) (traces : List (Trace α)) :
    Graph.ofTraces limits time traces = do
      (traces.flatMap visits).forM fun v => checkName v.hostName
      let nodes ← (nodeNames traces).mapM fun id => nodeOf limits id (visitsAt traces id)
      return {
        nodes
        edges := (edgeEnds traces).map fun ends =>
          edgeOf limits (nodes.map Node.id) ends (stepsBetween traces ends)
        paths := (pathNames traces).map fun id => pathOf id (tracesOf traces id)
        generatedAt := time } := by
  rw [Graph.ofTraces, foldlM_add]
  cases (traces.flatMap visits).forM fun v => checkName v.hostName with
  | error fault => rfl
  | ok u =>
    show (told traces).build limits time = _
    rw [Builder.build, sorted_nodes, sorted_edges, sorted_paths]
    simp only [List.mapM_map, List.map_map, Function.comp_def, node_draftOf]
    rfl

/-- A node, taken from the visits to it. -/
def IsNode (limits : Thresholds α) (traces : List (Trace α)) (id : String) (node : Node α) :
    Prop :=
  ∃ hostName, leastName ((visitsAt traces id).map Visit.hostName) = .ok hostName ∧
    node = nodeNamed limits id (visitsAt traces id) hostName

theorem nodeOf_eq_ok {id : String} {node : Node α} :
    nodeOf limits id (visitsAt traces id) = .ok node ↔ IsNode limits traces id node := by
  rw [nodeOf, map_eq_ok]
  simp only [IsNode, eq_comm]

theorem map_id_of_isNode {ids : List String} {nodes : List (Node α)}
    (h : List.Forall₂ (IsNode limits traces) ids nodes) : nodes.map Node.id = ids := by
  induction h with
  | nil => rfl
  | cons hnode _ ih =>
    obtain ⟨hostName, -, rfl⟩ := hnode
    rw [List.map_cons, ih, nodeNamed_id]

/-- **The parts of a graph.** -/
theorem ofTraces_eq_ok :
    Graph.ofTraces limits time traces = .ok g ↔
      (∀ v ∈ traces.flatMap visits, checkName v.hostName = .ok ()) ∧
      List.Forall₂ (IsNode limits traces) (nodeNames traces) g.nodes ∧
      g.edges = (edgeEnds traces).map (fun ends =>
        edgeOf limits (nodeNames traces) ends (stepsBetween traces ends)) ∧
      g.paths = (pathNames traces).map (fun id => pathOf id (tracesOf traces id)) ∧
      g.generatedAt = time := by
  simp only [ofTraces_eq, bind_eq_ok, forM_eq_ok, mapM_eq_ok, nodeOf_eq_ok]
  constructor
  · rintro ⟨-, hnames, nodes, hnodes, h⟩
    obtain rfl := Except.ok.inj h
    refine ⟨hnames, hnodes, ?_, rfl, rfl⟩
    rw [map_id_of_isNode hnodes]
  · rintro ⟨hnames, hnodes, hedges, hpaths, htime⟩
    refine ⟨(), hnames, g.nodes, hnodes, ?_⟩
    rw [map_id_of_isNode hnodes, ← hedges, ← hpaths, ← htime]
    rfl

/-- **A graph fails** only for a host name that cannot be in a set, or for the host names of one
node that have no order. -/
theorem fails_ofTraces_iff :
    Fails (Graph.ofTraces limits time traces) ↔
      (∃ v ∈ traces.flatMap visits, Fails (checkName v.hostName)) ∨
      (∀ v ∈ traces.flatMap visits, checkName v.hostName = .ok ()) ∧
        ∃ id ∈ nodeNames traces,
          Fails (leastName ((visitsAt traces id).map Visit.hostName)) := by
  simp only [ofTraces_eq, fails_bind, forM_eq_ok, fails_forM, fails_mapM, nodeOf, fails_map,
    not_fails_pure, and_false, exists_false, or_false, exists_const]

/-- The nodes of a graph have the names of its traces. -/
theorem nodeIds_eq (h : Graph.ofTraces limits time traces = .ok g) :
    g.nodeIds = nodeNames traces :=
  map_id_of_isNode (ofTraces_eq_ok.mp h).2.1

/-- A node of a graph is made from the visits to it. -/
theorem isNode_of_mem (h : Graph.ofTraces limits time traces = .ok g) {node : Node α}
    (hnode : node ∈ g.nodes) : IsNode limits traces node.id node := by
  obtain ⟨i, hi, hget⟩ := List.getElem_of_mem hnode
  have hparts := (ofTraces_eq_ok.mp h).2.1
  have hi' : i < (nodeNames traces).length := hparts.length_eq ▸ hi
  have hnode := hparts.get hi' hi
  simp only [List.get_eq_getElem, hget] at hnode
  obtain ⟨hostName, hleast, rfl⟩ := hnode
  rw [nodeNamed_id]
  exact ⟨hostName, hleast, rfl⟩

/-- An edge of a graph is made from the steps between its ends. -/
theorem edge_of_mem (h : Graph.ofTraces limits time traces = .ok g) {e : Edge α}
    (he : e ∈ g.edges) :
    (e.source, e.target) ∈ edgeEnds traces ∧
      e = edgeOf limits (nodeNames traces) (e.source, e.target)
        (stepsBetween traces (e.source, e.target)) := by
  obtain ⟨-, -, hedges, -⟩ := ofTraces_eq_ok.mp h
  obtain ⟨ends, hends, rfl⟩ := List.mem_map.mp (hedges ▸ he)
  exact ⟨hends, rfl⟩

/-- **Traces whose host names are as they should be** have a graph. -/
theorem ofTraces_of_named (limits : Thresholds α) (time : α) (h : Named traces) :
    ∃ g, Graph.ofTraces limits time traces = .ok g := by
  refine not_fails_iff.mp ?_
  rw [fails_ofTraces_iff]
  rintro (⟨v, hv, hfails⟩ | ⟨-, id, -, hfails⟩)
  · rw [h.checkName v hv] at hfails
    exact not_fails_ok _ hfails
  · obtain ⟨m, hm, -⟩ := leastName_isName (h.isName_visitsAt id)
    rw [hm] at hfails
    exact not_fails_ok _ hfails

end PathAtlas.Topology
