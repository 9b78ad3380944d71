/-
# The structure of a graph

Which nodes and edges there are, where the edges point, which paths run through a part and what
kind a node is: all of that is told by the stops of the traces alone, and the host names, the
figures and the order of the traces have no say in it.

`Depicts` states it for a graph and a list of traces, and `ofTraces_depicts` proves it of every
graph that is built.  A graph is built whenever the host names are as they should be.

The two directions of `Depicts` are kept apart by its fields: nothing is in the graph that no trace
tells of, and nothing that a trace tells is left out.  Edges point at the places of their ends among
the nodes, which is checked against the row of nodes itself and not against the search that found
them.  The statement holds over any scalar, since no figure is looked at.
-/
import PathAtlas.Proofs.Topology.Assembly

namespace PathAtlas.Topology

variable {α : Type}

/-! ## 1. The role of a node -/

theorem Role.rank_higher (a b : Role) : (a.higher b).rank = max a.rank b.rank := by
  cases a <;> cases b <;> rfl

theorem Role.rank_injective {a b : Role} (h : a.rank = b.rank) : a = b := by
  cases a <;> cases b <;> simp_all [Role.rank]

theorem Role.higher_eq_or (a b : Role) : a.higher b = a ∨ a.higher b = b := by
  unfold Role.higher
  split
  · exact .inr rfl
  · exact .inl rfl

/-- The highest of some roles and one more is one of them. -/
theorem foldl_higher_mem (roles : List Role) (r : Role) :
    roles.foldl Role.higher r ∈ r :: roles := by
  induction roles generalizing r with
  | nil => simp
  | cons role roles ih =>
    rcases List.mem_cons.mp (ih (r.higher role)) with h | h
    · rw [List.foldl_cons, h]
      rcases r.higher_eq_or role with he | he <;> simp [he]
    · exact List.mem_cons_of_mem _ (List.mem_cons_of_mem _ h)

/-- It is below none of them. -/
theorem rank_le_foldl_higher (roles : List Role) (r : Role) :
    ∀ role ∈ r :: roles, role.rank ≤ (roles.foldl Role.higher r).rank := by
  induction roles generalizing r with
  | nil => simp
  | cons role roles ih =>
    have hstart := ih (r.higher role) _ List.mem_cons_self
    rw [Role.rank_higher] at hstart
    intro role' h
    rcases List.mem_cons.mp h with rfl | h
    · exact (le_max_left _ _).trans hstart
    · rcases List.mem_cons.mp h with rfl | h
      · exact (le_max_right _ _).trans hstart
      · exact ih _ _ (List.mem_cons_of_mem _ h)

/-- The role of a node that was visited is that of one visit, and no visit has a higher one. -/
theorem roleOf_spec {visits : List (Visit α)} (h : visits ≠ []) :
    (∃ v ∈ visits, v.role = roleOf visits) ∧ ∀ v ∈ visits, v.role.rank ≤ (roleOf visits).rank := by
  have hle : ∀ v ∈ visits, v.role.rank ≤ (roleOf visits).rank := fun v hv =>
    rank_le_foldl_higher _ _ _ (List.mem_cons_of_mem _ (List.mem_map_of_mem hv))
  refine ⟨?_, hle⟩
  rcases List.mem_cons.mp (foldl_higher_mem (visits.map Visit.role) .hop) with hhop | hmem
  · obtain ⟨v, hv⟩ := List.exists_mem_of_ne_nil _ h
    -- nothing is above a hop, so this visit is one as well
    have hrank := hle v hv
    rw [roleOf, hhop] at hrank
    exact ⟨v, hv, Role.rank_injective ((Nat.le_zero.mp hrank).trans (by rw [roleOf, hhop]; rfl))⟩
  · exact List.mem_map.mp hmem

/-! ## 2. What the material tells -/

theorem mem_of_mem_legs {β : Type} {x y : β} {xs : List β} (h : (x, y) ∈ legs xs) :
    x ∈ xs ∧ y ∈ xs :=
  ⟨(List.of_mem_zip h).1, List.mem_of_mem_tail (List.of_mem_zip h).2⟩

/-- A step belongs to the path of its trace. -/
theorem path_of_mem_links {trace : Trace α} {l : Link α} (h : l ∈ links trace) :
    l.path = trace.pathId := by
  rw [links, linksOf_eq] at h
  obtain ⟨leg, hleg, rfl⟩ := List.mem_map.mp h
  exact (belongs_of_mem (mem_of_mem_legs (List.mem_filter.mp hleg).1).2).path

theorem mem_stops {trace : Trace α} {s : Stop α} :
    s ∈ stops trace ↔ ∃ v ∈ visits trace, v.stop = s := by
  rw [← map_stop_visits, List.mem_map]

theorem mem_paths_visitsAt {traces : List (Trace α)} {id p : String} :
    p ∈ Order.textSet ((visitsAt traces id).map Visit.path)
      ↔ ∃ t ∈ traces, t.pathId = p ∧ id ∈ itinerary t := by
  simp only [Order.mem_textSet, List.mem_map, mem_visitsAt, ← map_node_visits]
  constructor
  · rintro ⟨v, ⟨t, ht, hv, hid⟩, rfl⟩
    exact ⟨t, ht, (belongs_of_mem hv).path.symm, v, hv, hid⟩
  · rintro ⟨t, ht, rfl, v, hv, hid⟩
    exact ⟨v, ⟨t, ht, hv, hid⟩, (belongs_of_mem hv).path⟩

/-- The paths of an edge are those of the traces that take it. -/
theorem mem_paths_stepsBetween {traces : List (Trace α)} {u v p : String} (hne : u ≠ v) :
    p ∈ Order.textSet ((stepsBetween traces (u, v)).map Link.path)
      ↔ ∃ t ∈ traces, t.pathId = p ∧ [u, v] <:+: itinerary t := by
  simp only [Order.mem_textSet, List.mem_map, mem_stepsBetween]
  constructor
  · rintro ⟨l, ⟨t, ht, hl, he⟩, rfl⟩
    exact ⟨t, ht, (path_of_mem_links hl).symm, (exists_mem_links.mp ⟨l, hl, he⟩).2⟩
  · rintro ⟨t, ht, rfl, h⟩
    obtain ⟨l, hl, he⟩ := exists_mem_links.mpr ⟨hne, h⟩
    exact ⟨l, ⟨t, ht, hl, he⟩, path_of_mem_links hl⟩

/-- Both ends of an edge are nodes. -/
theorem ends_mem_nodeNames {traces : List (Trace α)} {u v : String}
    (h : (u, v) ∈ edgeEnds traces) : u ∈ nodeNames traces ∧ v ∈ nodeNames traces := by
  obtain ⟨-, t, ht, hleg⟩ := mem_edgeEnds.mp h
  have hmem := mem_of_mem_legs (mem_legs.mpr hleg)
  exact ⟨mem_nodeNames.mpr ⟨t, ht, hmem.1⟩, mem_nodeNames.mpr ⟨t, ht, hmem.2⟩⟩

/-! ## 3. The graph -/

/-- What a graph of some traces has to look like. -/
structure Depicts (g : Graph α) (traces : List (Trace α)) : Prop where
  /-- Nodes stand in the order of their names, each once. -/
  ascending : g.nodeIds.Pairwise (· < ·)
  nodes : ∀ id, id ∈ g.nodeIds ↔ ∃ t ∈ traces, id ∈ itinerary t
  /-- There is an edge for two different nodes that follow each other in a trace. -/
  edges : ∀ u v, (u, v) ∈ g.edges.map (fun e => (e.source, e.target)) ↔
    u ≠ v ∧ ∃ t ∈ traces, [u, v] <:+: itinerary t
  edgesOnce : (g.edges.map fun e => (e.source, e.target)).Nodup
  sourceIndex : ∀ e ∈ g.edges, g.nodeIds[e.sourceIndex]? = some e.source
  targetIndex : ∀ e ∈ g.edges, g.nodeIds[e.targetIndex]? = some e.target
  nodePaths : ∀ node ∈ g.nodes, ∀ p, p ∈ node.paths ↔
    ∃ t ∈ traces, t.pathId = p ∧ node.id ∈ itinerary t
  edgePaths : ∀ e ∈ g.edges, ∀ p, p ∈ e.paths ↔
    ∃ t ∈ traces, t.pathId = p ∧ [e.source, e.target] <:+: itinerary t
  /-- A node has the role of one of the stops at it. -/
  role : ∀ node ∈ g.nodes, ∃ t ∈ traces, ∃ s ∈ stops t, s.node = node.id ∧ s.role = node.role
  /-- No stop at a node has a higher role. -/
  roleHighest : ∀ node ∈ g.nodes, ∀ t ∈ traces, ∀ s ∈ stops t, s.node = node.id →
    s.role.rank ≤ node.role.rank

variable [Scalar α]

theorem nodeNamed_paths (limits : Thresholds α) (id : String) (visits : List (Visit α))
    (hostName : Json) :
    (nodeNamed limits id visits hostName).paths = Order.textSet (visits.map Visit.path) := by
  simp only [nodeNamed]
  cases roleOf visits <;> rfl

theorem nodeNamed_role (limits : Thresholds α) (id : String) (visits : List (Visit α))
    (hostName : Json) : (nodeNamed limits id visits hostName).role = roleOf visits := by
  simp only [nodeNamed]
  cases roleOf visits <;> rfl

section Parts

variable {limits : Thresholds α} {time : α} {traces : List (Trace α)} {g : Graph α}

theorem map_ends_edges (h : Graph.ofTraces limits time traces = .ok g) :
    g.edges.map (fun e => (e.source, e.target)) = edgeEnds traces := by
  rw [(ofTraces_eq_ok.mp h).2.2.1, List.map_map]
  exact List.map_id _

/-- An edge points at the places of its ends. -/
theorem indices_of_mem (h : Graph.ofTraces limits time traces = .ok g) {e : Edge α}
    (he : e ∈ g.edges) : g.nodeIds[e.sourceIndex]? = some e.source ∧
      g.nodeIds[e.targetIndex]? = some e.target := by
  obtain ⟨hmem, hedge⟩ := edge_of_mem h he
  obtain ⟨hsource, htarget⟩ := ends_mem_nodeNames hmem
  rw [nodeIds_eq h, congrArg Edge.sourceIndex hedge, congrArg Edge.targetIndex hedge]
  exact ⟨List.getElem?_idxOf hsource, List.getElem?_idxOf htarget⟩

/-- The role of a node is the highest one of its visits, of which there is one at least. -/
theorem role_of_mem (h : Graph.ofTraces limits time traces = .ok g) {node : Node α}
    (hnode : node ∈ g.nodes) :
    (∃ v ∈ visitsAt traces node.id, v.role = node.role) ∧
      ∀ v ∈ visitsAt traces node.id, v.role.rank ≤ node.role.rank := by
  have hname : node.id ∈ g.nodeIds := List.mem_map_of_mem hnode
  obtain ⟨t, ht, hid⟩ := mem_nodeNames.mp (nodeIds_eq h ▸ hname)
  rw [← map_node_visits] at hid
  obtain ⟨v, hv, hid⟩ := List.mem_map.mp hid
  obtain ⟨hostName, -, he⟩ := isNode_of_mem h hnode
  rw [congrArg Node.role he, nodeNamed_role]
  exact roleOf_spec (List.ne_nil_of_mem (mem_visitsAt.mpr ⟨t, ht, hv, hid⟩))

end Parts

/-- **The structure of a graph.**  Traces have a graph when their host names are texts or absent,
and every graph that traces have shows their stops and nothing else. -/
theorem ofTraces_depicts (limits : Thresholds α) (time : α) (traces : List (Trace α)) :
    (Named traces → ∃ g, Graph.ofTraces limits time traces = .ok g) ∧
      ∀ g, Graph.ofTraces limits time traces = .ok g → Depicts g traces := by
  refine ⟨ofTraces_of_named limits time, fun g h => ?_⟩
  constructor
  case ascending => exact nodeIds_eq h ▸ nodeNames_pairwise traces
  case nodes => exact fun id => nodeIds_eq h ▸ mem_nodeNames
  case edges => exact fun u v => map_ends_edges h ▸ mem_edgeEnds
  case edgesOnce =>
    rw [map_ends_edges h]
    exact (edgeEnds_pairwise traces).imp fun hab he => by
      simp [he, Order.isOrder_pair.irrefl] at hab
  case sourceIndex => exact fun e he => (indices_of_mem h he).1
  case targetIndex => exact fun e he => (indices_of_mem h he).2
  case nodePaths =>
    intro node hnode p
    obtain ⟨hostName, -, he⟩ := isNode_of_mem h hnode
    rw [congrArg Node.paths he, nodeNamed_paths]
    exact mem_paths_visitsAt
  case edgePaths =>
    intro e he p
    obtain ⟨hmem, hedge⟩ := edge_of_mem h he
    rw [congrArg Edge.paths hedge]
    exact mem_paths_stepsBetween (mem_edgeEnds.mp hmem).1
  case role =>
    intro node hnode
    obtain ⟨v, hv, hrole⟩ := (role_of_mem h hnode).1
    obtain ⟨t, ht, hmem, hid⟩ := mem_visitsAt.mp hv
    exact ⟨t, ht, v.stop, mem_stops.mpr ⟨v, hmem, rfl⟩, hid, hrole⟩
  case roleHighest =>
    intro node hnode t ht s hs hid
    obtain ⟨v, hv, rfl⟩ := mem_stops.mp hs
    exact (role_of_mem h hnode).2 v (mem_visitsAt.mpr ⟨t, ht, hv, hid⟩)

/-- A trace of two steps: nobody answers at the first one, the second one is the target. -/
def twoSteps : Trace Rat where
  source := "7"
  target := "10.0.0.9"
  hops :=
    [{ ttl := .whole 1, hosts := [], loss := 100, average := none, best := none, worst := none,
       jitter := none, sent := .whole 3, received := .whole 0 },
     { ttl := .whole 2, hosts := [⟨"10.0.0.9", .text "target.example"⟩], loss := 0,
       average := some 12, best := some 11, worst := some 14, jitter := some 1,
       sent := .whole 3, received := .whole 3 }]
  time := 0

theorem named_twoSteps : Named [twoSteps] := by decide

theorem ofTraces_depicts_twoSteps :
    ∃ g, Graph.ofTraces .standard 0 [twoSteps] = .ok g ∧ Depicts g [twoSteps] := by
  obtain ⟨hexists, hdepicts⟩ := ofTraces_depicts .standard 0 [twoSteps]
  obtain ⟨g, h⟩ := hexists named_twoSteps
  exact ⟨g, h, hdepicts g h⟩

end PathAtlas.Topology
