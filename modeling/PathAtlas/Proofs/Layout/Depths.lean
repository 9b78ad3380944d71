/-
# Columns are distances

The column of a node is its distance from the nearest agent, with two exceptions: a destination
stands in the last column wherever it was found, and so does what no agent reaches.  The last
column is the reach of the graph, so that nothing stands behind it.

`depths_are_distances` says this for every graph, with the distances read as least lengths of walks
and not as what the search returns.  Two cases are easily taken for others: a destination that
paths lead through still stands in the last column, although its distance counts for the nodes
behind it, and in a graph without agents everything stands in column nought.
-/
import PathAtlas.Proofs.Layout.Layered
import PathAtlas.Proofs.Topology.Distance

namespace PathAtlas.Layout

open PathAtlas.Topology

variable {α : Type} {g : Graph α}

/-! ## 1. One column -/

/-- A node of the last column: a destination. -/
theorem depthOf_destination {distances : List (String × Nat)} {deepest : Nat} {node : Node α}
    (hnode : node ∈ g.nodes) (hrole : node.role = .destination) :
    depthOf g distances deepest node.id = deepest := by
  refine if_pos (List.any_eq_true.mpr
    ⟨node, List.mem_filter.mpr ⟨hnode, ?_⟩, beq_self_eq_true node.id⟩)
  simp [hrole]

/-- No other node of a graph has the id of a node that is no destination. -/
theorem any_destination (hnodup : g.nodeIds.Nodup) {node : Node α} (hnode : node ∈ g.nodes)
    (hrole : node.role ≠ .destination) :
    (g.nodesOf .destination).any (·.id == node.id) = false := by
  refine List.any_eq_false.mpr fun other hother hid => hrole ?_
  obtain ⟨hmem, hdestination⟩ := List.mem_filter.mp hother
  obtain rfl := List.inj_on_of_nodup_map hnodup hmem hnode (eq_of_beq hid)
  exact eq_of_beq hdestination

/-- Any other node stands at its distance. -/
theorem depthOf_isLeast (hnodup : g.nodeIds.Nodup) (hedges : g.checkEdges = .ok ())
    {node : Node α} (hnode : node ∈ g.nodes) (hrole : node.role ≠ .destination) {n : Nat}
    (hn : IsLeast (g.ways node.id) n) : depthOf g g.agentDistances g.reach node.id = n := by
  rw [depthOf, any_destination hnodup hnode hrole, if_neg Bool.false_ne_true,
    Graph.find?_agentDistances hedges hn, Option.getD_some]

/-- What no agent reaches stands in the last column. -/
theorem depthOf_of_ways_eq_empty (hedges : g.checkEdges = .ok ()) {id : String}
    (h : g.ways id = ∅) : depthOf g g.agentDistances g.reach id = g.reach := by
  have hnone : g.agentDistances.find? (·.1 == id) = none := by
    refine List.find?_eq_none.mpr fun entry hentry hid => ?_
    have hleast := (Graph.mem_agentDistances hedges).mp hentry
    rw [eq_of_beq hid, h] at hleast
    exact hleast.1
  simp [depthOf, hnone]

/-- No column lies behind the last one. -/
theorem depthOf_le_reach (hedges : g.checkEdges = .ok ()) (id : String) :
    depthOf g g.agentDistances g.reach id ≤ g.reach := by
  unfold depthOf
  split
  · exact Nat.le_refl _
  · cases hfind : g.agentDistances.find? (·.1 == id) with
    | none => exact Nat.le_refl _
    | some entry =>
      obtain ⟨id', n⟩ := entry
      have hn := (Graph.mem_agentDistances hedges).mp (List.mem_of_find?_eq_some hfind)
      exact (Graph.isGreatest_reach hedges).2 (.inr ⟨id', hn⟩)

/-! ## 2. All columns -/

theorem mem_depths {id : String} {d : Nat} :
    (id, d) ∈ depths g ↔ id ∈ g.nodeIds ∧ depthOf g g.agentDistances g.reach id = d := by
  simp only [depths, List.mem_map, Order.mem_distinct, Prod.mk.injEq]
  constructor
  · rintro ⟨_, hid, rfl, hd⟩
    exact ⟨hid, hd⟩
  · rintro ⟨hid, hd⟩
    exact ⟨id, hid, rfl, hd⟩

/-- **Columns are distances.**  Every node has one column, up to a last one, the greatest distance
of any node from the nearest agent.  Agents stand in column nought, destinations and what no agent
reaches in the last column, and any other node at its distance. -/
theorem depths_are_distances (hnodup : g.nodeIds.Nodup) (hedges : g.checkEdges = .ok ()) :
    ∃ last, IsGreatest (insert 0 {d | ∃ id, IsLeast (g.ways id) d}) last ∧
      (depths g).map Prod.fst = g.nodeIds ∧
      ∀ node ∈ g.nodes, ∃ d ≤ last, (node.id, d) ∈ depths g ∧
        (node.role = .agent → d = 0) ∧
        (node.role = .destination → d = last) ∧
        (node.role ≠ .destination → ∀ n, IsLeast (g.ways node.id) n → d = n) ∧
        (g.ways node.id = ∅ → d = last) := by
  refine ⟨g.reach, Graph.isGreatest_reach hedges, ?_, fun node hnode => ?_⟩
  · rw [map_fst_depths, Order.distinct_of_nodup hnodup]
  · refine ⟨_, depthOf_le_reach hedges node.id, mem_depths.mpr ⟨List.mem_map_of_mem hnode, rfl⟩,
      fun hrole => ?_, fun hrole => depthOf_destination hnode hrole,
      fun hrole n hn => depthOf_isLeast hnodup hedges hnode hrole hn,
      fun hways => depthOf_of_ways_eq_empty hedges hways⟩
    refine depthOf_isLeast hnodup hedges hnode (by simp [hrole]) ⟨?_, fun n _ => Nat.zero_le n⟩
    exact Graph.zero_mem_ways.mpr ⟨node, List.mem_filter.mpr ⟨hnode, by simp [hrole]⟩, rfl⟩

/-- A graph with a loop, edges in both directions, a destination in the middle of a route, and a
node that no agent reaches. -/
def outpost : Graph Rat :=
  let node (id : String) (detail : Detail) : Node Rat := ⟨id, .text id, {}, [], .unknown, detail⟩
  let edge (i j : Nat) (source target : String) : Edge Rat :=
    ⟨edgeId source target, source, target, i, j, {}, [], .unknown⟩
  { nodes :=
      [node "a" (.agent "1"), node "b" (.hop none .null 1 none []),
        node "c" (.destination "c" .null []), node "d" (.hop none .null 3 none []),
        node "e" (.hop none .null 9 none [])]
    edges :=
      [edge 1 0 "b" "a", edge 1 1 "b" "b", edge 1 2 "b" "c", edge 2 1 "c" "b",
        edge 3 2 "d" "c"]
    paths := []
    generatedAt := 0 }

theorem depths_are_distances_outpost :
    (outpost.nodeIds.Nodup ∧ outpost.checkEdges = .ok ()) ∧
      depths outpost = [("a", 0), ("b", 1), ("c", 3), ("d", 3), ("e", 3)] ∧
      ∃ last, IsGreatest (insert 0 {d | ∃ id, IsLeast (outpost.ways id) d}) last ∧
        (depths outpost).map Prod.fst = outpost.nodeIds ∧
        ∀ node ∈ outpost.nodes, ∃ d ≤ last, (node.id, d) ∈ depths outpost ∧
          (node.role = .agent → d = 0) ∧
          (node.role = .destination → d = last) ∧
          (node.role ≠ .destination → ∀ n, IsLeast (outpost.ways node.id) n → d = n) ∧
          (outpost.ways node.id = ∅ → d = last) :=
  ⟨⟨by decide, by decide⟩, by decide, depths_are_distances (by decide) (by decide)⟩

end PathAtlas.Layout
