/-
# Where paths begin and end

A path is named by a source and a target, but a trace of it ends at the node of its target agent
when it has one, and two different pairs of a source and a target may be spelled alike.  So the
traces of one path need not agree on its ends, and where they do not, the first of them decides
(`path?_eq`).  All else that a highlight looks at, the roles of nodes and the paths through nodes
and edges, is the same in every order (`exists_node_perm`, `map_course_edges_perm`).

`path_ends_steady` says exactly when the order has no say: in the ends of a path when all of its
traces agree on them (`Agree`), and in the highlight of a node when the traces of each path through
it agree on whether the node stands for the path (`Settled`).  A hop stands for every path through
it, so its highlight is always the same.
-/
import PathAtlas.Highlight
import PathAtlas.Proofs.Topology.OrderIndependence

namespace PathAtlas

open PathAtlas.Topology

variable {α : Type}

namespace Topology

/-! ## 1. The first trace of a path -/

/-- Where a trace begins and ends, and whether it was run toward an agent. -/
def endsOf (trace : Trace α) : String × String × Bool :=
  (agentId trace.source, destinationId trace, trace.targetAgent.isSome)

/-- Where a path begins and ends, and whether that is at an agent. -/
def PathInfo.ends (info : PathInfo) : String × String × Bool :=
  (info.sourceNode, info.terminalNode, info.terminatesAtAgent)

/-- The traces of a path, those without hops left out, begin and end alike. -/
def Agree (traces : List (Trace α)) (pathId : String) : Prop :=
  ∀ t ∈ tracesOf traces pathId, ∀ t' ∈ tracesOf traces pathId, endsOf t = endsOf t'

/-- What a trace makes of its path when it decides. -/
def infoOf (pathId : String) (count : Nat) (trace : Trace α) : PathInfo where
  pathId
  sourceNode := agentId trace.source
  terminalNode := destinationId trace
  terminatesAtAgent := trace.targetAgent.isSome
  recordCount := count

theorem infoOf_eq_iff {pathId : String} {count : Nat} {t t' : Trace α} :
    infoOf pathId count t = infoOf pathId count t' ↔ endsOf t = endsOf t' := by
  simp [infoOf, endsOf]

/-- Elements that all look alike have the same first one in any order. -/
theorem map_head?_perm {β γ : Type} {f : β → γ} {xs ys : List β} (h : xs.Perm ys)
    (halike : ∀ a ∈ xs, ∀ b ∈ xs, f a = f b) : xs.head?.map f = ys.head?.map f := by
  cases xs with
  | nil => rw [h.nil_eq]
  | cons x xs =>
    cases ys with
    | nil => exact absurd h.eq_nil (by simp)
    | cons y ys =>
      exact congrArg some (halike x List.mem_cons_self y (h.mem_iff.mpr List.mem_cons_self))

/-- Any trace of a path can be the first one. -/
theorem exists_order {traces : List (Trace α)} {pathId : String} {t : Trace α}
    (h : t ∈ tracesOf traces pathId) :
    ∃ traces', traces.Perm traces' ∧ (tracesOf traces' pathId).head? = some t := by
  obtain ⟨hmem, hpath⟩ := List.mem_filter.mp h
  obtain ⟨hmem, hhops⟩ := List.mem_filter.mp hmem
  obtain ⟨before, after, rfl⟩ := List.append_of_mem hmem
  refine ⟨t :: (before ++ after), List.perm_middle, ?_⟩
  simp [tracesOf, hhops, eq_of_beq hpath]

theorem mem_pathNames {traces : List (Trace α)} {p : String} :
    p ∈ pathNames traces ↔ tracesOf traces p ≠ [] := by
  rw [pathNames, Order.mem_groupKeys, tracesOf, Ne, List.filter_eq_nil_iff]
  simp [and_assoc]

theorem hasHops_of_mem_itinerary {t : Trace α} {id : String} (h : id ∈ itinerary t) :
    t.hasHops = true := by
  unfold itinerary at h
  split at h
  · simp at h
  · rename_i hhops
    simpa [Trace.hasHops] using hhops

theorem mem_of_node? {g : Graph α} {id : String} {node : Node α} (hnode : g.node? id = some node) :
    node ∈ g.nodes ∧ node.id = id :=
  ⟨List.mem_reverse.mp (List.mem_of_find?_eq_some hnode), by simpa using List.find?_some hnode⟩

section Graphs

variable [Scalar α] {limits : Thresholds α} {time : α} {traces : List (Trace α)} {g : Graph α}

/-- **What a graph says of a path** is what the first of its traces makes of it. -/
theorem path?_eq (h : Graph.ofTraces limits time traces = .ok g) (p : String) :
    g.path? p = (tracesOf traces p).head?.map (infoOf p (tracesOf traces p).length) := by
  have hid : ∀ q, (pathOf q (tracesOf traces q)).pathId = q := fun q => by
    cases tracesOf traces q <;> rfl
  have hfind : (pathNames traces).reverse.find? (· == p)
      = if p ∈ pathNames traces then some p else none := by
    split
    · rename_i hmem
      obtain ⟨q, hq⟩ : ∃ q, (pathNames traces).reverse.find? (· == p) = some q :=
        Option.isSome_iff_exists.mp (List.find?_isSome.mpr ⟨p, by simpa using hmem, by simp⟩)
      obtain rfl : q = p := by simpa using List.find?_some hq
      exact hq
    · rename_i hmem
      refine List.find?_eq_none.mpr fun q hq he => hmem ?_
      exact eq_of_beq he ▸ List.mem_reverse.mp hq
  rw [Graph.path?, (ofTraces_eq_ok.mp h).2.2.2.1, ← List.map_reverse, List.find?_map]
  simp only [Function.comp_def, hid, hfind, mem_pathNames]
  cases htraces : tracesOf traces p with
  | nil => rfl
  | cons t ts => simp [htraces, pathOf, infoOf]

/-- The ends of a path in a graph are those of the first of its traces. -/
theorem ends_of_first (h : Graph.ofTraces limits time traces = .ok g) {p : String} {t : Trace α}
    (hfirst : (tracesOf traces p).head? = some t) :
    (g.path? p).map PathInfo.ends = some (endsOf t) := by
  rw [path?_eq h, hfirst]
  rfl

/-! ## 2. What does not depend on the order -/

theorem role_and_paths_of_node? (h : Graph.ofTraces limits time traces = .ok g) {id : String}
    {node : Node α} (hnode : g.node? id = some node) :
    node.role = roleOf (visitsAt traces id) ∧
      node.paths = Order.textSet ((visitsAt traces id).map Visit.path) := by
  obtain ⟨hmem, rfl⟩ := mem_of_node? hnode
  obtain ⟨hostName, -, he⟩ := isNode_of_mem h hmem
  constructor
  · rw [congrArg Node.role he, nodeNamed_role]
  · rw [congrArg Node.paths he, nodeNamed_paths]

theorem isSome_node? (h : Graph.ofTraces limits time traces = .ok g) (id : String) :
    (g.node? id).isSome ↔ id ∈ nodeNames traces := by
  rw [Graph.node?, List.find?_isSome, ← nodeIds_eq h, Graph.nodeIds, List.mem_map]
  simp

/-- A path through a node has traces. -/
theorem exists_first (h : Graph.ofTraces limits time traces = .ok g) {id : String} {node : Node α}
    (hnode : g.node? id = some node) {p : String} (hp : p ∈ node.paths) :
    ∃ t, (tracesOf traces p).head? = some t := by
  rw [(role_and_paths_of_node? h hnode).2, mem_paths_visitsAt] at hp
  obtain ⟨t, ht, rfl, hid⟩ := hp
  have hmem : t ∈ tracesOf traces t.pathId := by
    simp [tracesOf, ht, hasHops_of_mem_itinerary hid]
  exact Option.isSome_iff_exists.mp (List.isSome_head?.mpr (List.ne_nil_of_mem hmem))

/-- There is a path through every node. -/
theorem paths_ne_nil (h : Graph.ofTraces limits time traces = .ok g) {id : String} {node : Node α}
    (hnode : g.node? id = some node) : node.paths ≠ [] := by
  have hname := (isSome_node? h id).mp (Option.isSome_iff_exists.mpr ⟨node, hnode⟩)
  obtain ⟨t, ht, hid⟩ := mem_nodeNames.mp hname
  have hpath : t.pathId ∈ node.paths := by
    rw [(role_and_paths_of_node? h hnode).2, mem_paths_visitsAt]
    exact ⟨t, ht, rfl, hid⟩
  exact List.ne_nil_of_mem hpath

/-- What a highlight looks at in an edge. -/
def Edge.course (e : Edge α) : String × String × String × List String :=
  (e.id, e.source, e.target, e.paths)

theorem map_course_edges (h : Graph.ofTraces limits time traces = .ok g) :
    g.edges.map Edge.course = (edgeEnds traces).map fun ends =>
      (edgeId ends.1 ends.2, ends.1, ends.2,
        Order.textSet ((stepsBetween traces ends).map Link.path)) := by
  rw [(ofTraces_eq_ok.mp h).2.2.1, List.map_map]
  rfl

end Graphs

end Topology

namespace Highlight

/-! ## 3. What a highlight is made of -/

/-- Whether a selected node stands for a path of which a trace decides. -/
def Stands (role : Role) (id : String) (trace : Trace α) : Bool :=
  match role with
  | .agent => agentId trace.source == id && trace.targetAgent.isSome
  | .destination => destinationId trace == id
  | .hop => true

/-- The traces of a path agree on whether a selected node stands for it. -/
def Settled (traces : List (Trace α)) (role : Role) (id pathId : String) : Prop :=
  ∀ t ∈ tracesOf traces pathId, ∀ t' ∈ tracesOf traces pathId, Stands role id t = Stands role id t'

/-- A highlight holds the paths that the node selects. -/
theorem paths_ofNode (g : Graph α) (id : String) : (ofNode g id).paths = selectPaths g id := by
  unfold ofNode
  cases hnode : g.node? id with
  | none => simp only [selectPaths, hnode]
  | some node =>
    simp only
    split
    · rename_i hempty
      rw [List.isEmpty_iff] at hempty
      simp only [selectPaths, hnode, hempty]
      cases node.role <;> rfl
    · rfl

theorem map_course_edgesOn (g : Graph α) (paths : List String) :
    (edgesOn g paths).map Edge.course =
      (g.edges.map Edge.course).filter fun c => c.2.2.2.any paths.contains := by
  rw [edgesOn, List.filter_map]
  rfl

variable [Scalar α] {limits : Thresholds α} {time : α} {traces : List (Trace α)} {g g' : Graph α}
  {id : String} {node node' : Node α}

/-- The first trace of each path through a node decides whether the node stands for it. -/
theorem selectPaths_eq (h : Graph.ofTraces limits time traces = .ok g)
    (hnode : g.node? id = some node) :
    selectPaths g id =
      node.paths.filter fun p => (tracesOf traces p).head?.any (Stands node.role id) := by
  simp only [selectPaths, hnode]
  cases node.role with
  | agent =>
    refine List.filter_congr fun p _ => ?_
    rw [path?_eq h, Option.any_map]
    rfl
  | destination =>
    refine List.filter_congr fun p _ => ?_
    rw [path?_eq h, Option.any_map]
    rfl
  | hop =>
    refine (List.filter_eq_self.mpr fun p hp => ?_).symm
    obtain ⟨t, ht⟩ := exists_first h hnode hp
    rw [ht]
    rfl

/-- The edges of a highlight and their ends come from the selected paths. -/
theorem ofNode_eq (h : Graph.ofTraces limits time traces = .ok g)
    (hnode : g.node? id = some node) :
    ofNode g id =
      { node := some id
        paths := selectPaths g id
        edges := Order.textSet ((edgesOn g (selectPaths g id)).map Edge.id)
        nodes := Order.textSet (id :: (edgesOn g (selectPaths g id)).flatMap fun e =>
          [e.source, e.target]) } := by
  have hpaths : node.paths.isEmpty = false := by simpa using paths_ne_nil h hnode
  simp only [ofNode, hnode, hpaths]
  rfl

end Highlight

namespace Topology

open Highlight

/-! ## 4. Other orders -/

section Orders

variable [Scalar α] {limits : Thresholds α} {time : α} {traces traces' : List (Trace α)}
  {g g' : Graph α} {id : String} {node : Node α}

theorem exists_graph_perm (hg : Graph.ofTraces limits time traces = .ok g)
    (h : traces.Perm traces') : ∃ g', Graph.ofTraces limits time traces' = .ok g' :=
  not_fails_iff.mp ((fails_ofTraces_perm h).not.mp (not_fails_iff.mpr ⟨g, hg⟩))

variable (h : traces.Perm traces') (hg : Graph.ofTraces limits time traces = .ok g)
  (hg' : Graph.ofTraces limits time traces' = .ok g')
include h hg hg'

/-- A node has the same role and the same paths for every order. -/
theorem exists_node_perm (hnode : g.node? id = some node) :
    ∃ node', g'.node? id = some node' ∧ node'.role = node.role ∧ node'.paths = node.paths := by
  have hname := (isSome_node? hg id).mp (Option.isSome_iff_exists.mpr ⟨node, hnode⟩)
  rw [nodeNames_perm h, ← isSome_node? hg'] at hname
  obtain ⟨node', hnode'⟩ := Option.isSome_iff_exists.mp hname
  obtain ⟨hrole, hpaths⟩ := role_and_paths_of_node? hg hnode
  obtain ⟨hrole', hpaths'⟩ := role_and_paths_of_node? hg' hnode'
  refine ⟨node', hnode', ?_, ?_⟩
  · rw [hrole, hrole', roleOf_perm (visitsAt_perm h id)]
  · rw [hpaths, hpaths', Order.textSet_perm ((visitsAt_perm h id).map Visit.path)]

theorem node?_eq_none_perm (hnode : g.node? id = none) : g'.node? id = none := by
  cases hnode' : g'.node? id with
  | none => rfl
  | some node' =>
    obtain ⟨node, hsome, -⟩ := exists_node_perm h.symm hg' hg hnode'
    cases hnode.symm.trans hsome

theorem map_course_edges_perm : g'.edges.map Edge.course = g.edges.map Edge.course := by
  rw [map_course_edges hg, map_course_edges hg', ← edgeEnds_perm h]
  refine List.map_congr_left fun ends _ => ?_
  rw [Order.textSet_perm ((stepsBetween_perm h ends).map Link.path)]

/-- Where the traces of a path agree, their order has no say in its ends. -/
theorem path?_perm {p : String} (hagree : Agree traces p) : g'.path? p = g.path? p := by
  rw [path?_eq hg, path?_eq hg', (tracesOf_perm h p).length_eq]
  refine (map_head?_perm (tracesOf_perm h p) fun t ht t' ht' => ?_).symm
  exact infoOf_eq_iff.mpr (hagree t ht t' ht')

/-- A selection whose paths are settled is the same in every order. -/
theorem selectPaths_perm
    (hsettled : ∀ node, g.node? id = some node → ∀ p ∈ node.paths, Settled traces node.role id p) :
    selectPaths g' id = selectPaths g id := by
  cases hnode : g.node? id with
  | none => simp only [selectPaths, hnode, node?_eq_none_perm h hg hg' hnode]
  | some node =>
    obtain ⟨node', hnode', hrole, hpaths⟩ := exists_node_perm h hg hg' hnode
    rw [selectPaths_eq hg hnode, selectPaths_eq hg' hnode', hrole, hpaths]
    refine List.filter_congr fun p hp => ?_
    have hfirst := map_head?_perm (tracesOf_perm h p) (hsettled node hnode p hp)
    simpa only [Option.any_map] using congrArg (Option.any fun b => b) hfirst.symm

/-- A highlight depends on the order through the selected paths alone. -/
theorem ofNode_perm (hpaths : selectPaths g' id = selectPaths g id) :
    ofNode g' id = ofNode g id := by
  cases hnode : g.node? id with
  | none => simp only [ofNode, hnode, node?_eq_none_perm h hg hg' hnode]
  | some node =>
    obtain ⟨node', hnode', -⟩ := exists_node_perm h hg hg' hnode
    have hcourse : (edgesOn g' (selectPaths g id)).map Edge.course
        = (edgesOn g (selectPaths g id)).map Edge.course := by
      rw [map_course_edgesOn, map_course_edgesOn, map_course_edges_perm h hg hg']
    have hids : (edgesOn g' (selectPaths g id)).map Edge.id
        = (edgesOn g (selectPaths g id)).map Edge.id := by
      have hids := congrArg (List.map fun c => c.1) hcourse
      rwa [List.map_map, List.map_map] at hids
    have hends : ((edgesOn g' (selectPaths g id)).flatMap fun e => [e.source, e.target])
        = (edgesOn g (selectPaths g id)).flatMap fun e => [e.source, e.target] := by
      have hends := congrArg (List.flatMap fun c => [c.2.1, c.2.2.1]) hcourse
      rwa [List.flatMap_map, List.flatMap_map] at hends
    rw [ofNode_eq hg hnode, ofNode_eq hg' hnode', hpaths, hids, hends]

end Orders

/-! ## 5. Main result -/

variable [Scalar α] {limits : Thresholds α} {time : α} {traces : List (Trace α)} {g : Graph α}

/-- What is seen of a graph of some traces is the same in every order of the traces. -/
def Steady {β : Type} (limits : Thresholds α) (time : α) (traces : List (Trace α))
    (seen : Graph α → β) : Prop :=
  ∀ traces' g g', traces.Perm traces' → Graph.ofTraces limits time traces = .ok g →
    Graph.ofTraces limits time traces' = .ok g' → seen g' = seen g

theorem agree_of_steady (hg : Graph.ofTraces limits time traces = .ok g) {p : String}
    (h : Steady limits time traces (·.path? p)) : Agree traces p := by
  have hends : ∀ t ∈ tracesOf traces p, (g.path? p).map PathInfo.ends = some (endsOf t) := by
    intro t ht
    obtain ⟨traces', hperm, hfirst⟩ := exists_order ht
    obtain ⟨g', hg'⟩ := exists_graph_perm hg hperm
    have hsame : g'.path? p = g.path? p := h traces' g g' hperm hg hg'
    rw [← hsame, ends_of_first hg' hfirst]
  exact fun t ht t' ht' => Option.some.inj ((hends t ht).symm.trans (hends t' ht'))

/-- A selection that is the same in every order has settled ends. -/
theorem settled_of_steady (hg : Graph.ofTraces limits time traces = .ok g) {id : String}
    (h : Steady limits time traces (selectPaths · id)) {node : Node α}
    (hnode : g.node? id = some node) {p : String} (hp : p ∈ node.paths) :
    Settled traces node.role id p := by
  have hselected : ∀ t ∈ tracesOf traces p,
      (p ∈ selectPaths g id ↔ Stands node.role id t = true) := by
    intro t ht
    obtain ⟨traces', hperm, hfirst⟩ := exists_order ht
    obtain ⟨g', hg'⟩ := exists_graph_perm hg hperm
    obtain ⟨node', hnode', hrole, hpaths⟩ := exists_node_perm hperm hg hg' hnode
    have hsame : selectPaths g' id = selectPaths g id := h traces' g g' hperm hg hg'
    rw [← hsame, selectPaths_eq hg' hnode', List.mem_filter, hfirst, hrole, hpaths]
    exact and_iff_right hp
  exact fun t ht t' ht' => Bool.eq_iff_iff.mpr ((hselected t ht).symm.trans (hselected t' ht'))

/-- **When the order of the traces has no say in ends and highlights.**  There is a graph for every
order or for none.  A path has the same ends in all of them just when its traces agree on these,
and a node has the same highlight just when the traces of each path through it agree on whether the
node stands for the path. -/
theorem path_ends_steady (hg : Graph.ofTraces limits time traces = .ok g) :
    (∀ traces', traces.Perm traces' → ∃ g', Graph.ofTraces limits time traces' = .ok g') ∧
    (∀ p, Steady limits time traces (·.path? p) ↔ Agree traces p) ∧
    ∀ id,
      (Steady limits time traces (selectPaths · id) ↔
        ∀ node, g.node? id = some node → ∀ p ∈ node.paths, Settled traces node.role id p) ∧
      (Steady limits time traces (ofNode · id) ↔
        ∀ node, g.node? id = some node → ∀ p ∈ node.paths, Settled traces node.role id p) := by
  have hselected : ∀ id, Steady limits time traces (selectPaths · id) ↔
      ∀ node, g.node? id = some node → ∀ p ∈ node.paths, Settled traces node.role id p := by
    intro id
    constructor
    · exact fun h node hnode p hp => settled_of_steady hg h hnode hp
    · intro hsettled traces' g₁ g' hperm hg₁ hg'
      obtain rfl := Except.ok.inj (hg.symm.trans hg₁)
      exact selectPaths_perm hperm hg hg' hsettled
  refine ⟨fun traces' => exists_graph_perm hg, fun p => ⟨agree_of_steady hg, ?_⟩,
    fun id => ⟨hselected id, ?_⟩⟩
  · exact fun hagree traces' g₁ g' hperm hg₁ hg' => path?_perm hperm hg₁ hg' hagree
  · rw [← hselected id]
    constructor
    · intro h traces' g₁ g' hperm hg₁ hg'
      have hsame : ofNode g' id = ofNode g₁ id := h traces' g₁ g' hperm hg₁ hg'
      simpa only [paths_ofNode] using congrArg Highlight.paths hsame
    · intro h traces' g₁ g' hperm hg₁ hg'
      exact ofNode_perm hperm hg₁ hg' (h traces' g₁ g' hperm hg₁ hg')

/-- The two steps once more, run toward the agent at the target. -/
def towardAgent : Trace Rat := { twoSteps with targetAgent := some "9" }

/-- The same two traces in either order: the path ends at the destination or at the agent, and the
agent that it begins at stands for it or does not. -/
theorem ends_follow_order : ∃ g g',
    Graph.ofTraces .standard 0 [twoSteps, towardAgent] = .ok g ∧
      Graph.ofTraces .standard 0 [towardAgent, twoSteps] = .ok g' ∧
      (g.path? "7->10.0.0.9").map PathInfo.ends = some ("agent:7", "10.0.0.9", false) ∧
      (g'.path? "7->10.0.0.9").map PathInfo.ends = some ("agent:7", "agent:9", true) ∧
      selectPaths g "agent:7" = [] ∧ selectPaths g' "agent:7" = ["7->10.0.0.9"] ∧
      ofNode g "agent:7" ≠ ofNode g' "agent:7" := by
  obtain ⟨g, hg, hseen⟩ := exists_of_any
    (r := Graph.ofTraces .standard 0 [twoSteps, towardAgent])
    (p := fun g => decide ((g.path? "7->10.0.0.9").map PathInfo.ends
        = some ("agent:7", "10.0.0.9", false) ∧ selectPaths g "agent:7" = []))
    (by decide +kernel)
  obtain ⟨g', hg', hseen'⟩ := exists_of_any
    (r := Graph.ofTraces .standard 0 [towardAgent, twoSteps])
    (p := fun g => decide ((g.path? "7->10.0.0.9").map PathInfo.ends
        = some ("agent:7", "agent:9", true) ∧ selectPaths g "agent:7" = ["7->10.0.0.9"]))
    (by decide +kernel)
  obtain ⟨hends, hselected⟩ := of_decide_eq_true hseen
  obtain ⟨hends', hselected'⟩ := of_decide_eq_true hseen'
  refine ⟨g, g', hg, hg', hends, hends', hselected, hselected', fun hsame => ?_⟩
  have hpaths := congrArg Highlight.paths hsame
  rw [paths_ofNode, paths_ofNode, hselected, hselected'] at hpaths
  cases hpaths

/-- Of the same two traces, neither the ends of their path nor the highlight of the agent are the
same in every order; the highlight of the silent hop is. -/
theorem path_ends_steady_towardAgent :
    ¬ Steady .standard 0 [twoSteps, towardAgent] (·.path? "7->10.0.0.9") ∧
      ¬ Steady .standard 0 [twoSteps, towardAgent] (ofNode · "agent:7") ∧
      Steady .standard 0 [twoSteps, towardAgent] (ofNode · "unknown:7:1") := by
  obtain ⟨g, hg, hseen⟩ := exists_of_any
    (r := Graph.ofTraces .standard 0 [twoSteps, towardAgent])
    (p := fun g =>
      ((g.node? "agent:7").any fun n => n.role == .agent && n.paths.contains "7->10.0.0.9")
        && (g.node? "unknown:7:1").all fun n => n.role == .hop)
    (by decide +kernel)
  obtain ⟨-, hpath, hhighlight⟩ := path_ends_steady hg
  have hmem : twoSteps ∈ tracesOf [twoSteps, towardAgent] "7->10.0.0.9" :=
    List.mem_filter.mpr ⟨List.mem_filter.mpr ⟨by simp, rfl⟩, by decide⟩
  have hmem' : towardAgent ∈ tracesOf [twoSteps, towardAgent] "7->10.0.0.9" :=
    List.mem_filter.mpr ⟨List.mem_filter.mpr ⟨by simp, rfl⟩, by decide⟩
  obtain ⟨hagent, hhop⟩ := Bool.and_eq_true_iff.mp hseen
  refine ⟨fun hsteady => ?_, fun hsteady => ?_, (hhighlight _).2.mpr fun node hnode p _ => ?_⟩
  · exact absurd ((hpath _).mp hsteady _ hmem _ hmem') (by decide)
  · cases hnode : g.node? "agent:7" with
    | none => simp [hnode] at hagent
    | some node =>
      rw [hnode, Option.any_some, Bool.and_eq_true_iff, beq_iff_eq, List.contains_iff_mem] at hagent
      obtain ⟨hrole, hp⟩ := hagent
      have hsettled := (hhighlight _).2.mp hsteady node hnode _ hp _ hmem _ hmem'
      rw [hrole] at hsettled
      exact absurd hsettled (by decide)
  · rw [hnode, Option.all_some, beq_iff_eq] at hhop
    rw [hhop]
    exact fun _ _ _ _ => rfl

end Topology

end PathAtlas
