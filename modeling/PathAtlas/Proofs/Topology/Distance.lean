/-
# Distances are lengths of shortest ways

A way to a node is a walk to it from an agent, along the edges of a graph and in either direction.
The search from the agents keeps one invariant: it has found the nodes up to a distance, and its
frontier is the nodes at that distance (`Reached`).  What "at a distance" means is left open there,
as long as the nodes at the next distance are the new neighbours of those at the last one
(`Advances`); a round then keeps the invariant (`Reached.round`), and so the search finds
everything (`mem_spread`).

Least lengths of ways advance like that (`advances_ways`), for a shortest way to a node ends with
a shortest way to a neighbour.  So the search finds every node that an agent reaches, at the least
length of a way to it (`mem_agentDistances`), and the reach of a graph is the greatest of these
lengths (`isGreatest_reach`).  Loops, cycles and edges in both directions need no mention: a walk
may take them, and a shortest one does not.
-/
import Mathlib.Combinatorics.SimpleGraph.Walk.Operations
import Mathlib.Order.Bounds.Basic
import PathAtlas.Proofs.Order.Grouping
import PathAtlas.Proofs.Outcome
import PathAtlas.Topology.Distance

namespace PathAtlas.Topology

/-! ## 1. The search -/

section Search

variable {neighbours : String → List String} {At : Nat → String → Prop}

/-- At each next distance are the neighbours of what is at the last one, unless they are at a
smaller distance. -/
def Advances (neighbours : String → List String) (At : Nat → String → Prop) : Prop :=
  ∀ n id, At (n + 1) id ↔ (∃ a, At n a ∧ id ∈ neighbours a) ∧ ∀ k ≤ n, ¬ At k id

/-- Behind a distance that no node has there is nothing. -/
theorem Advances.none_beyond (h : Advances neighbours At) {d : Nat} (hd : ∀ id, ¬ At d id)
    {n : Nat} (hn : d ≤ n) (id : String) : ¬ At n id := by
  induction n, hn using Nat.le_induction generalizing id with
  | base => exact hd id
  | succ n _ ih =>
    intro hat
    obtain ⟨⟨a, ha, -⟩, -⟩ := (h n id).mp hat
    exact ih a ha

/-- Where a search stands that has come to a distance. -/
structure Reached (At : Nat → String → Prop) (d : Nat) (found frontier : List String) : Prop where
  mem_found : ∀ id, id ∈ found ↔ ∃ k ≤ d, At k id
  mem_frontier : ∀ id, id ∈ frontier ↔ At d id
  nodup : found.Nodup

/-- What is found anew from a frontier. -/
def findings (neighbours : String → List String) (found frontier : List String) : List String :=
  Order.textSet ((frontier.flatMap neighbours).filter (!found.contains ·))

section Rounds

variable {d : Nat} {found frontier : List String}

theorem Reached.mem_findings (r : Reached At d found frontier) (h : Advances neighbours At)
    (id : String) : id ∈ findings neighbours found frontier ↔ At (d + 1) id := by
  simp only [findings, Order.mem_textSet, List.mem_filter, List.mem_flatMap, Bool.not_eq_true',
    List.contains_eq_mem, decide_eq_false_iff_not, r.mem_frontier, r.mem_found, h d id, not_exists,
    not_and]

/-- One round brings the search to the next distance. -/
theorem Reached.round (r : Reached At d found frontier) (h : Advances neighbours At) :
    Reached At (d + 1) (found ++ findings neighbours found frontier)
      (findings neighbours found frontier) where
  mem_found id := by
    rw [List.mem_append, r.mem_found, r.mem_findings h]
    constructor
    · rintro (⟨k, hk, hat⟩ | hat)
      · exact ⟨k, by omega, hat⟩
      · exact ⟨d + 1, Nat.le_refl _, hat⟩
    · rintro ⟨k, hk, hat⟩
      rcases Nat.le_succ_iff.mp hk with hk | rfl
      · exact .inl ⟨k, hk, hat⟩
      · exact .inr hat
  mem_frontier := r.mem_findings h
  nodup := by
    refine r.nodup.append ((Order.textSet_pairwise _).imp fun hlt => ne_of_lt hlt) ?_
    intro id hid hid'
    obtain ⟨k, hk, hat⟩ := (r.mem_found id).mp hid
    exact ((h d id).mp ((r.mem_findings h id).mp hid')).2 k hk hat

/-- With an empty frontier the search is complete. -/
theorem Reached.none_beyond (r : Reached At d found []) (h : Advances neighbours At) {n : Nat}
    (hn : d ≤ n) (id : String) : ¬ At n id :=
  h.none_beyond (fun id hat => List.not_mem_nil ((r.mem_frontier id).mpr hat)) hn id

theorem Reached.length_le (r : Reached At d found frontier) {ids : List String}
    (hids : ∀ n id, At n id → id ∈ ids) : found.length ≤ ids.length := by
  refine (r.nodup.subperm fun id hid => ?_).length_le
  obtain ⟨k, -, hat⟩ := (r.mem_found id).mp hid
  exact hids k id hat

end Rounds

/-- **The search finds** every node from a distance on, at its distance and at no other.  Each
round but the last finds a node, so the fuel lasts if it exceeds the number of nodes that are not
found yet. -/
theorem mem_spread (h : Advances neighbours At) {ids : List String}
    (hids : ∀ n id, At n id → id ∈ ids) {fuel d : Nat} {found frontier : List String}
    (r : Reached At d found frontier)
    (hfuel : frontier = [] ∨ ids.length < found.length + fuel) {id : String} {n : Nat} :
    (id, n) ∈ spread neighbours fuel d found frontier ↔ d ≤ n ∧ At n id := by
  induction fuel generalizing d found frontier with
  | zero =>
    obtain rfl : frontier = [] := by
      have := r.length_le hids
      exact hfuel.resolve_right (by omega)
    simpa [spread] using fun hn => r.none_beyond h hn id
  | succ fuel ih =>
    rcases eq_or_ne frontier [] with rfl | hne
    · simpa [spread] using fun hn => r.none_beyond h hn id
    · have hfuel' : findings neighbours found frontier = [] ∨
          ids.length < (found ++ findings neighbours found frontier).length + fuel := by
        refine or_iff_not_imp_left.mpr fun hnew => ?_
        have hpos := List.length_pos_iff.mpr hnew
        have := hfuel.resolve_left hne
        rw [List.length_append]
        omega
      rw [spread, if_neg (by simpa using hne), List.mem_append]
      refine (or_congr_right (ih (r.round h) hfuel')).trans ?_
      simp only [List.mem_map, Prod.mk.injEq, r.mem_frontier]
      constructor
      · rintro (⟨_, hat, rfl, rfl⟩ | ⟨hn, hat⟩)
        · exact ⟨Nat.le_refl _, hat⟩
        · exact ⟨by omega, hat⟩
      · rintro ⟨hn, hat⟩
        rcases Nat.eq_or_lt_of_le hn with rfl | hlt
        · exact .inl ⟨id, hat, rfl, rfl⟩
        · exact .inr ⟨hlt, hat⟩

end Search

/-! ## 2. Ways -/

namespace Graph

variable {α : Type} {g : Graph α}

/-- The nodes of a graph, two of them joined when an edge leads from one to the other. -/
def skeleton (g : Graph α) : SimpleGraph String :=
  .fromRel fun a b => ∃ e ∈ g.edges, e.source = a ∧ e.target = b

/-- The lengths of the ways to a node: of the walks to it from some agent. -/
def ways (g : Graph α) (id : String) : Set Nat :=
  {n | ∃ agent ∈ g.nodesOf .agent, ∃ way : g.skeleton.Walk agent.id id, way.length = n}

/-- Neighbours are the other ends of the edges of a node. -/
theorem mem_neighbours {a id : String} :
    id ∈ g.neighbours a ↔
      ∃ e ∈ g.edges, e.source = a ∧ e.target = id ∨ e.source = id ∧ e.target = a := by
  simp only [neighbours, Order.mem_textSet, List.mem_map, incident, List.mem_flatMap]
  constructor
  · rintro ⟨e, ⟨e', he', hmem⟩, rfl⟩
    by_cases hs : e'.source = a <;> by_cases ht : e'.target = a <;>
      simp only [hs, ht, if_true, if_false, List.mem_append, List.mem_singleton,
        List.not_mem_nil, or_false, false_or, or_self] at hmem
    all_goals
      subst hmem
      exact ⟨e, he', by simp [hs, ht]⟩
  · rintro ⟨e, he, ⟨hs, rfl⟩ | ⟨rfl, ht⟩⟩
    · exact ⟨e, ⟨e, he, by simp [hs]⟩, by simp [hs]⟩
    · refine ⟨e, ⟨e, he, by simp [ht]⟩, ?_⟩
      split
      · rename_i hs
        rw [ht, hs]
      · rfl

theorem skeleton_adj {a id : String} : g.skeleton.Adj a id ↔ a ≠ id ∧ id ∈ g.neighbours a := by
  rw [skeleton, SimpleGraph.fromRel_adj, mem_neighbours]
  refine and_congr_right fun _ => ?_
  simp only [and_or_left, exists_or]

theorem zero_mem_ways {id : String} :
    0 ∈ g.ways id ↔ ∃ agent ∈ g.nodesOf .agent, agent.id = id := by
  constructor
  · rintro ⟨agent, hagent, way, hway⟩
    exact ⟨agent, hagent, SimpleGraph.Walk.eq_of_length_eq_zero hway⟩
  · rintro ⟨agent, hagent, rfl⟩
    exact ⟨agent, hagent, .nil, rfl⟩

/-- A way that is one step longer comes from a neighbour. -/
theorem succ_mem_ways {id : String} {n : Nat} :
    n + 1 ∈ g.ways id ↔ ∃ a, n ∈ g.ways a ∧ g.skeleton.Adj a id := by
  constructor
  · rintro ⟨agent, hagent, way, hway⟩
    cases way with
    | nil => cases hway
    | cons hadj rest =>
      obtain ⟨a, before, hlast, heq⟩ := SimpleGraph.Walk.exists_cons_eq_concat hadj rest
      rw [heq, SimpleGraph.Walk.length_concat] at hway
      exact ⟨a, ⟨agent, hagent, before, Nat.succ.inj hway⟩, hlast⟩
  · rintro ⟨a, ⟨agent, hagent, way, rfl⟩, hadj⟩
    exact ⟨agent, hagent, way.concat hadj, SimpleGraph.Walk.length_concat _ _⟩

/-- Where there is a way there is a shortest one. -/
theorem exists_isLeast_ways {id : String} {n : Nat} (h : n ∈ g.ways id) :
    ∃ d ≤ n, IsLeast (g.ways id) d := by
  classical
  exact ⟨Nat.find ⟨n, h⟩, Nat.find_le h, Nat.find_spec ⟨n, h⟩, fun _ hm => Nat.find_le hm⟩

/-- **The least lengths of ways advance** from neighbour to neighbour. -/
theorem advances_ways (g : Graph α) : Advances g.neighbours fun n id => IsLeast (g.ways id) n := by
  intro n id
  constructor
  · rintro ⟨hmem, hleast⟩
    obtain ⟨a, ha, hadj⟩ := succ_mem_ways.mp hmem
    obtain ⟨d, hd, hshortest⟩ := exists_isLeast_ways ha
    have hdn : n + 1 ≤ d + 1 := hleast (succ_mem_ways.mpr ⟨a, hshortest.1, hadj⟩)
    obtain rfl : d = n := by omega
    refine ⟨⟨a, hshortest, (skeleton_adj.mp hadj).2⟩, fun k hk hat => ?_⟩
    have := hleast hat.1
    omega
  · rintro ⟨⟨a, ha, hmem⟩, hnew⟩
    have hne : a ≠ id := by
      rintro rfl
      exact hnew n (Nat.le_refl n) ha
    refine ⟨succ_mem_ways.mpr ⟨a, ha.1, skeleton_adj.mpr ⟨hne, hmem⟩⟩, fun m hm => ?_⟩
    obtain ⟨d, hd, hshortest⟩ := exists_isLeast_ways hm
    by_contra hlt
    exact hnew d (by omega) hshortest

/-! ## 3. Distances -/

theorem checkEdges_eq_ok :
    g.checkEdges = .ok () ↔ ∀ e ∈ g.edges, e.source ∈ g.nodeIds ∧ e.target ∈ g.nodeIds := by
  rw [checkEdges, forM_eq_ok]
  refine forall₂_congr fun e _ => ?_
  by_cases hs : e.source ∈ g.nodeIds <;> by_cases ht : e.target ∈ g.nodeIds <;>
    simp [contains, hs, ht, throw, throwThe, MonadExceptOf.throw, pure, Except.pure]

/-- Ways lead to nodes. -/
theorem mem_nodeIds_of_mem_ways (h : g.checkEdges = .ok ()) {id : String} {n : Nat}
    (hn : n ∈ g.ways id) : id ∈ g.nodeIds := by
  cases n with
  | zero =>
    obtain ⟨agent, hagent, rfl⟩ := zero_mem_ways.mp hn
    exact List.mem_map_of_mem (List.mem_of_mem_filter hagent)
  | succ n =>
    obtain ⟨a, -, hadj⟩ := succ_mem_ways.mp hn
    obtain ⟨e, he, ⟨-, rfl⟩ | ⟨rfl, -⟩⟩ := mem_neighbours.mp (skeleton_adj.mp hadj).2
    · exact (checkEdges_eq_ok.mp h e he).2
    · exact (checkEdges_eq_ok.mp h e he).1

theorem isLeast_zero_ways {id : String} :
    IsLeast (g.ways id) 0 ↔ id ∈ Order.textSet ((g.nodesOf .agent).map Node.id) := by
  rw [Order.mem_textSet, List.mem_map, ← zero_mem_ways]
  exact ⟨And.left, fun h => ⟨h, fun n _ => Nat.zero_le n⟩⟩

/-- The search begins at the agents. -/
theorem reached_agents (g : Graph α) :
    Reached (fun n id => IsLeast (g.ways id) n) 0 (Order.textSet ((g.nodesOf .agent).map Node.id))
      (Order.textSet ((g.nodesOf .agent).map Node.id)) where
  mem_found id := by
    rw [← isLeast_zero_ways]
    constructor
    · exact fun hzero => ⟨0, Nat.le_refl 0, hzero⟩
    · rintro ⟨k, hk, hat⟩
      obtain rfl := Nat.le_zero.mp hk
      exact hat
  mem_frontier _ := isLeast_zero_ways.symm
  nodup := (Order.textSet_pairwise _).imp fun hlt => ne_of_lt hlt

/-- **The distances of a graph** are the least lengths of the ways from its agents. -/
theorem mem_agentDistances (h : g.checkEdges = .ok ()) {id : String} {n : Nat} :
    (id, n) ∈ g.agentDistances ↔ IsLeast (g.ways id) n := by
  have hids : ∀ n id, IsLeast (g.ways id) n → id ∈ g.nodeIds :=
    fun n id hat => mem_nodeIds_of_mem_ways h hat.1
  have hfuel : g.nodeIds.length <
      (Order.textSet ((g.nodesOf .agent).map Node.id)).length + (g.size + 1) := by
    rw [nodeIds, List.length_map, size]
    omega
  rw [agentDistances, mem_spread (advances_ways g) hids (reached_agents g) (.inr hfuel)]
  simp

/-- Looking up the distance of a node finds the only one it has. -/
theorem find?_agentDistances (h : g.checkEdges = .ok ()) {id : String} {n : Nat}
    (hn : IsLeast (g.ways id) n) :
    (g.agentDistances.find? (·.1 == id)).map Prod.snd = some n := by
  cases hfind : g.agentDistances.find? (·.1 == id) with
  | none =>
    have := List.find?_eq_none.mp hfind _ ((mem_agentDistances h).mpr hn)
    simp at this
  | some entry =>
    obtain ⟨id', m⟩ := entry
    obtain rfl : id' = id := by simpa using List.find?_some hfind
    have hm := (mem_agentDistances h).mp (List.mem_of_find?_eq_some hfind)
    rw [Option.map_some, hm.unique hn]

/-- The reach of a graph is the greatest distance, or nought. -/
theorem isGreatest_reach (h : g.checkEdges = .ok ()) :
    IsGreatest (insert 0 {d | ∃ id, IsLeast (g.ways id) d}) g.reach := by
  constructor
  · rcases Order.foldl_max_mem (g.agentDistances.map Prod.snd) 0 with hzero | hmem
    · exact .inl hzero
    · obtain ⟨⟨id, d⟩, hentry, heq⟩ := List.mem_map.mp hmem
      exact .inr ⟨id, (show d = g.reach from heq) ▸ (mem_agentDistances h).mp hentry⟩
  · rintro d (rfl | ⟨id, hd⟩)
    · exact Nat.zero_le _
    · have hmem := List.mem_map_of_mem (f := Prod.snd) ((mem_agentDistances h).mpr hd)
      exact Order.le_foldl_max hmem 0

end Graph

end PathAtlas.Topology
