/-
# What a selection lights

A selected node lights the edges on its paths and the nodes at their ends, and no others
(`emphasizes_iff`).  For a hop these are whole routes: every node of a trace through it but itself
stands next to another one (`exists_adjacent`), so a step of the trace leads to it or away from it,
and the edge of that step is on the path of the trace.

What is lit is kept by name, though, and names are not told apart.  The name of an edge spells its
ends with an arrow between them, so two edges share a name when an end holds the arrow itself, and
a node can be named like an edge.  What shares a name with something lit is lit as well, and the
theorems here say exactly what that is.  Where names are apart (`Apart`), as they are where no node
holds the arrow (`apart_of_not_infix`), a selection lights just its paths.
-/
import PathAtlas.Proofs.Route.Signatures
import PathAtlas.Proofs.Topology.Distance
import PathAtlas.Proofs.Topology.PathEnds

namespace PathAtlas

open PathAtlas.Topology

variable {α : Type}

namespace Highlight

/-! ## 1. What is lit -/

variable {g : Graph α} {id : String} {node : Node α} {e : Edge α}

theorem mem_edgesOn {paths : List String} :
    e ∈ edgesOn g paths ↔ e ∈ g.edges ∧ ∃ p ∈ e.paths, p ∈ paths := by
  simp [edgesOn, List.any_eq_true]

/-- **A selected node lights** itself, the edges on its paths, and their ends, all by name. -/
theorem emphasizes_iff (hnode : g.node? id = some node) (hpaths : node.paths ≠ [])
    (name : String) : (ofNode g id).emphasizes name = true ↔
      name = id ∨ ∃ e ∈ edgesOn g (selectPaths g id),
        name = e.id ∨ name = e.source ∨ name = e.target := by
  have hsome : node.paths.isEmpty = false := List.isEmpty_eq_false_iff.mpr hpaths
  simp only [ofNode, hnode, hsome, emphasizes, Bool.or_eq_true, List.contains_iff_mem,
    Bool.false_eq_true, if_false, Order.mem_textSet, List.mem_map, List.mem_cons,
    List.mem_flatMap, List.not_mem_nil, or_false]
  constructor
  · rintro (⟨e, he, rfl⟩ | rfl | ⟨e, he, hend⟩)
    · exact .inr ⟨e, he, .inl rfl⟩
    · exact .inl rfl
    · exact .inr ⟨e, he, .inr hend⟩
  · rintro (rfl | ⟨e, he, rfl | hend⟩)
    · exact .inr (.inl rfl)
    · exact .inl ⟨e, he, rfl⟩
    · exact .inr (.inr ⟨e, he, hend⟩)

/-- Edges have names of their own, which are not names of nodes. -/
structure Apart (g : Graph α) : Prop where
  edges : ∀ e ∈ g.edges, ∀ e' ∈ g.edges, e.id = e'.id → e = e'
  nodes : ∀ e ∈ g.edges, e.id ∉ g.nodeIds

section Apart

variable (hapart : Apart g) (hedges : g.checkEdges = .ok ()) (hnode : g.node? id = some node)
  (hpaths : node.paths ≠ [])
include hapart hedges hnode hpaths

/-- Where names are apart, the lit edges are those on the selected paths. -/
theorem Apart.emphasizes_edge (he : e ∈ g.edges) :
    (ofNode g id).emphasizes e.id = true ↔ ∃ p ∈ e.paths, p ∈ selectPaths g id := by
  have hid : id ∈ g.nodeIds := by
    obtain ⟨hmem, rfl⟩ := mem_of_node? hnode
    exact List.mem_map_of_mem hmem
  have hend : ∀ s ∈ g.nodeIds, e.id ≠ s := fun s hs heq => hapart.nodes e he (heq ▸ hs)
  rw [emphasizes_iff hnode hpaths]
  constructor
  · rintro (heq | ⟨e', he', heq | heq | heq⟩)
    · exact absurd heq (hend id hid)
    · obtain ⟨hmem, hon⟩ := mem_edgesOn.mp he'
      exact hapart.edges e he e' hmem heq ▸ hon
    · exact absurd heq (hend _ (Graph.checkEdges_eq_ok.mp hedges e' (mem_edgesOn.mp he').1).1)
    · exact absurd heq (hend _ (Graph.checkEdges_eq_ok.mp hedges e' (mem_edgesOn.mp he').1).2)
  · exact fun hon => .inr ⟨e, mem_edgesOn.mpr ⟨he, hon⟩, .inl rfl⟩

/-- Where names are apart, the lit nodes are the selected one and the ends of lit edges. -/
theorem Apart.emphasizes_node {n : Node α} (hn : n ∈ g.nodes) :
    (ofNode g id).emphasizes n.id = true ↔
      n.id = id ∨ ∃ e ∈ g.edges, (ofNode g id).emphasizes e.id = true ∧
        (n.id = e.source ∨ n.id = e.target) := by
  rw [emphasizes_iff hnode hpaths]
  refine or_congr_right ⟨?_, ?_⟩
  · rintro ⟨e, he, heq | hend⟩
    · exact absurd (heq ▸ List.mem_map_of_mem hn) (hapart.nodes e (mem_edgesOn.mp he).1)
    · obtain ⟨hmem, hon⟩ := mem_edgesOn.mp he
      exact ⟨e, hmem, (hapart.emphasizes_edge hedges hnode hpaths hmem).mpr hon, hend⟩
  · rintro ⟨e, he, hlit, hend⟩
    have hon := (hapart.emphasizes_edge hedges hnode hpaths he).mp hlit
    exact ⟨e, mem_edgesOn.mpr ⟨he, hon⟩, .inr hend⟩

end Apart

/-! ## 2. Routes -/

/-- Among different elements each has a different one beside it. -/
theorem exists_adjacent {β : Type} {xs : List β} {u w : β} (hu : u ∈ xs) (hw : w ∈ xs)
    (hne : w ≠ u) : ∃ v, v ≠ u ∧ ([u, v] <:+: xs ∨ [v, u] <:+: xs) := by
  induction xs generalizing w with
  | nil => cases hu
  | cons a rest ih =>
    have hlater : ∀ w ∈ rest, u ∈ rest → w ≠ u →
        ∃ v, v ≠ u ∧ ([u, v] <:+: a :: rest ∨ [v, u] <:+: a :: rest) := by
      intro w hw hu hne
      obtain ⟨v, hv, hbeside⟩ := ih hu hw hne
      exact ⟨v, hv, hbeside.imp List.infix_cons List.infix_cons⟩
    cases rest with
    | nil =>
      rw [List.mem_singleton] at hu hw
      exact absurd (hw.trans hu.symm) hne
    | cons b rest =>
      have hfirst : [a, b] <:+: a :: b :: rest := ⟨[], rest, rfl⟩
      by_cases hab : a = b
      · subst hab
        have hmem : ∀ {x : β}, x ∈ a :: a :: rest → x ∈ a :: rest := by simp
        exact hlater w (hmem hw) (hmem hu) hne
      · rcases eq_or_ne u a with rfl | hua
        · exact ⟨b, Ne.symm hab, .inl hfirst⟩
        · rcases eq_or_ne u b with rfl | hub
          · exact ⟨a, hab, .inr hfirst⟩
          · have hrest := List.mem_of_ne_of_mem hua hu
            exact hlater b List.mem_cons_self hrest hub.symm

/-- Some trace takes the edge, and its path is that of a trace through a node. -/
def OnRoute (traces : List (Trace α)) (id : String) (e : Edge α) : Prop :=
  ∃ t ∈ traces, ∃ t' ∈ traces, id ∈ itinerary t ∧ t'.pathId = t.pathId ∧
    [e.source, e.target] <:+: itinerary t'

variable [Scalar α] {limits : Thresholds α} {time : α} {traces : List (Trace α)}

section Routes

variable (hg : Graph.ofTraces limits time traces = .ok g)
include hg

theorem checkEdges_ofTraces : g.checkEdges = .ok () := by
  refine Graph.checkEdges_eq_ok.mpr fun e he => ?_
  rw [nodeIds_eq hg]
  exact ends_mem_nodeNames (edge_of_mem hg he).1

theorem id_of_mem (he : e ∈ g.edges) : e.id = edgeId e.source e.target :=
  congrArg Edge.id (edge_of_mem hg he).2

/-- Where no node holds the arrow, names are apart. -/
theorem apart_of_not_infix (h : ∀ s ∈ g.nodeIds, ¬ Route.separator.toList <:+: s.toList) :
    Apart g := by
  have hends := Graph.checkEdges_eq_ok.mp (checkEdges_ofTraces hg)
  have hcut : ∀ e ∈ g.edges,
      Route.piecesOf e.id.toList = [e.source.toList, e.target.toList] := by
    intro e he
    have hspelled : e.id.toList = e.source.toList ++ Route.separator.toList ++ e.target.toList := by
      rw [id_of_mem hg he, edgeId, String.toList_append, String.toList_append]
      rfl
    rw [hspelled, Route.piecesOf_append (h _ (hends e he).1),
      Route.piecesOf_of_not_infix (h _ (hends e he).2)]
  refine ⟨fun e he e' he' heq => ?_, fun e he hmem => ?_⟩
  · have hpieces := hcut e he
    rw [heq, hcut e' he', List.cons.injEq, List.cons.injEq] at hpieces
    obtain ⟨hsource, htarget, -⟩ := hpieces
    rw [(edge_of_mem hg he).2, (edge_of_mem hg he').2, String.toList_injective hsource,
      String.toList_injective htarget]
  · have hwhole := Route.piecesOf_of_not_infix (h _ hmem)
    rw [hcut e he] at hwhole
    exact absurd (congrArg List.length hwhole) (by simp)

variable (hnode : g.node? id = some node) (hrole : node.role = .hop)
include hnode hrole

/-- The paths that a hop stands for lead along the routes through it. -/
theorem mem_edgesOn_iff_onRoute (he : e ∈ g.edges) :
    e ∈ edgesOn g (selectPaths g id) ↔ OnRoute traces id e := by
  have hdepicts := (ofTraces_depicts limits time traces).2 g hg
  obtain ⟨hmem, rfl⟩ := mem_of_node? hnode
  have hselected : selectPaths g node.id = node.paths := by simp only [selectPaths, hnode, hrole]
  simp only [mem_edgesOn, he, true_and, hselected, hdepicts.edgePaths e he,
    hdepicts.nodePaths node hmem]
  constructor
  · rintro ⟨p, ⟨t', ht', rfl, htakes⟩, t, ht, hpath, hthrough⟩
    exact ⟨t, ht, t', ht', hthrough, hpath.symm, htakes⟩
  · rintro ⟨t, ht, t', ht', hthrough, hpath, htakes⟩
    exact ⟨t'.pathId, ⟨t', ht', rfl, htakes⟩, t, ht, hpath.symm, hthrough⟩

/-- A step of a trace through a hop is on its routes. -/
theorem exists_edge_onRoute {t : Trace α} (ht : t ∈ traces) (hthrough : id ∈ itinerary t)
    {u v : String} (hne : u ≠ v) (hstep : [u, v] <:+: itinerary t) :
    ∃ e ∈ edgesOn g (selectPaths g id), e.source = u ∧ e.target = v := by
  have hdepicts := (ofTraces_depicts limits time traces).2 g hg
  obtain ⟨e, he, hends⟩ := List.mem_map.mp ((hdepicts.edges u v).mpr ⟨hne, t, ht, hstep⟩)
  obtain ⟨rfl, rfl⟩ := Prod.mk.inj hends
  have hon : OnRoute traces id e := ⟨t, ht, t, ht, hthrough, rfl, hstep⟩
  exact ⟨e, (mem_edgesOn_iff_onRoute hg hnode hrole he).mpr hon, rfl, rfl⟩

/-- **A hop lights whole routes.** -/
theorem emphasizes_route {t : Trace α} (ht : t ∈ traces) (hthrough : id ∈ itinerary t) :
    (∀ u ∈ itinerary t, (ofNode g id).emphasizes u = true) ∧
      ∀ u v, u ≠ v → [u, v] <:+: itinerary t →
        ∃ e ∈ g.edges, e.source = u ∧ e.target = v ∧ (ofNode g id).emphasizes e.id = true := by
  have hlit := emphasizes_iff hnode (paths_ne_nil hg hnode)
  have hedge : ∀ {u v : String}, u ≠ v → [u, v] <:+: itinerary t →
      ∃ e ∈ edgesOn g (selectPaths g id), e.source = u ∧ e.target = v :=
    fun hne hstep => exists_edge_onRoute hg hnode hrole ht hthrough hne hstep
  refine ⟨fun u hu => ?_, fun u v hne hstep => ?_⟩
  · rcases eq_or_ne id u with rfl | hne
    · exact (hlit _).mpr (.inl rfl)
    · obtain ⟨v, hv, hstep | hstep⟩ := exists_adjacent hu hthrough hne
      · obtain ⟨e, he, rfl, -⟩ := hedge hv.symm hstep
        exact (hlit _).mpr (.inr ⟨e, he, .inr (.inl rfl)⟩)
      · obtain ⟨e, he, -, rfl⟩ := hedge hv hstep
        exact (hlit _).mpr (.inr ⟨e, he, .inr (.inr rfl)⟩)
  · obtain ⟨e, he, hsource, htarget⟩ := hedge hne hstep
    exact ⟨e, (mem_edgesOn.mp he).1, hsource, htarget, (hlit _).mpr (.inr ⟨e, he, .inl rfl⟩)⟩

end Routes

/-! ## 3. Main result -/

/-- **A selection lights its paths.**  A node with paths lights, by name, itself and the edges on
the selected paths with their ends.  Selecting a hop lights every route through it as a whole, and
the selected paths lead along these routes and those of the same paths.  Where names are apart, and
they are where no node holds the arrow, nothing else is lit. -/
theorem highlight_follows_paths :
    (∀ (g : Graph α) (id : String) (node : Node α), g.node? id = some node → node.paths ≠ [] →
      (∀ name, (ofNode g id).emphasizes name = true ↔ name = id ∨
        ∃ e ∈ edgesOn g (selectPaths g id), name = e.id ∨ name = e.source ∨ name = e.target) ∧
      (Apart g → g.checkEdges = .ok () → ∀ e ∈ g.edges,
        ((ofNode g id).emphasizes e.id = true ↔ ∃ p ∈ e.paths, p ∈ selectPaths g id))) ∧
    ∀ (limits : Thresholds α) (time : α) (traces : List (Trace α)) (g : Graph α) (id : String)
      (node : Node α), Graph.ofTraces limits time traces = .ok g → g.node? id = some node →
        node.role = .hop →
      (∀ t ∈ traces, id ∈ itinerary t →
        (∀ u ∈ itinerary t, (ofNode g id).emphasizes u = true) ∧
        ∀ u v, u ≠ v → [u, v] <:+: itinerary t →
          ∃ e ∈ g.edges, e.source = u ∧ e.target = v ∧ (ofNode g id).emphasizes e.id = true) ∧
      (∀ e ∈ g.edges, e ∈ edgesOn g (selectPaths g id) ↔ OnRoute traces id e) ∧
      ((∀ s ∈ g.nodeIds, ¬ Route.separator.toList <:+: s.toList) → Apart g) ∧
      (Apart g →
        (∀ e ∈ g.edges, (ofNode g id).emphasizes e.id = true ↔ OnRoute traces id e) ∧
        ∀ n ∈ g.nodes, (ofNode g id).emphasizes n.id = true ↔ n.id = id ∨
          ∃ e ∈ g.edges, (ofNode g id).emphasizes e.id = true ∧
            (n.id = e.source ∨ n.id = e.target)) := by
  refine ⟨fun g id node hnode hpaths => ⟨emphasizes_iff hnode hpaths,
      fun hapart hedges e he => hapart.emphasizes_edge hedges hnode hpaths he⟩,
    fun limits time traces g id node hg hnode hrole => ⟨fun t ht hthrough =>
      emphasizes_route hg hnode hrole ht hthrough,
      fun e he => mem_edgesOn_iff_onRoute hg hnode hrole he, apart_of_not_infix hg,
      fun hapart => ⟨fun e he => ?_, fun n hn => ?_⟩⟩⟩
  · rw [hapart.emphasizes_edge (checkEdges_ofTraces hg) hnode (paths_ne_nil hg hnode) he,
      ← mem_edgesOn_iff_onRoute hg hnode hrole he, mem_edgesOn, and_iff_right he]
  · exact hapart.emphasizes_node (checkEdges_ofTraces hg) hnode (paths_ne_nil hg hnode) hn

def answering (address : String) : Hop Rat where
  ttl := .whole 1
  hosts := [⟨address, .null⟩]
  loss := 0
  average := some 12
  best := none
  worst := none
  jitter := none
  sent := .whole 3
  received := .whole 3

/-- A trace to a target that holds the arrow. -/
def toArrow : Trace Rat := { twoSteps with target := "b->c", hops := [answering "10.0.0.1"] }

/-- A trace from elsewhere, through a hop that holds the arrow. -/
def pastArrow : Trace Rat :=
  { twoSteps with source := "8", target := "c", hops := [answering "10.0.0.1->b"] }

/-- The last edges of the two traces are both named `10.0.0.1->b->c`, so a hop lights an edge that
is neither on its paths nor on its routes. -/
theorem lights_beside_route : ∃ g node,
    Graph.ofTraces .standard 0 [toArrow, pastArrow] = .ok g ∧
      g.node? "10.0.0.1" = some node ∧ node.role = .hop ∧
      ∃ e ∈ g.edges, e.source = "10.0.0.1->b" ∧ e.target = "c" ∧
        (ofNode g "10.0.0.1").emphasizes e.id = true ∧
        (∀ p ∈ e.paths, p ∉ selectPaths g "10.0.0.1") ∧
        ¬ OnRoute [toArrow, pastArrow] "10.0.0.1" e := by
  obtain ⟨g, hg, hseen⟩ := exists_of_any
    (r := Graph.ofTraces .standard 0 [toArrow, pastArrow])
    (p := fun g => ((g.node? "10.0.0.1").any fun n => n.role == .hop) &&
      g.edges.any fun e => decide (e.source = "10.0.0.1->b" ∧ e.target = "c" ∧
        (ofNode g "10.0.0.1").emphasizes e.id = true ∧
        ∀ p ∈ e.paths, p ∉ selectPaths g "10.0.0.1"))
    (by decide +kernel)
  obtain ⟨hhop, hedge⟩ := Bool.and_eq_true_iff.mp hseen
  obtain ⟨node, hnode, hrole⟩ := (Option.any_eq_true _ _).mp hhop
  obtain ⟨e, he, hlit⟩ := List.any_eq_true.mp hedge
  obtain ⟨hsource, htarget, hlit, hoff⟩ := of_decide_eq_true hlit
  refine ⟨g, node, hg, hnode, eq_of_beq hrole, e, he, hsource, htarget, hlit, hoff, fun hon => ?_⟩
  have hmem := (mem_edgesOn_iff_onRoute hg hnode (eq_of_beq hrole) he).mpr hon
  obtain ⟨-, p, hp, hselected⟩ := mem_edgesOn.mp hmem
  exact hoff p hp hselected

theorem highlight_follows_paths_twoSteps : ∃ g node,
    Graph.ofTraces .standard 0 [twoSteps] = .ok g ∧ g.node? "unknown:7:1" = some node ∧
      node.role = .hop ∧ node.paths ≠ [] ∧ Apart g ∧
      (∀ u ∈ itinerary twoSteps, (ofNode g "unknown:7:1").emphasizes u = true) ∧
      (∀ e ∈ g.edges, (ofNode g "unknown:7:1").emphasizes e.id = true ↔
        OnRoute [twoSteps] "unknown:7:1" e) ∧
      ∀ e ∈ g.edges, (ofNode g "unknown:7:1").emphasizes e.id = true ↔
        ∃ p ∈ e.paths, p ∈ selectPaths g "unknown:7:1" := by
  obtain ⟨g, hg, hseen⟩ := exists_of_any (r := Graph.ofTraces .standard 0 [twoSteps])
    (p := fun g => ((g.node? "unknown:7:1").any fun n => n.role == .hop) &&
      g.nodeIds.all fun s => decide (¬ Route.separator.toList <:+: s.toList))
    (by decide +kernel)
  obtain ⟨hhop, hplain⟩ := Bool.and_eq_true_iff.mp hseen
  obtain ⟨node, hnode, hrole⟩ := (Option.any_eq_true _ _).mp hhop
  obtain ⟨hany, htraces⟩ := highlight_follows_paths (α := Rat)
  obtain ⟨hroutes, -, hspelled, happart⟩ :=
    htraces .standard 0 [twoSteps] g _ node hg hnode (eq_of_beq hrole)
  have hapart := hspelled fun s hs => of_decide_eq_true (List.all_eq_true.mp hplain s hs)
  have hpaths := paths_ne_nil hg hnode
  refine ⟨g, node, hg, hnode, eq_of_beq hrole, hpaths, hapart, ?_, (happart hapart).1, ?_⟩
  · exact (hroutes twoSteps List.mem_cons_self (by decide)).1
  · exact (hany g _ node hnode hpaths).2 hapart (checkEdges_ofTraces hg)

end Highlight

end PathAtlas
