/-
# What is dimmed

A graph is shown in two ways, as a scene to look at and as a picture, and in both what does not
belong to the selected node is dimmed.  Each finds out for itself what that is.  A scene dims
whatever its highlight does not emphasise, and a picture does so only when its highlight emphasises
anything.

So both are alike (`Alike`) as long as the selection is a node of the graph, or there is none
(`sceneDims_eq`).  A selection that is unknown, or that a refresh has taken away, has a highlight
without anything in it: the scene dims all there is, and the picture nothing (`dims_of_unknown`).
The empty name is a selection to the picture and none to the scene.  These are the only cases in
which they differ (`scene_alike_picture_iff`).
-/
import PathAtlas.Atlas.Views
import PathAtlas.Proofs.Atlas.Lifecycle
import PathAtlas.Proofs.Drawing.Calls

namespace PathAtlas

open PathAtlas.Topology

variable {α : Type}

/-! ## 1. What is drawn -/

namespace Drawing

/-- The nodes that a call draws faintly, or those that it does not. -/
def Call.nodesDrawn (faint : Bool) : Call α → List String
  | .drawNodes _ batch =>
    if (batch.opacity == dimOpacity) == faint then batch.nodes.map Prod.fst else []
  | _ => []

/-- The ends of the edges that a call draws faintly, or of those that it does not. -/
def Call.edgesDrawn (faint : Bool) : Call α → List (String × String)
  | .drawEdges _ batch =>
    if (batch.opacity == dimOpacity) == faint then batch.edges.map Prod.fst else []
  | _ => []

theorem nodesDrawn_eq (faint : Bool) (call : Call α) : call.nodesDrawn faint
    = (call.marks.filter fun m => (m.opacity == dimOpacity) == faint).map Mark.id := by
  cases call with
  | drawNodes points batch =>
    by_cases h : ((batch.opacity == dimOpacity) == faint) = true
    · simp [Call.nodesDrawn, Call.marks, NodeBatch.marks, List.filter_map, Function.comp_def, h]
    · simp [Call.nodesDrawn, Call.marks, NodeBatch.marks, List.filter_map, Function.comp_def, h]
  | _ => rfl

theorem edgesDrawn_eq (faint : Bool) (call : Call α) : call.edgesDrawn faint
    = (call.lines.filter fun l => (l.opacity == dimOpacity) == faint).map
        fun l => (l.source, l.target) := by
  cases call with
  | drawEdges points batch =>
    by_cases h : ((batch.opacity == dimOpacity) == faint) = true
    · simp [Call.edgesDrawn, Call.lines, EdgeBatch.lines, List.filter_map, Function.comp_def, h]
    · simp [Call.edgesDrawn, Call.lines, EdgeBatch.lines, List.filter_map, Function.comp_def, h]
  | _ => rfl

section Calls

variable [Scalar α] {g : Graph α} {highlight : Option Highlight} (faint : Bool)
  {positions : Layout.Positions α} {canvas : Canvas}

/-- **A picture** draws every node and every edge once, and faintly what the highlight dims. -/
theorem drawn_picture (hnodes : g.nodes ≠ []) {calls : List (Call α)}
    (h : picture (some g) positions highlight canvas = .ok calls) :
    (calls.flatMap (Call.nodesDrawn faint)).Perm
        ((g.nodes.filter fun n => Highlight.dims highlight n.id == faint).map Node.id) ∧
      calls.flatMap (Call.edgesDrawn faint)
        = (g.edges.filter fun e => Highlight.dims highlight e.id == faint).map
          fun e => (e.source, e.target) := by
  obtain ⟨hmarks, hlines, -⟩ := drawn_picture_parts hnodes h
  rw [funext (nodesDrawn_eq faint), funext (edgesDrawn_eq faint), ← List.map_flatMap,
    ← List.map_flatMap, ← List.filter_flatMap, ← List.filter_flatMap, hmarks, hlines,
    lines_edgeCalls]
  have hnode : (fun m : Mark => (m.opacity == dimOpacity) == faint) ∘ markOf highlight
      = fun n : Node α => Highlight.dims highlight n.id == faint :=
    funext fun n => by rw [Function.comp_apply, faint_markOf]
  have hedge : (fun l : Line => (l.opacity == dimOpacity) == faint) ∘ lineOf highlight
      = fun e : Edge α => Highlight.dims highlight e.id == faint :=
    funext fun e => by rw [Function.comp_apply, faint_lineOf]
  constructor
  · have hall := ((marks_nodeCalls g highlight (pointsOf g positions)).filter
      fun m => (m.opacity == dimOpacity) == faint).map Mark.id
    rw [List.filter_map, hnode, List.map_map] at hall
    exact hall
  · rw [List.filter_append, List.filter_map, List.filter_map, hedge, List.filter_filter,
      List.filter_filter]
    cases faint <;> simp [Function.comp_def, lineOf]

end Calls

end Drawing

/-! ## 2. What a highlight dims -/

namespace Highlight

variable {g : Graph α} {id : String}

theorem node?_eq_none_iff : g.node? id = none ↔ g.contains id = false := by
  simp [Graph.node?, Graph.contains, Graph.nodeIds]

/-- The highlight of an unknown node has nothing in it. -/
theorem ofNode_of_unknown (h : g.contains id = false) : ofNode g id = { node := some id } := by
  rw [ofNode, node?_eq_none_iff.mpr h]

/-- The highlight of a node has that node in it. -/
theorem isEmpty_ofNode (h : g.contains id = true) : (ofNode g id).isEmpty = false := by
  have hmem : ∀ ids, id ∈ Order.textSet (id :: ids) := fun ids =>
    Order.mem_textSet.mpr List.mem_cons_self
  have hnode : id ∈ (ofNode g id).nodes := by
    cases hnode : g.node? id with
    | none => simp [node?_eq_none_iff.mp hnode] at h
    | some node =>
      simp only [ofNode, hnode]
      split
      · exact hmem _
      · exact hmem _
  rw [isEmpty, List.isEmpty_eq_false_iff_exists_mem]
  exact ⟨id, hnode⟩

end Highlight

/-! ## 3. What a scene shows -/

namespace Atlas

/-- The nodes that a scene marks as dimmed, or those that it does not. -/
def Scene.nodesShown (faint : Bool) (s : Scene α) : List String :=
  (s.nodes.filter fun n => (n.dimmed == some true) == faint).map fun n => n.node.id

/-- The ends of the edges that a scene marks as dimmed, or of those that it does not. -/
def Scene.edgesShown (faint : Bool) (s : Scene α) : List (String × String) :=
  (s.edges.filter fun e => (e.dimmed == some true) == faint).map
    fun e => (e.edge.source, e.edge.target)

/-- What the scene marks as dimmed is what the picture draws faintly. -/
structure Alike (scene : Scene α) (calls : List (Drawing.Call α)) : Prop where
  nodes : ∀ faint, (calls.flatMap (Drawing.Call.nodesDrawn faint)).Perm (scene.nodesShown faint)
  edges : ∀ faint, (calls.flatMap (Drawing.Call.edgesDrawn faint)).Perm (scene.edgesShown faint)

/-- Whether the scene of an atlas dims an element. -/
def sceneDims (a : Atlas α) (id : String) : Bool := dimmed a.shownHighlight id == some true

/-- Whether a picture of an atlas dims an element. -/
def pictureDims (a : Atlas α) (id : String) : Bool := Highlight.dims (some a.highlight) id

/-- The nodes and edges of a graph by their names. -/
def elements (g : Graph α) : List String := g.nodeIds ++ g.edges.map Edge.id

/-- A selection for which scenes and pictures agree: a node of the graph, or none.  Scenes take the
empty name for none, and so it must be for pictures. -/
def SelectionShown (a : Atlas α) (g : Graph α) : Prop :=
  ∀ id, a.selected = some id →
    if id = "" then ∀ x ∈ elements g, a.pictureDims x = false else g.contains id = true

section Selection

variable {a : Atlas α} {g : Graph α} {id : String}

theorem sceneDims_of_none (h : a.selected = none ∨ a.selected = some "") (x : String) :
    a.sceneDims x = false := by
  have hnone : a.shownHighlight = none := by
    rcases h with h | h
    · simp [shownHighlight, h, given]
    · simp [shownHighlight, h, given]
  rw [sceneDims, hnone]
  rfl

theorem pictureDims_of_none (h : a.selected = none) (x : String) : a.pictureDims x = false := by
  have hempty : a.highlight = { node := none } := by
    rw [highlight, h]
    cases a.graph <;> rfl
  rw [pictureDims, hempty]
  rfl

theorem sceneDims_of_some (hgraph : a.graph = some g) (h : a.selected = some id) (hid : id ≠ "")
    (x : String) : a.sceneDims x = !(Highlight.ofNode g id).emphasizes x := by
  have hshown : a.shownHighlight = some (.ofNode g id) := by
    simp [shownHighlight, highlight, h, hgraph, given, hid]
  rw [sceneDims, hshown]
  cases hemph : (Highlight.ofNode g id).emphasizes x <;> simp [dimmed, hemph]

theorem pictureDims_of_some (hgraph : a.graph = some g) (h : a.selected = some id) (x : String) :
    a.pictureDims x
      = (!(Highlight.ofNode g id).isEmpty && !(Highlight.ofNode g id).emphasizes x) := by
  simp [pictureDims, highlight, h, hgraph, Highlight.dims]

/-- **A selection that is not in the graph**: the scene dims everything and the picture nothing. -/
theorem dims_of_unknown (hgraph : a.graph = some g) (h : a.selected = some id) (hid : id ≠ "")
    (hunknown : g.contains id = false) (x : String) :
    a.sceneDims x = true ∧ a.pictureDims x = false := by
  rw [sceneDims_of_some hgraph h hid, pictureDims_of_some hgraph h,
    Highlight.ofNode_of_unknown hunknown]
  exact ⟨rfl, rfl⟩

/-- **A selection that is shown**: what the scene dims is what the picture dims. -/
theorem sceneDims_eq (hgraph : a.graph = some g) (hshown : SelectionShown a g) {x : String}
    (hx : x ∈ elements g) : a.sceneDims x = a.pictureDims x := by
  cases h : a.selected with
  | none => rw [sceneDims_of_none (.inl h), pictureDims_of_none h]
  | some id =>
    have hid := hshown id h
    split at hid
    · rename_i hempty
      rw [sceneDims_of_none (.inr (hempty ▸ h)), hid x hx]
    · rename_i hid'
      rw [sceneDims_of_some hgraph h hid', pictureDims_of_some hgraph h,
        Highlight.isEmpty_ofNode hid, Bool.not_false, Bool.true_and]

end Selection

section Scenes

variable [Scalar α] {a : Atlas α} {g : Graph α}

/-- The scene of a graph with nodes shows every node and every edge once. -/
theorem shown_scene (hgraph : a.graph = some g) (hnodes : g.nodes ≠ []) (faint : Bool) :
    a.scene.nodesShown faint
        = (g.nodes.filter fun n => a.sceneDims n.id == faint).map Node.id ∧
      a.scene.edgesShown faint
        = (g.edges.filter fun e => a.sceneDims e.id == faint).map
          fun e => (e.source, e.target) := by
  have hne : g.nodes.isEmpty = false := by simpa using hnodes
  simp [Scene.nodesShown, Scene.edgesShown, scene, hgraph, hne, List.filter_map, Function.comp_def,
    sceneDims]

/-! ## 4. Scenes and pictures -/

variable {canvas : Drawing.Canvas} {calls : List (Drawing.Call α)}

/-- Scene and picture agree when the selected node is shown, or there is none. -/
theorem alike_of_shown (hgraph : a.graph = some g) (hnodes : g.nodes ≠ [])
    (h : Drawing.picture (some g) a.positions (some a.highlight) canvas = .ok calls)
    (hshown : SelectionShown a g) : Alike a.scene calls := by
  have hnode : ∀ n ∈ g.nodes, a.sceneDims n.id = a.pictureDims n.id := fun n hn =>
    sceneDims_eq hgraph hshown (List.mem_append_left _ (List.mem_map_of_mem hn))
  have hedge : ∀ e ∈ g.edges, a.sceneDims e.id = a.pictureDims e.id := fun e he =>
    sceneDims_eq hgraph hshown (List.mem_append_right _ (List.mem_map_of_mem he))
  constructor
  · intro faint
    rw [(shown_scene hgraph hnodes faint).1,
      List.filter_congr fun n hn => by rw [hnode n hn]]
    exact (Drawing.drawn_picture faint hnodes h).1
  · intro faint
    rw [(shown_scene hgraph hnodes faint).2,
      List.filter_congr fun e he => by rw [hedge e he]]
    exact .of_eq (Drawing.drawn_picture faint hnodes h).2

/-- A picture dims nothing when it is like a scene that dims nothing. -/
theorem pictureDims_of_alike (hgraph : a.graph = some g) (hnodes : g.nodes ≠ [])
    (h : Drawing.picture (some g) a.positions (some a.highlight) canvas = .ok calls)
    (halike : Alike a.scene calls) (hscene : ∀ x, a.sceneDims x = false) :
    ∀ x ∈ elements g, a.pictureDims x = false := by
  have hnode := (Drawing.drawn_picture true hnodes h).1.symm.trans (halike.nodes true)
  have hedge := (Drawing.drawn_picture true hnodes h).2 ▸ halike.edges true
  rw [(shown_scene hgraph hnodes true).1] at hnode
  rw [(shown_scene hgraph hnodes true).2] at hedge
  simp only [hscene, beq_true, List.filter_false, List.map_nil,
    List.perm_nil, List.map_eq_nil_iff, List.filter_eq_nil_iff, Bool.not_eq_true] at hnode hedge
  intro x hx
  rcases List.mem_append.mp hx with hx | hx
  · obtain ⟨n, hn, rfl⟩ := List.mem_map.mp hx
    exact hnode n hn
  · obtain ⟨e, he, rfl⟩ := List.mem_map.mp hx
    exact hedge e he

/-- Scene and picture agree only when the selected node is shown. -/
theorem shown_of_alike (hgraph : a.graph = some g) (hnodes : g.nodes ≠ [])
    (h : Drawing.picture (some g) a.positions (some a.highlight) canvas = .ok calls)
    (halike : Alike a.scene calls) : SelectionShown a g := by
  intro id hid
  split
  · rename_i hempty
    exact pictureDims_of_alike hgraph hnodes h halike (sceneDims_of_none (.inr (hempty ▸ hid)))
  · rename_i hne
    by_contra hunknown
    -- The scene leaves no node undimmed, and the picture leaves all of them so.
    have hdims := dims_of_unknown hgraph hid hne (Bool.eq_false_of_not_eq_true hunknown)
    have hall := (Drawing.drawn_picture false hnodes h).1.symm.trans (halike.nodes false)
    rw [(shown_scene hgraph hnodes false).1] at hall
    have hpicture : ∀ x, Highlight.dims (some a.highlight) x = false := fun x => (hdims x).2
    simp [hpicture, hdims] at hall
    exact hnodes hall

/-- **Scenes and pictures** of a graph with nodes are alike for exactly those selections that are
shown.  A picture comes about when the labels can be written. -/
theorem scene_alike_picture_iff (hgraph : a.graph = some g) (hnodes : g.nodes ≠ [])
    (hlabels : ∀ n ∈ g.nodes, n.role ≠ .agent → ∃ label, Drawing.shortLabel n = .ok label)
    (canvas : Drawing.Canvas) :
    ∃ calls, Drawing.picture a.graph a.positions (some a.highlight) canvas = .ok calls ∧
      (Alike a.scene calls ↔ SelectionShown a g) := by
  obtain ⟨calls, hcalls⟩ := Drawing.exists_picture a.positions a.highlight canvas hnodes hlabels
  rw [hgraph]
  exact ⟨calls, hcalls, shown_of_alike hgraph hnodes hcalls, alike_of_shown hgraph hnodes hcalls⟩

end Scenes

/-- A node is selected that is on the way to the target. -/
theorem scene_alike_picture_gateway : ∃ a g, run [.refresh 5 [oneStep], .select (some "10.0.0.1")]
    blank = .ok a ∧ a.graph = some g ∧ g.nodes ≠ [] ∧
      (∀ n ∈ g.nodes, n.role ≠ .agent → ∃ label, Drawing.shortLabel n = .ok label) ∧
      ∃ calls, Drawing.picture a.graph a.positions (some a.highlight) {} = .ok calls ∧
        Alike a.scene calls := by
  have hrun : (run [.refresh 5 [oneStep], .select (some "10.0.0.1")] blank).toOption.any (fun a =>
      a.selected == some "10.0.0.1" && a.graph.any fun g => g.contains "10.0.0.1" &&
        g.nodes.all fun n => n.role == .agent || (Drawing.shortLabel n).isOk) = true := by
    decide +kernel
  obtain ⟨a, hrun, ha⟩ := exists_of_any hrun
  obtain ⟨hselected, hgraph⟩ := Bool.and_eq_true_iff.mp ha
  obtain ⟨g, hgraph, hg⟩ := (Option.any_eq_true _ _).mp hgraph
  obtain ⟨hcontains, hlabels⟩ := Bool.and_eq_true_iff.mp hg
  have hnodes : g.nodes ≠ [] := by
    rintro hnil
    simp [Graph.contains, Graph.nodeIds, hnil] at hcontains
  have hlabels : ∀ n ∈ g.nodes, n.role ≠ .agent → ∃ label, Drawing.shortLabel n = .ok label := by
    intro n hn hrole
    have hok := List.all_eq_true.mp hlabels n hn
    cases hlabel : Drawing.shortLabel n with
    | ok label => exact ⟨label, rfl⟩
    | error fault => simp [hlabel, hrole, Except.isOk, Except.toBool] at hok
  have hshown : SelectionShown a g := by
    intro id hid
    obtain rfl := Option.some.inj ((eq_of_beq hselected).symm.trans hid)
    exact hcontains
  obtain ⟨calls, hcalls, halike⟩ := scene_alike_picture_iff hgraph hnodes hlabels {}
  exact ⟨a, g, hrun, hgraph, hnodes, hlabels, calls, hcalls, halike.mpr hshown⟩

/-- The only step of `oneStep` at another address. -/
def otherStep : Trace Float :=
  { oneStep with hops := oneStep.hops.map fun hop =>
      { hop with hosts := [⟨"10.0.0.2", .text "gateway.example"⟩] } }

/-- The selected node is gone after another refresh: all that is left is dimmed in the scene, and
nothing in the picture. -/
theorem not_alike_gone : ∃ a g calls,
    run [.refresh 5 [oneStep], .select (some "10.0.0.1"), .refresh 6 [otherStep]] blank = .ok a ∧
      a.graph = some g ∧ g.nodes ≠ [] ∧
      Drawing.picture a.graph a.positions (some a.highlight) {} = .ok calls ∧
      ¬ Alike a.scene calls := by
  have hrun : (run [.refresh 5 [oneStep], .select (some "10.0.0.1"), .refresh 6 [otherStep]]
      blank).toOption.any (fun a => a.graph.any (fun g => !g.nodes.isEmpty) &&
        (Drawing.picture a.graph a.positions (some a.highlight) {}).toOption.any fun calls =>
          calls.flatMap (Drawing.Call.nodesDrawn true) == [] && a.scene.nodesShown true != [])
      = true := by decide +kernel
  obtain ⟨a, hrun, ha⟩ := exists_of_any hrun
  obtain ⟨hgraph, hcalls⟩ := Bool.and_eq_true_iff.mp ha
  obtain ⟨g, hgraph, hnodes⟩ := (Option.any_eq_true _ _).mp hgraph
  obtain ⟨calls, hcalls, hdiffer⟩ := exists_of_any hcalls
  obtain ⟨hdrawn, hshown⟩ := Bool.and_eq_true_iff.mp hdiffer
  refine ⟨a, g, calls, hrun, hgraph, by simpa using hnodes, hcalls, fun halike => ?_⟩
  have hperm := halike.nodes true
  rw [eq_of_beq hdrawn] at hperm
  exact bne_iff_ne.mp hshown hperm.symm.eq_nil

end Atlas

end PathAtlas
