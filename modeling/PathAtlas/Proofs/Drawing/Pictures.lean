/-
# What a picture draws

A picture draws each node, each edge and each label once, and all of it where it belongs
(`picture_draws`).  A node looks as its role says and has the colour of its own health, agents
apart.  Faint is just what the highlight leaves out, and a highlight without anything in it leaves
nothing out.  Faint edges come before the others, so that they never cover one.

Nothing is drawn without a point.  A node of the graph without a position stands at the origin, and
a position that belongs to no node is not looked at (`find?_pointsOf`).  Edges stay within the nodes
because a graph is only made when they do (`Graph.checkEdges`).

The one thing that can be in the way of a picture is a label that is not a text.
-/
import PathAtlas.Proofs.Decimal.Signs
import PathAtlas.Proofs.Drawing.Calls
import PathAtlas.Proofs.Order.Grouping
import PathAtlas.Proofs.Topology.Distance

namespace PathAtlas.Drawing

open PathAtlas.Topology

variable {α : Type}

/-! ## 1. What is faint -/

/-- A highlight leaves an element out when it has nodes and does not have that element. -/
def LeftOut (highlight : Option Highlight) (id : String) : Prop :=
  ∃ h ∈ highlight, h.nodes ≠ [] ∧ id ∉ h.nodes ∧ id ∉ h.edges

theorem dims_eq_true_iff {highlight : Option Highlight} {id : String} :
    Highlight.dims highlight id = true ↔ LeftOut highlight id := by
  cases highlight with
  | none => simp [Highlight.dims, LeftOut]
  | some h =>
    simp [Highlight.dims, LeftOut, Highlight.isEmpty, Highlight.emphasizes, and_comm]

/-- A node as it should be drawn. -/
structure Shows (highlight : Option Highlight) (node : Node α) (mark : Mark) : Prop where
  id : mark.id = node.id
  shape : mark.shape = shapeOf node.role
  size : mark.size = sizeOf node.role
  agent : node.role = .agent → mark.colour = .lightBlue
  other : node.role ≠ .agent → mark.colour = statusColour node.status
  faint : mark.opacity = dimOpacity ↔ LeftOut highlight node.id

/-- An edge as it should be drawn. -/
structure Joins (highlight : Option Highlight) (edge : Edge α) (line : Line) : Prop where
  ends : (line.source, line.target) = (edge.source, edge.target)
  colour : line.colour = statusColour edge.status
  faint : line.opacity = dimOpacity ↔ LeftOut highlight edge.id

theorem shows_markOf (highlight : Option Highlight) (node : Node α) :
    Shows highlight node (markOf highlight node) where
  id := rfl
  shape := rfl
  size := rfl
  agent h := if_pos h
  other h := if_neg h
  faint := by rw [← dims_eq_true_iff, ← faint_markOf, beq_iff_eq]

theorem joins_lineOf (highlight : Option Highlight) (edge : Edge α) :
    Joins highlight edge (lineOf highlight edge) where
  ends := rfl
  colour := rfl
  faint := by rw [← dims_eq_true_iff, ← faint_lineOf, beq_iff_eq]

/-! ## 2. Points -/

section Points

variable [Scalar α] {g : Graph α}

/-- **Every node has a point**: its position upside down, or the origin when it has none. -/
theorem find?_pointsOf {id : String} (h : id ∈ g.nodeIds) (positions : Layout.Positions α) :
    Table.find? (pointsOf g positions) id
      = some (((positions.find? id).map fun p => (p.x, Scalar.ofInt (-1) * p.y)).getD
          (Scalar.zero, Scalar.zero)) := by
  rw [pointsOf, Table.find?_append,
    Table.find?_map_values fun _ (p : Layout.Position α) => (p.x, Scalar.ofInt (-1) * p.y),
    Table.find?_filter, if_pos (show g.contains id = true from List.contains_iff_mem.mpr h),
    Table.find?_map (fun id => id) fun _ => (Scalar.zero, Scalar.zero)]
  cases hposition : positions.find? id with
  | some p => rfl
  | none =>
    have hmissing : id ∈ (Order.distinct g.nodeIds).filter fun id => (positions.find? id).isNone :=
      List.mem_filter.mpr ⟨Order.mem_distinct.mpr h, by simp [hposition]⟩
    obtain ⟨x, hx⟩ := Option.isSome_iff_exists.mp
      (List.find?_isSome (p := (· == id)) |>.mpr ⟨id, hmissing, beq_self_eq_true id⟩)
    rw [hx]
    rfl

end Points

/-- The nodes that a call names: those it draws or labels, and those at the ends of its edges. -/
def Call.named (call : Call α) : List String :=
  call.marks.map Mark.id ++ call.lines.flatMap (fun l => [l.source, l.target])
    ++ call.labels.map Prod.fst

section Calls

variable [Scalar α] {g : Graph α} {positions : Layout.Positions α} {highlight : Option Highlight}
  {canvas : Canvas} {calls : List (Call α)}

/-- Every call that names a node is given the points of all nodes. -/
theorem points_of_named (hnodes : g.nodes ≠ [])
    (h : picture (some g) positions highlight canvas = .ok calls) {call : Call α}
    (hcall : call ∈ calls) {id : String} (hid : id ∈ call.named) :
    call.points = pointsOf g positions := by
  obtain ⟨labels, hlabels, rfl⟩ := (picture_eq_ok hnodes).mp h
  obtain ⟨others, -, rfl⟩ := labelCalls_eq_ok.mp hlabels
  -- a call that draws nothing names nothing, and the others are made with these points
  have hquiet : call.marks = [] → call.lines = [] → call.labels = [] → False := by
    intro hmarks hlines hlabels
    simp [Call.named, hmarks, hlines, hlabels] at hid
  rcases List.mem_append.mp hcall with hcall | hcall
  · rcases List.mem_append.mp hcall with hcall | hcall
    · rcases List.mem_pair.mp hcall with rfl | rfl
      · exact (hquiet rfl rfl rfl).elim
      · exact (hquiet rfl rfl rfl).elim
    · simp only [edgeCalls, nodeCalls, List.mem_append, List.mem_map] at hcall
      obtain (⟨_, -, rfl⟩ | ⟨_, -, rfl⟩) | ⟨_, -, rfl⟩ := hcall <;> rfl
  · rcases List.mem_pair.mp hcall with rfl | rfl
    · exact (hquiet rfl rfl rfl).elim
    · exact (hquiet rfl rfl rfl).elim

end Calls

/-! ## 3. Pictures -/

/-- A row of calls that draws a graph. -/
structure Draws (g : Graph Float) (positions : Layout.Positions Float)
    (highlight : Option Highlight) (calls : List (Call Float)) : Prop where
  nodes : OneForOne (Shows highlight) g.nodes (calls.flatMap Call.marks)
  edges : OneForOne (Joins highlight) g.edges (calls.flatMap Call.lines)
  labels : OneForOne Captions g.nodes (calls.flatMap Call.labels)
  nodeCall : ∀ node ∈ g.nodes,
    calls.countP (fun call => node.id ∈ call.marks.map Mark.id) = 1
  /-- A call knows an edge by its ends, so this is about edges that share them with no other. -/
  edgeCall : (g.edges.map fun e => (e.source, e.target)).Nodup → ∀ edge ∈ g.edges,
    calls.countP (fun call =>
      (edge.source, edge.target) ∈ call.lines.map fun l => (l.source, l.target)) = 1
  labelCall : ∀ node ∈ g.nodes,
    calls.countP (fun call => node.id ∈ call.labels.map Prod.fst) = 1
  faintFirst : (calls.flatMap Call.lines).Pairwise fun line next =>
    next.opacity = dimOpacity → line.opacity = dimOpacity
  placed : ∀ call ∈ calls, ∀ id ∈ call.named, ∃ x y, Table.find? call.points id = some (x, y) ∧
    (∀ p, positions.find? id = some p → x = p.x ∧ y = -p.y) ∧
    (positions.find? id = none → x = Scalar.zero ∧ y = Scalar.zero)

section Pictures

variable [Scalar α] {g : Graph α} {positions : Layout.Positions α} {highlight : Option Highlight}
  {canvas : Canvas} {calls : List (Call α)}

theorem nodes_picture (hnodes : g.nodes ≠ [])
    (h : picture (some g) positions highlight canvas = .ok calls) :
    OneForOne (Shows highlight) g.nodes (calls.flatMap Call.marks) := by
  rw [(drawn_picture_parts hnodes h).1]
  exact .of_perm_map (marks_nodeCalls g highlight _) fun node _ => shows_markOf highlight node

theorem edges_picture (hnodes : g.nodes ≠ [])
    (h : picture (some g) positions highlight canvas = .ok calls) :
    OneForOne (Joins highlight) g.edges (calls.flatMap Call.lines) := by
  rw [(drawn_picture_parts hnodes h).2.1, lines_edgeCalls, ← List.map_append]
  refine .of_perm_map (List.Perm.map _ ?_) fun edge _ => joins_lineOf highlight edge
  exact List.filter_append_perm (fun e : Edge α => Highlight.dims highlight e.id) g.edges

theorem labels_picture (hnodes : g.nodes ≠ [])
    (h : picture (some g) positions highlight canvas = .ok calls) :
    OneForOne Captions g.nodes (calls.flatMap Call.labels) := by
  obtain ⟨-, -, labels, hlabels, heq⟩ := drawn_picture_parts hnodes h
  exact heq ▸ labels_labelCalls hlabels

/-- Once an edge is not faint, none that follows is. -/
theorem faintFirst_picture (hnodes : g.nodes ≠ [])
    (h : picture (some g) positions highlight canvas = .ok calls) :
    (calls.flatMap Call.lines).Pairwise fun line next =>
      next.opacity = dimOpacity → line.opacity = dimOpacity := by
  have hfaint : ∀ l ∈ (g.edges.filter fun e => Highlight.dims highlight e.id).map
      (lineOf highlight), l.opacity = dimOpacity := by
    intro l hl
    obtain ⟨e, he, rfl⟩ := List.mem_map.mp hl
    rw [← beq_iff_eq, faint_lineOf]
    exact (List.mem_filter.mp he).2
  have hclear : ∀ l ∈ (g.edges.filter fun e => !Highlight.dims highlight e.id).map
      (lineOf highlight), l.opacity ≠ dimOpacity := by
    intro l hl
    obtain ⟨e, he, rfl⟩ := List.mem_map.mp hl
    rw [Ne, ← beq_iff_eq, faint_lineOf]
    simpa using (List.mem_filter.mp he).2
  rw [(drawn_picture_parts hnodes h).2.1, lines_edgeCalls]
  refine List.pairwise_append.mpr ⟨?_, ?_, fun l hl _ _ _ => hfaint l hl⟩
  · exact List.pairwise_of_forall_mem_list fun l hl _ _ _ => hfaint l hl
  · exact List.pairwise_of_forall_mem_list fun _ _ l hl hl' => absurd hl' (hclear l hl)

/-- What a call names is a node. -/
theorem mem_nodeIds_of_named (hnodes : g.nodes ≠ []) (hedges : g.checkEdges = .ok ())
    (h : picture (some g) positions highlight canvas = .ok calls) {call : Call α}
    (hcall : call ∈ calls) {id : String} (hid : id ∈ call.named) : id ∈ g.nodeIds := by
  simp only [Call.named, List.mem_append, List.mem_map, List.mem_flatMap] at hid
  obtain (⟨mark, hmark, rfl⟩ | ⟨line, hline, hid⟩) | ⟨entry, hentry, rfl⟩ := hid
  · exact ((nodes_picture hnodes h).map_perm fun _ _ => Shows.id).subset
      (List.mem_map_of_mem (List.mem_flatMap_of_mem hcall hmark))
  · have hends := ((edges_picture hnodes h).map_perm fun _ _ => Joins.ends).subset
      (List.mem_map_of_mem (List.mem_flatMap_of_mem hcall hline))
    obtain ⟨edge, hedge, heq⟩ := List.mem_map.mp hends
    obtain ⟨hsource, htarget⟩ := Prod.mk.inj heq
    have hmem := Graph.checkEdges_eq_ok.mp hedges edge hedge
    rcases List.mem_pair.mp hid with rfl | rfl
    · exact hsource ▸ hmem.1
    · exact htarget ▸ hmem.2
  · exact ((labels_picture hnodes h).map_perm fun _ _ => Captions.id).subset
      (List.mem_map_of_mem (List.mem_flatMap_of_mem hcall hentry))

end Pictures

/-- **What a picture draws.**  Of a graph with nodes whose ids are distinct there is a picture just
when every node that is no agent has a text for a label or needs none.  It draws everything once,
with the looks that it should have, and at its place. -/
theorem picture_draws {g : Graph Float} (hnodes : g.nodes ≠ []) (hids : g.nodeIds.Nodup)
    (hedges : g.checkEdges = .ok ()) (positions : Layout.Positions Float)
    (highlight : Option Highlight) (canvas : Canvas) :
    ((∃ calls, picture (some g) positions highlight canvas = .ok calls) ↔
        ∀ node ∈ g.nodes, node.role ≠ .agent → Bare node ∨ ∃ s, node.label = .text s) ∧
      ∀ calls, picture (some g) positions highlight canvas = .ok calls →
        Draws g positions highlight calls := by
  constructor
  · simp only [exists_picture_iff hnodes, exists_shortLabel_iff]
  · intro calls h
    have hmarks := nodes_picture hnodes h
    have hlines := edges_picture hnodes h
    have hlabels := labels_picture hnodes h
    refine ⟨hmarks, hlines, hlabels, fun node => ?_, fun hends edge => ?_, fun node => ?_,
      faintFirst_picture hnodes h, fun call hcall id hid => ?_⟩
    · exact hmarks.countP_eq_one (fun _ _ => Shows.id) hids
    · exact hlines.countP_eq_one (fun _ _ => Joins.ends) hends
    · exact hlabels.countP_eq_one (fun _ _ => Captions.id) hids
    · rw [points_of_named hnodes h hcall hid,
        find?_pointsOf (mem_nodeIds_of_named hnodes hedges h hcall hid)]
      refine ⟨_, _, rfl, fun p hp => ?_, fun hnone => ?_⟩
      · simp [hp, Decimal.ofInt_neg_one_mul]
      · simp [hnone]

/-- An agent, a nameless hop without a label and a destination in a row. -/
def uplink : Graph Float :=
  { nodes :=
      [⟨"home", .text "home", {}, [], .healthy, .agent "1"⟩,
        ⟨"10.0.0.17", .null, {}, [], .degraded, .hop (some "10.0.0.17") .null 1 none []⟩,
        ⟨"8.8.8.8", .text "8.8.8.8", {}, [], .critical, .destination "8.8.8.8" .null []⟩]
    edges :=
      [⟨"home->10.0.0.17", "home", "10.0.0.17", 0, 1, {}, [], .healthy⟩,
        ⟨"10.0.0.17->8.8.8.8", "10.0.0.17", "8.8.8.8", 1, 2, {}, [], .critical⟩]
    paths := []
    generatedAt := 0.0 }

/-- The hop and the destination have no position, and there is one that belongs to no node. -/
def uplinkPositions : Layout.Positions Float :=
  [("gone", ⟨3.0, 4.0, false⟩), ("home", ⟨1.0, 2.0, true⟩)]

def uplinkHighlight : Highlight :=
  { node := some "home", edges := ["home->10.0.0.17"], nodes := ["home"] }

theorem picture_draws_uplink :
    (uplink.nodes ≠ [] ∧ uplink.nodeIds.Nodup ∧ uplink.checkEdges = .ok ()) ∧
      ∃ calls, picture (some uplink) uplinkPositions (some uplinkHighlight) {} = .ok calls ∧
        Draws uplink uplinkPositions (some uplinkHighlight) calls := by
  have hnodes : uplink.nodes ≠ [] := List.cons_ne_nil _ _
  have hids : uplink.nodeIds.Nodup := by decide
  have hedges : uplink.checkEdges = .ok () := rfl
  have hlabels : ∀ node ∈ uplink.nodes,
      node.role ≠ .agent → Bare node ∨ ∃ s, node.label = .text s := by
    intro node hnode _
    simp only [uplink, List.mem_cons, List.not_mem_nil, or_false] at hnode
    obtain rfl | rfl | rfl := hnode
    · exact .inr ⟨_, rfl⟩
    · exact .inl ⟨_, _, _, _, _, rfl, by decide, rfl⟩
    · exact .inr ⟨_, rfl⟩
  obtain ⟨hexists, hdraws⟩ :=
    picture_draws hnodes hids hedges uplinkPositions (some uplinkHighlight) {}
  obtain ⟨calls, hcalls⟩ := hexists.mpr hlabels
  exact ⟨⟨hnodes, hids, hedges⟩, calls, hcalls, hdraws calls hcalls⟩

end PathAtlas.Drawing
