/-
# What the calls of a picture draw

A picture comes in batches, since what one call draws has one opacity, and nodes of one call one
shape and size.  Taken apart again, the batches of the nodes are one mark for each node, since a
node has one of three roles and is dimmed or is not, and those of the edges one line for each edge,
the dimmed ones first (`marks_nodeCalls`, `lines_edgeCalls`).  Batches without anything in them are
left out, which draws the same (`flatMap_filter_of_nil`).

Labels are the only part that can fail: one that is cut short has to be a text
(`exists_shortLabel_iff`).
-/
import PathAtlas.Drawing
import PathAtlas.Proofs.Layout.Layered
import PathAtlas.Proofs.Outcome

namespace PathAtlas.Drawing

open PathAtlas.Topology

variable {α : Type}

/-! ## 1. Rows that match -/

section Matching

variable {β γ δ κ : Type} {R : β → γ → Prop} {xs : List β} {ys : List γ}

/-- Each entry of the first row stands for one of the second, whatever their order, and none of
either is left over. -/
def OneForOne (R : β → γ → Prop) (xs : List β) (ys : List γ) : Prop :=
  ∃ zs, List.Forall₂ R xs zs ∧ zs.Perm ys

theorem OneForOne.of_perm_map {f : β → γ} (h : ys.Perm (xs.map f)) (hR : ∀ x ∈ xs, R x (f x)) :
    OneForOne R xs ys :=
  ⟨xs.map f, List.forall₂_map_right_iff.mpr (List.forall₂_same.mpr hR), h.symm⟩

/-- Rows that match have the same names. -/
theorem OneForOne.map_perm (h : OneForOne R xs ys) {name : β → κ} {key : γ → κ}
    (hR : ∀ x y, R x y → key y = name x) : (ys.map key).Perm (xs.map name) := by
  obtain ⟨zs, hzs, hperm⟩ := h
  have hnames : zs.map key = xs.map name := by
    rw [← List.forall₂_eq_eq_eq, List.forall₂_map_left_iff, List.forall₂_map_right_iff]
    exact hzs.flip.imp fun y x hxy => hR x y hxy
  exact hnames ▸ (hperm.map key).symm

/-- Of parts that have nothing twice between them, just one has what any has. -/
theorem countP_mem_eq_one [BEq κ] [LawfulBEq κ] {part : δ → List κ} {parts : List δ} {k : κ}
    (hnodup : (parts.flatMap part).Nodup) (h : k ∈ parts.flatMap part) :
    parts.countP (fun p => k ∈ part p) = 1 := by
  induction parts with
  | nil => cases h
  | cons p parts ih =>
    rw [List.flatMap_cons, List.nodup_append'] at hnodup
    obtain ⟨-, hrest, hapart⟩ := hnodup
    by_cases hp : k ∈ part p
    · have hnone : parts.countP (fun p => k ∈ part p) = 0 :=
        List.countP_eq_zero.mpr fun q hq hk =>
          hapart hp (List.mem_flatMap_of_mem hq (of_decide_eq_true hk))
      rw [List.countP_cons_of_pos (by simpa using hp), hnone]
    · rw [List.countP_cons_of_neg (by simpa using hp)]
      exact ih hrest ((List.mem_append.mp h).resolve_left hp)

/-- Names that stand for one entry each are in one part each. -/
theorem OneForOne.countP_eq_one [BEq κ] [LawfulBEq κ] {part : δ → List γ} {parts : List δ}
    (h : OneForOne R xs (parts.flatMap part)) {name : β → κ} {key : γ → κ}
    (hR : ∀ x y, R x y → key y = name x) (hnames : (xs.map name).Nodup) {x : β} (hx : x ∈ xs) :
    parts.countP (fun p => name x ∈ (part p).map key) = 1 := by
  have hperm := h.map_perm hR
  rw [List.map_flatMap] at hperm
  exact countP_mem_eq_one (hperm.nodup_iff.mpr hnames)
    (hperm.mem_iff.mpr (List.mem_map_of_mem hx))

end Matching

/-! ## 2. Marks, lines and labels -/

/-- One node as it is drawn. -/
structure Mark where
  id : String
  colour : Colour
  opacity : Nat
  shape : Shape
  size : Nat

/-- One edge as it is drawn. -/
structure Line where
  source : String
  target : String
  colour : Colour
  opacity : Nat
  width : Nat

def NodeBatch.marks (batch : NodeBatch) : List Mark :=
  batch.nodes.map fun n => ⟨n.1, n.2, batch.opacity, batch.shape, batch.size⟩

def EdgeBatch.lines (batch : EdgeBatch) : List Line :=
  batch.edges.map fun e => ⟨e.1.1, e.1.2, e.2, batch.opacity, batch.width⟩

namespace Call

def marks : Call α → List Mark
  | .drawNodes _ batch => batch.marks
  | _ => []

def lines : Call α → List Line
  | .drawEdges _ batch => batch.lines
  | _ => []

/-- The labels that a call writes, each with the node it belongs to. -/
def labels : Call α → List (String × Json)
  | .drawLabels _ batch => batch.labels
  | _ => []

def points : Call α → Points α
  | .drawEdges points _ | .drawNodes points _ | .drawLabels points _ => points
  | _ => []

end Call

/-! ## 3. Batches -/

section Batches

def markOf (highlight : Option Highlight) (node : Node α) : Mark :=
  ⟨node.id, colourOf node, if Highlight.dims highlight node.id then dimOpacity else 90,
    shapeOf node.role, sizeOf node.role⟩

def lineOf (highlight : Option Highlight) (edge : Edge α) : Line :=
  ⟨edge.source, edge.target, statusColour edge.status,
    if Highlight.dims highlight edge.id then dimOpacity else 80,
    if Highlight.dims highlight edge.id then 1 else 2⟩

/-- What is drawn faintly is what the highlight dims. -/
theorem faint_markOf (highlight : Option Highlight) (node : Node α) :
    ((markOf highlight node).opacity == dimOpacity) = Highlight.dims highlight node.id := by
  cases h : Highlight.dims highlight node.id <;> simp [markOf, h, dimOpacity]

theorem faint_lineOf (highlight : Option Highlight) (edge : Edge α) :
    ((lineOf highlight edge).opacity == dimOpacity) = Highlight.dims highlight edge.id := by
  cases h : Highlight.dims highlight edge.id <;> simp [lineOf, h, dimOpacity]

/-- Batches without anything in them draw nothing, so that it does not matter that they are left
out. -/
theorem flatMap_filter_of_nil {β γ : Type} {f : β → List γ} {p : β → Bool} (xs : List β)
    (h : ∀ x, p x = false → f x = []) : (xs.filter p).flatMap f = xs.flatMap f := by
  induction xs with
  | nil => rfl
  | cons x xs ih =>
    cases hx : p x with
    | true => rw [List.filter_cons_of_pos hx, List.flatMap_cons, List.flatMap_cons, ih]
    | false =>
      rw [List.filter_cons_of_neg (by simp [hx]), List.flatMap_cons, h x hx, ih, List.nil_append]

/-- The nodes of all roles are all nodes. -/
theorem flatMap_nodesOf_perm (g : Graph α) :
    ([Role.agent, .hop, .destination].flatMap g.nodesOf).Perm g.nodes := by
  have hranks : ∀ role : Role, g.nodesOf role
      = g.nodes.filter fun n => n.role.rank == role.rank := by
    intro role
    refine List.filter_congr fun n _ => ?_
    cases n.role <;> cases role <;> rfl
  have hall := Layout.flatMap_filter_perm (fun n : Node α => n.role.rank) 3 g.nodes fun n _ => by
    cases n.role <;> decide
  have horder : [2, 0, 1].Perm (List.range 3) := by decide
  rw [List.flatMap_congr fun role _ => hranks role]
  exact (horder.flatMap_right fun rank => g.nodes.filter fun n => n.role.rank == rank).trans hall

variable (g : Graph α) (highlight : Option Highlight)

theorem marks_nodeBatch (role : Role) (dimmed : Bool) :
    (nodeBatch g highlight role dimmed).marks
      = ((g.nodesOf role).filter fun n => Highlight.dims highlight n.id == dimmed).map
          (markOf highlight) := by
  rw [NodeBatch.marks, nodeBatch, List.map_map]
  refine List.map_congr_left fun n hn => ?_
  obtain ⟨hn, hdims⟩ := List.mem_filter.mp hn
  obtain rfl : n.role = role := eq_of_beq (List.mem_filter.mp hn).2
  simp [markOf, eq_of_beq hdims]

theorem lines_edgeBatch (dimmed : Bool) :
    (edgeBatch g highlight dimmed).lines
      = (g.edges.filter fun e => Highlight.dims highlight e.id == dimmed).map
          (lineOf highlight) := by
  rw [EdgeBatch.lines, edgeBatch, List.map_map]
  refine List.map_congr_left fun e he => ?_
  simp [lineOf, eq_of_beq (List.mem_filter.mp he).2]

variable (points : Points α)

/-- **The calls for the nodes** draw each node once. -/
theorem marks_nodeCalls : ((nodeCalls g points highlight).flatMap Call.marks).Perm
    (g.nodes.map (markOf highlight)) := by
  have hbatches : (nodeCalls g points highlight).flatMap Call.marks
      = ([Role.agent, .hop, .destination].flatMap fun role => [false, true].map
          (nodeBatch g highlight role)).flatMap NodeBatch.marks := by
    rw [nodeCalls, List.flatMap_map]
    exact flatMap_filter_of_nil _ fun batch hbatch => by
      simp [Call.marks, NodeBatch.marks, List.isEmpty_iff.mp (by simpa using hbatch)]
  have hrole : ∀ role, ([false, true].flatMap fun dimmed =>
      (nodeBatch g highlight role dimmed).marks).Perm
        ((g.nodesOf role).map (markOf highlight)) := by
    intro role
    simp only [marks_nodeBatch, List.flatMap_cons, List.flatMap_nil, List.append_nil,
      ← List.map_append]
    refine List.Perm.map _ ?_
    have hsplit := List.filter_append_perm
      (fun n : Node α => Highlight.dims highlight n.id == false) (g.nodesOf role)
    simpa using hsplit
  rw [hbatches, List.flatMap_assoc]
  simp only [List.flatMap_map]
  refine (List.Perm.flatMap_left _ fun role _ => hrole role).trans ?_
  rw [← List.map_flatMap]
  exact (flatMap_nodesOf_perm g).map _

/-- **The calls for the edges** draw each edge once, the dimmed ones first. -/
theorem lines_edgeCalls : (edgeCalls g points highlight).flatMap Call.lines
    = (g.edges.filter fun e => Highlight.dims highlight e.id).map (lineOf highlight)
      ++ (g.edges.filter fun e => !Highlight.dims highlight e.id).map (lineOf highlight) := by
  have hbatches : (edgeCalls g points highlight).flatMap Call.lines
      = ([true, false].map (edgeBatch g highlight)).flatMap EdgeBatch.lines := by
    rw [edgeCalls, List.flatMap_map]
    exact flatMap_filter_of_nil _ fun batch hbatch => by
      simp [Call.lines, EdgeBatch.lines, List.isEmpty_iff.mp (by simpa using hbatch)]
  simp [hbatches, lines_edgeBatch]

end Batches

/-! ## 4. Labels -/

section Labels

variable {g : Graph α} {points : Points α} {calls : List (Call α)} {node : Node α}

/-- A hop without a name that has an address with a point: what follows the last point is enough
of a label. -/
def Bare (node : Node α) : Prop :=
  ∃ address hostName number scope agents,
    node.detail = .hop (some address) hostName number scope agents ∧
      '.' ∈ address.toList ∧ hostName.isPresent = false

theorem exists_shortened_iff {label : Json} :
    (∃ s, shortened label = .ok s) ↔ ∃ s, label = .text s := by
  cases label <;> simp [shortened]

/-- **A short label** can be had of a text, and of a bare hop without one. -/
theorem exists_shortLabel_iff :
    (∃ s, shortLabel node = .ok s) ↔ Bare node ∨ ∃ s, node.label = .text s := by
  unfold shortLabel
  split
  · rename_i address hostName number scope agents hdetail
    split
    · rename_i h
      simp only [Bool.and_eq_true, List.contains_iff_mem, Bool.not_eq_true'] at h
      exact iff_of_true ⟨_, rfl⟩ (.inl ⟨_, _, _, _, _, hdetail, h⟩)
    · rename_i h
      rw [exists_shortened_iff, or_iff_right]
      rintro ⟨_, _, _, _, _, hdetail', hpoint, hname⟩
      cases hdetail.symm.trans hdetail'
      simp [hpoint, hname] at h
  · rename_i hdetail
    rw [exists_shortened_iff, or_iff_right]
    rintro ⟨_, _, _, _, _, hdetail', -⟩
    exact hdetail _ _ _ _ _ hdetail'

/-- An entry of a label: an agent has its own, and every other node a short one. -/
structure Captions (node : Node α) (entry : String × Json) : Prop where
  id : entry.1 = node.id
  agent : node.role = .agent → entry.2 = node.label
  other : node.role ≠ .agent → ∃ s, shortLabel node = .ok s ∧ entry.2 = .text s

theorem labelCalls_eq_ok : labelCalls g points = .ok calls ↔
    ∃ others, (g.nodes.filter (·.role ≠ .agent)).mapM (fun n => do
        return (n.id, Json.text (← shortLabel n))) = .ok others ∧
      calls = (([⟨(g.nodesOf .agent).map fun n => (n.id, n.label), 11, true⟩,
        ⟨others, 8, false⟩] : List LabelBatch).filter fun b => !b.labels.isEmpty).map
          (.drawLabels points) := by
  rw [labelCalls, bind_eq_ok]
  refine exists_congr fun others => and_congr_right fun _ => ?_
  exact ⟨fun h => (Except.ok.inj h).symm, fun h => h ▸ rfl⟩

/-- Labels can be written when there is a short one for every node that is no agent. -/
theorem exists_labelCalls_iff (points : Points α) : (∃ calls, labelCalls g points = .ok calls) ↔
    ∀ n ∈ g.nodes, n.role ≠ .agent → ∃ s, shortLabel n = .ok s := by
  rw [← not_fails_iff]
  simp only [labelCalls, fails_bind, fails_mapM, List.mem_filter, decide_eq_true_eq,
    not_fails_pure, and_false, exists_false, or_false, not_exists, not_and, not_fails_iff, and_imp]

/-- Agents and all other nodes are all nodes. -/
theorem agents_append_others_perm (g : Graph α) :
    (g.nodesOf .agent ++ g.nodes.filter (·.role ≠ .agent)).Perm g.nodes := by
  have hothers : g.nodes.filter (·.role ≠ .agent) = g.nodes.filter fun n => !(n.role == .agent) :=
    List.filter_congr fun n _ => decide_not
  rw [hothers]
  exact List.filter_append_perm (fun n : Node α => n.role == .agent) g.nodes

/-- **The calls for the labels** write one label for each node. -/
theorem labels_labelCalls (h : labelCalls g points = .ok calls) :
    OneForOne Captions g.nodes (calls.flatMap Call.labels) := by
  obtain ⟨others, hothers, rfl⟩ := labelCalls_eq_ok.mp h
  have hagents : List.Forall₂ Captions (g.nodesOf .agent)
      ((g.nodesOf .agent).map fun n => (n.id, n.label)) := by
    refine List.forall₂_map_right_iff.mpr (List.forall₂_same.mpr fun n hn => ?_)
    have hrole : n.role = .agent := eq_of_beq (List.mem_filter.mp hn).2
    exact ⟨rfl, fun _ => rfl, fun hne => absurd hrole hne⟩
  have hrest : List.Forall₂ Captions (g.nodes.filter (·.role ≠ .agent)) others := by
    have hroles : ∀ n ∈ g.nodes.filter (·.role ≠ .agent), n.role ≠ .agent := fun n hn =>
      of_decide_eq_true (List.mem_filter.mp hn).2
    refine ((List.forall₂_and_left _ _).mpr ⟨hroles, mapM_eq_ok.mp hothers⟩).imp ?_
    rintro n entry ⟨hrole, hentry⟩
    obtain ⟨s, hs, hentry⟩ := bind_eq_ok.mp hentry
    obtain rfl := Except.ok.inj hentry
    exact ⟨rfl, fun hagent => absurd hagent hrole, fun _ => ⟨s, hs, rfl⟩⟩
  rw [List.flatMap_map, flatMap_filter_of_nil _ fun batch hbatch => by
    simpa [Call.labels] using hbatch]
  obtain ⟨entries, hentries, hperm⟩ := List.perm_comp_forall₂ (agents_append_others_perm g).symm
    (List.rel_append hagents hrest)
  exact ⟨entries, hentries, by simpa [Call.labels] using hperm⟩

end Labels

/-! ## 5. Pictures -/

section Pictures

variable [Scalar α] {g : Graph α} {positions : Layout.Positions α} {highlight : Option Highlight}
  {canvas : Canvas} {calls : List (Call α)}

/-- A picture is drawn when all labels can be: edges first, then nodes, then labels. -/
theorem picture_eq_ok (hnodes : g.nodes ≠ []) :
    picture (some g) positions highlight canvas = .ok calls ↔
      ∃ labels, labelCalls g (pointsOf g positions) = .ok labels ∧
        calls = [.openFigure canvas, .hideAxes]
          ++ (edgeCalls g (pointsOf g positions) highlight
            ++ nodeCalls g (pointsOf g positions) highlight ++ labels)
          ++ [.save "png", .closeFigure] := by
  rw [picture, content, if_neg (by simpa using hnodes)]
  simp only [bind_eq_ok]
  constructor
  · rintro ⟨inside, ⟨labels, hlabels, hinside⟩, h⟩
    obtain rfl := Except.ok.inj hinside
    exact ⟨labels, hlabels, (Except.ok.inj h).symm⟩
  · rintro ⟨labels, hlabels, rfl⟩
    exact ⟨_, ⟨labels, hlabels, rfl⟩, rfl⟩

/-- **A picture** comes about when there is a short label for every node that is no agent. -/
theorem exists_picture_iff (hnodes : g.nodes ≠ []) :
    (∃ calls, picture (some g) positions highlight canvas = .ok calls) ↔
      ∀ n ∈ g.nodes, n.role ≠ .agent → ∃ s, shortLabel n = .ok s := by
  rw [← exists_labelCalls_iff (pointsOf g positions)]
  constructor
  · rintro ⟨calls, h⟩
    obtain ⟨labels, hlabels, -⟩ := (picture_eq_ok hnodes).mp h
    exact ⟨labels, hlabels⟩
  · rintro ⟨labels, hlabels⟩
    exact ⟨_, (picture_eq_ok hnodes).mpr ⟨labels, hlabels, rfl⟩⟩

theorem exists_picture (positions : Layout.Positions α) (highlight : Option Highlight)
    (canvas : Canvas) (hnodes : g.nodes ≠ [])
    (h : ∀ n ∈ g.nodes, n.role ≠ .agent → ∃ label, shortLabel n = .ok label) :
    ∃ calls, picture (some g) positions highlight canvas = .ok calls :=
  (exists_picture_iff hnodes).mpr h

/-- The marks, lines and labels of a picture are those of its three parts. -/
theorem drawn_picture_parts (hnodes : g.nodes ≠ [])
    (h : picture (some g) positions highlight canvas = .ok calls) :
    calls.flatMap Call.marks
        = (nodeCalls g (pointsOf g positions) highlight).flatMap Call.marks ∧
      calls.flatMap Call.lines
        = (edgeCalls g (pointsOf g positions) highlight).flatMap Call.lines ∧
      ∃ labels, labelCalls g (pointsOf g positions) = .ok labels ∧
        calls.flatMap Call.labels = labels.flatMap Call.labels := by
  obtain ⟨labels, hlabels, rfl⟩ := (picture_eq_ok hnodes).mp h
  obtain ⟨others, -, rfl⟩ := labelCalls_eq_ok.mp hlabels
  have hmarks : (edgeCalls g (pointsOf g positions) highlight).flatMap Call.marks = [] := by
    simp [edgeCalls, List.flatMap_map, Call.marks]
  have hlines : (nodeCalls g (pointsOf g positions) highlight).flatMap Call.lines = [] := by
    simp [nodeCalls, List.flatMap_map, Call.lines]
  have hlabels' : (edgeCalls g (pointsOf g positions) highlight).flatMap Call.labels = [] ∧
      (nodeCalls g (pointsOf g positions) highlight).flatMap Call.labels = [] := by
    simp [edgeCalls, nodeCalls, List.flatMap_map, Call.labels]
  refine ⟨?_, ?_, _, hlabels, ?_⟩
  · simp [List.flatMap_append, List.flatMap_map, hmarks, Call.marks]
  · simp [List.flatMap_append, List.flatMap_map, hlines, Call.lines]
  · simp [List.flatMap_append, hlabels', Call.labels]

end Pictures

end PathAtlas.Drawing
