/-
# The geometry of a layered layout

Columns stand at multiples of the gap between them, and the nodes of a column at heights that rise
by one gap each and cancel out around the middle line (`isChain_heights`, `sum_heights`).  No two
nodes have one place: different columns differ in `x`, and within a column heights differ in `y`.

All of it is exact over fractions, for gaps of either sign; a gap of nought would put nodes on top
of each other.  Columns may be empty: moving destinations to the last column can leave one without
nodes, and such a column takes up its place all the same.
-/
import Mathlib.Algebra.BigOperators.Group.List.Basic
import Mathlib.Data.List.Range
import Mathlib.Tactic.Ring
import PathAtlas.Proofs.Layout.Depths

namespace PathAtlas.Layout

open PathAtlas.Topology

/-! ## 1. Columns -/

def idsAt (depths : List (String × Nat)) (d : Nat) : List String :=
  Order.byText id ((depths.filter (·.2 == d)).map Prod.fst)

theorem mem_idsAt {depths : List (String × Nat)} {d : Nat} {id : String} :
    id ∈ idsAt depths d ↔ (id, d) ∈ depths := by
  rw [idsAt, Order.byText, (Order.sortBy_perm _ _).mem_iff]
  simp

theorem idsAt_pairwise {depths : List (String × Nat)} (h : (depths.map Prod.fst).Nodup) (d : Nat) :
    (idsAt depths d).Pairwise (· < ·) := by
  have hnodup : (((depths.filter (·.2 == d)).map Prod.fst).map id).Nodup := by
    rw [List.map_id]
    exact h.sublist (List.filter_sublist.map Prod.fst)
  exact (Order.sortBy_pairwise Order.isOrder_text hnodup).imp of_decide_eq_true

/-- A layer holds the ids of its depth. -/
theorem getElem?_layers {depths : List (String × Nat)} {d : Nat} {ids : List String}
    (h : (layers depths)[d]? = some ids) : ids = idsAt depths d := by
  unfold layers at h
  split at h
  · cases h
  · rw [List.getElem?_map, Option.map_eq_some_iff] at h
    obtain ⟨d', hd, rfl⟩ := h
    obtain ⟨-, rfl⟩ := List.getElem?_eq_some_iff.mp hd
    rw [List.getElem_range]
    rfl

/-- Every depth of a node has its layer. -/
theorem getElem?_layers_of_mem {depths : List (String × Nat)} {id : String} {d : Nat}
    (h : (id, d) ∈ depths) : (layers depths)[d]? = some (idsAt depths d) := by
  have hle : d ≤ (depths.map Prod.snd).foldl max 0 :=
    Order.le_foldl_max (List.mem_map_of_mem (f := Prod.snd) h) 0
  have hne : depths.isEmpty = false := List.isEmpty_eq_false_iff.mpr (List.ne_nil_of_mem h)
  rw [layers, hne, if_neg Bool.false_ne_true, List.getElem?_map,
    List.getElem?_range (Nat.lt_succ_of_le hle)]
  rfl

/-! ## 2. Heights -/

/-- The ids of a column with their heights. -/
def stack (nodeGap : Rat) (ids : List String) : List (String × Rat) :=
  ids.zipIdx.map fun (id, i) => (id, heightOf nodeGap ids.length i)

theorem heightOf_eq (nodeGap : Rat) (count i : Nat) :
    heightOf nodeGap count i = ((i : Rat) - ((count : Rat) - 1) / 2) * nodeGap := by
  simp [heightOf, Scalar.ofNat, Scalar.fraction, Scalar.ofInt]

theorem heightOf_inj {nodeGap : Rat} (h : nodeGap ≠ 0) {count i j : Nat}
    (heq : heightOf nodeGap count i = heightOf nodeGap count j) : i = j := by
  rw [heightOf_eq, heightOf_eq] at heq
  exact Nat.cast_injective (sub_left_injective (mul_right_cancel₀ h heq))

theorem map_fst_stack (nodeGap : Rat) (ids : List String) :
    (stack nodeGap ids).map Prod.fst = ids := by
  rw [stack, List.map_map]
  exact List.zipIdx_map_fst 0 ids

theorem map_snd_stack (nodeGap : Rat) (ids : List String) :
    (stack nodeGap ids).map Prod.snd =
      (List.range ids.length).map (heightOf nodeGap ids.length) := by
  rw [List.range_eq_range', ← List.zipIdx_map_snd 0 ids, stack, List.map_map, List.map_map]
  rfl

/-- Each height lies one gap after the one before. -/
theorem isChain_heights (nodeGap : Rat) (count n : Nat) :
    ((List.range n).map (heightOf nodeGap count)).IsChain fun y z => z = y + nodeGap := by
  rw [List.isChain_map, List.isChain_range]
  intro i _
  rw [heightOf_eq, heightOf_eq, Nat.cast_succ]
  ring

/-- The sum of the first heights of a column. -/
theorem sum_heights (nodeGap : Rat) (count n : Nat) :
    ((List.range n).map (heightOf nodeGap count)).sum
      = (n : Rat) * ((n : Rat) - (count : Rat)) / 2 * nodeGap := by
  induction n with
  | zero => simp
  | succ n ih =>
    rw [List.range_succ, List.map_append, List.sum_append, ih, List.map_singleton,
      List.sum_singleton, heightOf_eq, Nat.cast_succ]
    ring

/-- A column has one node at each of its heights. -/
theorem stack_inj {nodeGap : Rat} (h : nodeGap ≠ 0) {ids : List String} {id id' : String} {y : Rat}
    (hid : (id, y) ∈ stack nodeGap ids) (hid' : (id', y) ∈ stack nodeGap ids) : id = id' := by
  obtain ⟨⟨_, i⟩, hi, heq⟩ := List.mem_map.mp hid
  obtain ⟨⟨_, j⟩, hj, heq'⟩ := List.mem_map.mp hid'
  obtain ⟨rfl, rfl⟩ := Prod.mk.inj heq
  obtain ⟨rfl, hheight⟩ := Prod.mk.inj heq'
  obtain rfl := heightOf_inj h hheight
  exact Option.some.inj ((List.mem_zipIdx_iff_getElem?.mp hi).symm.trans
    (List.mem_zipIdx_iff_getElem?.mp hj))

/-! ## 3. Places -/

section Places

variable {g : Graph Rat} {layerGap nodeGap : Rat}

/-- What a layered layout places where. -/
theorem mem_layered {id : String} {p : Position Rat} :
    (id, p) ∈ layered layerGap nodeGap g ↔
      ∃ d y, (id, y) ∈ stack nodeGap (idsAt (depths g) d) ∧ p = ⟨d * layerGap, y, true⟩ := by
  simp only [layered, List.mem_flatMap, Prod.exists, List.mem_zipIdx_iff_getElem?]
  constructor
  · rintro ⟨ids, d, hids, hmem⟩
    obtain rfl := getElem?_layers hids
    obtain ⟨⟨_, i⟩, hi, heq⟩ := List.mem_map.mp hmem
    obtain ⟨rfl, rfl⟩ := Prod.mk.inj heq
    exact ⟨d, _, List.mem_map.mpr ⟨(_, i), hi, rfl⟩, rfl⟩
  · rintro ⟨d, y, hmem, rfl⟩
    obtain ⟨⟨_, i⟩, hi, heq⟩ := List.mem_map.mp hmem
    obtain ⟨rfl, rfl⟩ := Prod.mk.inj heq
    have hid := mem_idsAt.mp (List.fst_mem_of_mem_zipIdx hi)
    exact ⟨_, d, getElem?_layers_of_mem hid, List.mem_map.mpr ⟨(_, i), hi, rfl⟩⟩

theorem mem_depths_of_mem_stack {d : Nat} {id : String} {y : Rat}
    (h : (id, y) ∈ stack nodeGap (idsAt (depths g) d)) : (id, d) ∈ depths g :=
  mem_idsAt.mp (map_fst_stack nodeGap (idsAt (depths g) d) ▸ List.mem_map_of_mem (f := Prod.fst) h)

/-- Columns do not share a place on the axis. -/
theorem column_inj (h : layerGap ≠ 0) {d d' : Nat} (heq : (d : Rat) * layerGap = d' * layerGap) :
    d = d' :=
  Nat.cast_injective (mul_right_cancel₀ h heq)

/-- **The geometry of a layered layout.**  Each node has one place, a pinned one, at its column, and
nothing else has one.  In every column the ids in order have heights that follow each other at one
gap and add up to nought.  No two nodes have the same place. -/
theorem layered_geometry (hnodup : g.nodeIds.Nodup) (hlayer : layerGap ≠ 0) (hnode : nodeGap ≠ 0) :
    (layered layerGap nodeGap g).names.Perm g.nodeIds ∧
      (∀ id p, (id, p) ∈ layered layerGap nodeGap g →
        p.pinned = true ∧ ∃ d, (id, d) ∈ depths g ∧ p.x = d * layerGap) ∧
      (∀ d, ∃ heights : List (String × Rat),
        (∀ id y, (id, y) ∈ heights ↔
          (id, d) ∈ depths g ∧ ∃ p, (id, p) ∈ layered layerGap nodeGap g ∧ p.y = y) ∧
        (heights.map Prod.fst).Pairwise (· < ·) ∧
        (heights.map Prod.snd).IsChain (fun y z => z = y + nodeGap) ∧
        (heights.map Prod.snd).sum = 0) ∧
      ∀ id p id' p', (id, p) ∈ layered layerGap nodeGap g → (id', p') ∈ layered layerGap nodeGap g →
        p.x = p'.x → p.y = p'.y → id = id' := by
  have hdepths : ((depths g).map Prod.fst).Nodup := by
    rw [map_fst_depths, Order.distinct_of_nodup hnodup]
    exact hnodup
  refine ⟨?_, fun id p hp => ?_,
    fun d => ⟨stack nodeGap (idsAt (depths g) d), fun id y => ?_, ?_, ?_, ?_⟩,
    fun id p id' p' hp hp' hx hy => ?_⟩
  · rw [← Order.distinct_of_nodup hnodup]
    exact names_layered_perm layerGap nodeGap g
  · obtain ⟨d, y, hmem, rfl⟩ := mem_layered.mp hp
    exact ⟨rfl, d, mem_depths_of_mem_stack hmem, rfl⟩
  · constructor
    · exact fun hmem => ⟨mem_depths_of_mem_stack hmem, _, mem_layered.mpr ⟨d, y, hmem, rfl⟩, rfl⟩
    · rintro ⟨hid, p, hp, rfl⟩
      obtain ⟨d', y, hmem, rfl⟩ := mem_layered.mp hp
      have hid' := mem_depths_of_mem_stack hmem
      obtain ⟨-, rfl⟩ := Prod.mk.inj (List.inj_on_of_nodup_map hdepths hid hid' rfl)
      exact hmem
  · rw [map_fst_stack]
    exact idsAt_pairwise hdepths d
  · rw [map_snd_stack]
    exact isChain_heights nodeGap _ _
  · rw [map_snd_stack, sum_heights, sub_self, mul_zero, zero_div, zero_mul]
  · obtain ⟨d, y, hmem, rfl⟩ := mem_layered.mp hp
    obtain ⟨d', y', hmem', rfl⟩ := mem_layered.mp hp'
    obtain rfl := column_inj hlayer hx
    obtain rfl : y = y' := hy
    exact stack_inj hnode hmem hmem'

/-- The third column is empty here: its only node is a destination. -/
theorem layered_geometry_outpost :
    (outpost.nodeIds.Nodup ∧ (200 : Rat) ≠ 0 ∧ (80 : Rat) ≠ 0) ∧
      layered 200 80 outpost =
        [("a", ⟨0, 0, true⟩), ("b", ⟨200, 0, true⟩), ("c", ⟨600, -80, true⟩),
          ("d", ⟨600, 0, true⟩), ("e", ⟨600, 80, true⟩)] ∧
      (layered 200 80 outpost).names.Perm outpost.nodeIds ∧
      (∀ id p, (id, p) ∈ layered 200 80 outpost →
        p.pinned = true ∧ ∃ d, (id, d) ∈ depths outpost ∧ p.x = d * 200) ∧
      (∀ d, ∃ heights : List (String × Rat),
        (∀ id y, (id, y) ∈ heights ↔
          (id, d) ∈ depths outpost ∧ ∃ p, (id, p) ∈ layered 200 80 outpost ∧ p.y = y) ∧
        (heights.map Prod.fst).Pairwise (· < ·) ∧
        (heights.map Prod.snd).IsChain (fun y z => z = y + 80) ∧
        (heights.map Prod.snd).sum = 0) ∧
      ∀ id p id' p', (id, p) ∈ layered 200 80 outpost → (id', p') ∈ layered 200 80 outpost →
        p.x = p'.x → p.y = p'.y → id = id' :=
  ⟨⟨by decide, by decide, by decide⟩, by decide +kernel,
    layered_geometry (by decide) (by decide) (by decide)⟩

end Places

end PathAtlas.Layout
