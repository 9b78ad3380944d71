/-
# Which nodes a layered layout places

The layers of a graph are its nodes sorted out by depth, so that together they are the nodes again,
each once (`names_layered_perm`), and every place that a column gives is one to be held
(`pinned_of_mem_layered`).

Nothing is asked of the graph for this.  A node that is named twice stands in one column once, an
edge that ends nowhere moves nothing, and a destination without an agent has a place as well.  Which
column a node stands in, and where in it, is said by the modules about depths and about geometry;
here it is only that every node has one place and no name a place without a node.
-/
import Mathlib.Data.List.Perm.Basic
import PathAtlas.Layout.Layered
import PathAtlas.Proofs.Order.Grouping

namespace PathAtlas.Layout

open PathAtlas.Topology

/-! ## 1. Layers -/

/-- A list sorted out by a number below a bound is the list again, in another order. -/
theorem flatMap_filter_perm {β : Type} (f : β → Nat) (n : Nat) (xs : List β)
    (h : ∀ x ∈ xs, f x < n) : ((List.range n).flatMap fun d => xs.filter (f · == d)).Perm xs := by
  induction n generalizing xs with
  | zero =>
    have hnil : xs = [] := List.eq_nil_iff_forall_not_mem.mpr fun x hx => Nat.not_lt_zero _ (h x hx)
    simp [hnil]
  | succ n ih =>
    have hbelow : ∀ d < n, xs.filter (f · == d) = (xs.filter (f · != n)).filter (f · == d) := by
      intro d hd
      rw [List.filter_filter]
      refine List.filter_congr fun x _ => ?_
      by_cases hx : f x = d
      · simp [hx, Nat.ne_of_lt hd]
      · simp [hx]
    have hlower : ∀ x ∈ xs.filter (f · != n), f x < n := by
      intro x hx
      obtain ⟨hmem, hne⟩ := List.mem_filter.mp hx
      have hlt := h x hmem
      have hne : f x ≠ n := bne_iff_ne.mp hne
      omega
    have hfirst : ((List.range n).flatMap fun d => xs.filter (f · == d)).Perm
        (xs.filter (f · != n)) := by
      have heq : ((List.range n).flatMap fun d => xs.filter (f · == d))
          = (List.range n).flatMap fun d => (xs.filter (f · != n)).filter (f · == d) :=
        List.flatMap_congr fun d hd => hbelow d (List.mem_range.mp hd)
      exact heq ▸ ih _ hlower
    rw [List.range_succ, List.flatMap_append, List.flatMap_singleton]
    refine (hfirst.append_right _).trans ?_
    have hlast : xs.filter (f · == n) = xs.filter fun x => !(f x != n) :=
      List.filter_congr fun x _ => (Bool.not_not _).symm
    rw [hlast]
    exact List.filter_append_perm (f · != n) xs

/-- All layers together hold each node once. -/
theorem flatten_layers_perm (depths : List (String × Nat)) :
    (layers depths).flatten.Perm (depths.map Prod.fst) := by
  unfold layers
  split
  · rename_i hnil
    simp [List.isEmpty_iff.mp hnil]
  · have hbound : ∀ e ∈ depths, e.2 < (depths.map Prod.snd).foldl max 0 + 1 := by
      intro e he
      have hle : e.2 ≤ (depths.map Prod.snd).foldl max 0 :=
        Order.le_foldl_max (List.mem_map_of_mem he) 0
      omega
    have hlayers : ∀ d, (Order.byText id ((depths.filter (·.2 == d)).map Prod.fst)).Perm
        ((depths.filter (·.2 == d)).map Prod.fst) := fun d => Order.sortBy_perm _ _
    have hall := (flatMap_filter_perm Prod.snd _ depths hbound).map Prod.fst
    rw [List.map_flatMap] at hall
    exact (List.Perm.flatMap_left _ fun d _ => hlayers d).trans hall

theorem map_fst_depths {α : Type} (g : Graph α) :
    (depths g).map Prod.fst = Order.distinct g.nodeIds := by
  rw [depths, List.map_map]
  exact List.map_id _

/-! ## 2. Places -/

section Places

variable {α : Type} [Scalar α] (layerGap nodeGap : α)

theorem names_column (depth : Nat) (ids : List String) :
    (column layerGap nodeGap depth ids).names = ids := by
  rw [column, Table.names, List.map_map]
  exact List.zipIdx_map_fst 0 ids

/-- **A layered layout** places every node of a graph and nothing else. -/
theorem names_layered_perm (g : Graph α) :
    (layered layerGap nodeGap g).names.Perm (Order.distinct g.nodeIds) := by
  have hnames : (layered layerGap nodeGap g).names = (layers (depths g)).flatten := by
    simp only [layered, Table.names, List.map_flatMap]
    have hcolumn : ∀ layer ∈ (layers (depths g)).zipIdx,
        (column layerGap nodeGap layer.2 layer.1).map Prod.fst = layer.1 :=
      fun layer _ => names_column layerGap nodeGap layer.2 layer.1
    rw [List.flatMap_congr hcolumn, List.flatMap_def, List.zipIdx_map_fst]
  rw [hnames, ← map_fst_depths]
  exact flatten_layers_perm (depths g)

/-- A place in a layer is one to be held. -/
theorem pinned_of_mem_layered {g : Graph α} {entry : String × Position α}
    (h : entry ∈ layered layerGap nodeGap g) : entry.2.pinned = true := by
  obtain ⟨layer, -, h⟩ := List.mem_flatMap.mp h
  obtain ⟨place, -, rfl⟩ := List.mem_map.mp h
  rfl

end Places

end PathAtlas.Layout
