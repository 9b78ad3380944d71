/-
# The stops of a trace

`visits` grows the row of a trace step by step, and a visit carries everything that it tells about
its node.  Two shorter accounts of the same row are enough to say what a graph is:

* `itinerary`: the names of the nodes;
* `stops`:     the names, each with the role and the sample that the visit brings.

Both are given in one piece here, the destination appended unless the row ends in it already, and
both are proved to be what `visits` tells (`map_stop_visits`, `map_node_visits`).  The steps of a
trace are then the legs of its row, those left out that stay at a node (`linksOf_eq`).
-/
import PathAtlas.Topology.Visit

namespace PathAtlas.Topology

variable {α β γ : Type}

/-! ## 1. Legs -/

/-- The pairs of elements that follow each other in a list. -/
def legs (xs : List β) : List (β × β) := xs.zip xs.tail

theorem legs_cons_cons (x y : β) (xs : List β) : legs (x :: y :: xs) = (x, y) :: legs (y :: xs) :=
  rfl

theorem legs_map (f : β → γ) (xs : List β) : legs (xs.map f) = (legs xs).map (Prod.map f f) := by
  rw [legs, legs, ← List.map_tail, List.zip_map]

/-- The legs of a row are its neighbours. -/
theorem mem_legs {x y : β} {xs : List β} : (x, y) ∈ legs xs ↔ [x, y] <:+: xs := by
  induction xs with
  | nil => simp [legs]
  | cons a xs ih =>
    cases xs with
    | nil => simp [legs, List.infix_cons_iff]
    | cons b xs =>
      rw [legs_cons_cons, List.mem_cons, ih]
      constructor
      · rintro (h | h)
        · obtain ⟨rfl, rfl⟩ := Prod.mk.inj h
          exact List.infix_cons_iff.mpr (.inl (by simp))
        · exact List.infix_cons_iff.mpr (.inr h)
      · intro h
        rcases List.infix_cons_iff.mp h with h | h
        · obtain ⟨hx, h⟩ := List.cons_prefix_cons.mp h
          obtain ⟨hy, -⟩ := List.cons_prefix_cons.mp h
          exact .inl (Prod.ext hx hy)
        · exact .inr h

/-! ## 2. The row in one piece -/

/-- The name of a hop's node: its address, or a name of its own when it was silent. -/
def hopName (trace : Trace α) (hop : Hop α) (depth : Nat) : String :=
  hop.address.getD (silentId trace.source depth)

/-- The names of the nodes that a trace passes, in order: the agent, the hops counted from one, and
the destination unless it is the last of them. -/
def itinerary (trace : Trace α) : List String :=
  if trace.hops = [] then []
  else
    let row := agentId trace.source :: trace.hops.zipIdx.map fun (hop, i) =>
      hopName trace hop (i + 1)
    if row.getLast? = some (destinationId trace) then row else row ++ [destinationId trace]

/-- A pass through a node, with the role that the node has in it and what was measured. -/
structure Stop (α : Type) where
  node : String
  role : Role
  sample : Option (Sample α)

/-- What a hop measured; a silent one measured nothing. -/
def hopSample (hop : Hop α) : Option (Sample α) :=
  if hop.responds then some ⟨hop.average, some hop.loss⟩ else none

/-- What the last hop tells about the destination: its loss in any case, and its latency when it
answered. -/
def endSample (last : Hop α) : Sample α :=
  ⟨if last.responds then last.average else none, some last.loss⟩

def destinationRole (trace : Trace α) : Role :=
  if (given trace.targetAgent).isSome then .agent else .destination

def endStop (trace : Trace α) (last : Hop α) : Stop α :=
  ⟨destinationId trace, destinationRole trace, some (endSample last)⟩

/-- The stops before the destination: the agent and the hops counted from one. -/
def wayStops (trace : Trace α) : List (Stop α) :=
  ⟨agentId trace.source, .agent, none⟩ :: trace.hops.zipIdx.map fun (hop, i) =>
    ⟨hopName trace hop (i + 1), .hop, hopSample hop⟩

/-- The stops of a trace.  Where the last hop is the destination, the destination's stop takes its
place, so that the end of a trace leaves one sample and not two. -/
def stops (trace : Trace α) : List (Stop α) :=
  match trace.hops.getLast? with
  | none => []
  | some last =>
    if (wayStops trace).getLast?.map Stop.node = some (destinationId trace) then
      (wayStops trace).dropLast ++ [endStop trace last]
    else wayStops trace ++ [endStop trace last]

theorem map_node_wayStops (trace : Trace α) :
    (wayStops trace).map Stop.node
      = agentId trace.source ::
          trace.hops.zipIdx.map fun (hop, i) => hopName trace hop (i + 1) := by
  simp [wayStops]

/-- The names of the stops are the itinerary. -/
theorem map_node_stops (trace : Trace α) : (stops trace).map Stop.node = itinerary trace := by
  unfold stops itinerary
  cases hlast : trace.hops.getLast? with
  | none => rw [if_pos (List.getLast?_eq_none_iff.mp hlast)]; rfl
  | some last =>
    have hne : trace.hops ≠ [] := by
      rintro h
      simp [h] at hlast
    simp only [if_neg hne, ← map_node_wayStops, List.getLast?_map]
    split
    · rename_i hend
      obtain ⟨row, stop, hrow⟩ : ∃ row stop, wayStops trace = row ++ [stop] := by
        refine ⟨(wayStops trace).dropLast, (wayStops trace).getLast (by simp [wayStops]), ?_⟩
        exact (List.dropLast_concat_getLast _).symm
      rw [hrow] at hend ⊢
      simp only [List.getLast?_append, List.getLast?_singleton, Option.some_or, Option.map_some,
        Option.some.injEq] at hend
      simp [endStop, hend]
    · simp [endStop]

/-! ## 3. What visits tell -/

def Visit.stop (v : Visit α) : Stop α := ⟨v.node, v.role, v.sample⟩

theorem stop_hopVisit (trace : Trace α) (hop : Hop α) (depth : Nat) :
    (hopVisit trace hop depth).stop = ⟨hopName trace hop depth, .hop, hopSample hop⟩ := by
  unfold hopVisit hopName hopSample Visit.stop
  cases h : hop.responder with
  | none => simp [Hop.address, Hop.responds, h]
  | some host => simp [Hop.address, Hop.responds, Hop.latency, h]

theorem stop_endVisit (trace : Trace α) (last : Hop α) :
    (endVisit trace last).stop = endStop trace last := by
  unfold endVisit endStop destinationRole Visit.stop endSample Hop.latency
  cases given trace.targetAgent <;> rfl

theorem node_endVisit (trace : Trace α) (last : Hop α) :
    (endVisit trace last).node = destinationId trace :=
  congrArg Stop.node (stop_endVisit trace last)

theorem stop_mergedVisit {hop finish : Visit α} (h : hop.node = finish.node) :
    (mergedVisit hop finish).stop = finish.stop := by
  simp [mergedVisit, Visit.stop, h]

theorem hopVisits_eq (trace : Trace α) (k : Nat) (hops : List (Hop α)) :
    hopVisits trace (k + 1) hops
      = (hops.zipIdx k).map fun (hop, i) => hopVisit trace hop (i + 1) := by
  induction hops generalizing k with
  | nil => rfl
  | cons hop hops ih => rw [hopVisits, ih, List.zipIdx_cons, List.map_cons]

/-- The destination takes the place of a last visit that is there already, and else follows. -/
theorem map_stop_finished (finish : Visit α) (vs : List (Visit α)) :
    (finished finish vs).map Visit.stop
      = if (vs.map Visit.stop).getLast?.map Stop.node = some finish.node then
          (vs.map Visit.stop).dropLast ++ [finish.stop]
        else vs.map Visit.stop ++ [finish.stop] := by
  induction vs with
  | nil => simp [finished]
  | cons v vs ih =>
    cases vs with
    | nil =>
      rw [finished]
      by_cases h : v.node = finish.node
      · rw [if_pos h, if_pos (by simp [Visit.stop, h]), List.map_singleton, stop_mergedVisit h]
        rfl
      · rw [if_neg h, if_neg (by simp [Visit.stop, h])]
        rfl
    | cons w vs =>
      rw [finished, List.map_cons, ih]
      simp only [List.map_cons, List.getLast?_cons_cons, List.dropLast_cons_cons]
      split <;> rfl

/-- **The visits of a trace make its stops.** -/
theorem map_stop_visits (trace : Trace α) : (visits trace).map Visit.stop = stops trace := by
  unfold visits stops
  cases hlast : trace.hops.getLast? with
  | none => rfl
  | some last =>
    obtain ⟨hop, hops, hcons⟩ : ∃ hop hops, trace.hops = hop :: hops :=
      List.exists_cons_of_ne_nil (by rintro h; simp [h] at hlast)
    have hway : wayStops trace
        = (startVisit trace).stop :: (hopVisits trace 1 trace.hops).map Visit.stop := by
      rw [hopVisits_eq trace 0, List.map_map]
      simp only [wayStops, Function.comp_def, stop_hopVisit]
      rfl
    have hrow : ∃ s row, (hopVisits trace 1 trace.hops).map Visit.stop = s :: row := by
      rw [hcons]
      exact ⟨_, _, rfl⟩
    obtain ⟨s, row, hrow⟩ := hrow
    simp only [List.map_cons, map_stop_finished, node_endVisit, stop_endVisit, hway, hrow,
      List.getLast?_cons_cons, List.dropLast_cons_cons]
    split <;> rfl

theorem map_node_visits (trace : Trace α) : (visits trace).map Visit.node = itinerary trace := by
  rw [← map_node_stops, ← map_stop_visits, List.map_map]
  rfl

/-! ## 4. What steps tell -/

/-- The steps between visits are the legs of the row that do not stay at a node. -/
theorem linksOf_eq (vs : List (Visit α)) :
    linksOf vs = ((legs vs).filter fun l => l.1.node ≠ l.2.node).map fun l =>
      ⟨l.1.node, l.2.node, l.2.path, l.2.sample⟩ := by
  induction vs with
  | nil => rfl
  | cons v vs ih =>
    cases vs with
    | nil => rfl
    | cons w vs =>
      rw [linksOf, legs_cons_cons]
      by_cases h : v.node = w.node
      · simp [h, ih]
      · simp [h, ih]

end PathAtlas.Topology
