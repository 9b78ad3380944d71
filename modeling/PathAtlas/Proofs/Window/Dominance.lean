/-
# What a summary tells

The summary of a cell shows the route that was taken most often there, and its steps are merged
from the traces of that route.  Merging looks at one place after another and takes the hosts of the
latest step that has any, so a silent step may come out with the hosts of one that names the
wildcard, or with none.  All of these are known by the wildcard, though, and an answered step is
known by an address that all the traces have there (`Merged.identifier`).  So the merged steps spell
the route of the traces that they were made from (`map_identifier_mergeHops`), and where addresses
hold no separator all traces of one signature took one route.

Traces are in one cell when they have the same source, target and start.  For floating point numbers
this is no equality of the starts: both noughts are the same, and a start that is NaN is not the
same as itself, so a trace that has it is alone in its cell (`Cellmates`).
-/
import PathAtlas.Proofs.Decimal.Numbers
import PathAtlas.Proofs.Route.Signatures
import PathAtlas.Proofs.Window.Merging

namespace PathAtlas.Window

variable {α : Type}

/-! ## 1. Steps of one route -/

theorem identifier_eq_of_hosts {hop hop' : Hop α} (h : hop.hosts = hop'.hosts) :
    hop.identifier = hop'.identifier := by
  simp only [Hop.identifier, Hop.address, Hop.responder, h]

/-- A place that all traces have is one step of each. -/
theorem forall₂_column {traces : List (Trace α)} {i : Nat} (h : ∀ t ∈ traces, i < t.hops.length) :
    List.Forall₂ (fun t step => t.hops[i]? = some step) traces (column traces i) := by
  induction traces with
  | nil => exact .nil
  | cons t ts ih =>
    obtain ⟨ht, hts⟩ := List.forall_mem_cons.mp h
    have hget : t.hops[i]? = some t.hops[i] := List.getElem?_eq_getElem ht
    rw [column, List.filterMap_cons, hget]
    exact .cons hget (ih hts)

/-- Traces of one length are all longest. -/
theorem longest_eq {traces : List (Trace α)} {n : Nat} (hne : traces ≠ [])
    (h : ∀ t ∈ traces, t.hops.length = n) : longest traces = n := by
  have hlengths : ∀ m ∈ traces.map fun t => t.hops.length, m = n := by
    intro m hm
    obtain ⟨t, ht, rfl⟩ := List.mem_map.mp hm
    exact h t ht
  obtain ⟨t, ht⟩ := List.exists_mem_of_ne_nil traces hne
  have hle : n ≤ longest traces := Order.le_foldl_max (List.mem_map.mpr ⟨t, ht, h t ht⟩) 0
  rcases Order.foldl_max_mem (traces.map fun t => t.hops.length) 0 with hzero | hmem
  · exact le_antisymm (hzero.trans_le (Nat.zero_le n)) hle
  · exact hlengths _ hmem

variable [Scalar α]

/-- A merged step is known as one of the steps that it was merged from. -/
theorem Merged.identifier {steps : List (Hop α)} {hop : Hop α} (h : Merged steps hop)
    (hne : steps ≠ []) : ∃ step ∈ steps, hop.identifier = step.identifier := by
  have hhosts := h.hosts
  cases hlast : (steps.map Hop.hosts).reverse.find? (!·.isEmpty) with
  | some hosts =>
    rw [hlast, Option.getD_some] at hhosts
    have hmem : hosts ∈ steps.map Hop.hosts := List.mem_reverse.mp (List.mem_of_find?_eq_some hlast)
    obtain ⟨step, hstep, heq⟩ := List.mem_map.mp hmem
    exact ⟨step, hstep, identifier_eq_of_hosts (hhosts.trans heq.symm)⟩
  | none =>
    -- no step has any hosts, so any of them will do
    rw [hlast, Option.getD_none] at hhosts
    obtain ⟨step, hstep⟩ := List.exists_mem_of_ne_nil steps hne
    have hempty := List.find?_eq_none.mp hlast step.hosts (by simpa using ⟨step, hstep, rfl⟩)
    have hnil : step.hosts = [] := by simpa using hempty
    exact ⟨step, hstep, identifier_eq_of_hosts (hhosts.trans hnil.symm)⟩

/-- **Traces of one route** are merged into steps that spell it. -/
theorem map_identifier_mergeHops {traces : List (Trace α)} {route : List String}
    (hne : traces ≠ []) (hroute : ∀ t ∈ traces, t.identifiers = route) {hops : List (Hop α)}
    (h : mergeHops traces = .ok hops) : hops.map Hop.identifier = route := by
  have hlengths : ∀ t ∈ traces, t.hops.length = route.length := fun t ht => by
    rw [← hroute t ht, Trace.identifiers, List.length_map]
  have hlength : hops.length = route.length := (length_mergeHops h).trans (longest_eq hne hlengths)
  refine List.ext_getElem (by rw [List.length_map, hlength]) fun i hi hi' => ?_
  rw [List.length_map] at hi
  have hcolumn := forall₂_column fun t ht => (hlengths t ht).symm ▸ hi'
  have hmerged := merged_of_mergeHops h (List.getElem?_eq_getElem hi)
  have hsteps : column traces i ≠ [] := by
    rw [← List.length_pos_iff, ← hcolumn.length_eq]
    exact List.length_pos_iff.mpr hne
  obtain ⟨step, hstep, hidentifier⟩ := hmerged.identifier hsteps
  obtain ⟨t, ht, hget⟩ := List.mem_filterMap.mp hstep
  have hplace : route[i]? = some step.identifier := by
    rw [← hroute t ht, Trace.identifiers, List.getElem?_map, hget, Option.map_some]
  rw [List.getElem_map, hidentifier]
  exact (List.getElem_eq_iff hi').mpr hplace |>.symm

/-! ## 2. Summaries -/

/-- The counts of a step are those of some steps added up, and whole counts have a whole sum. -/
structure Sums (steps : List (Hop α)) (hop : Hop α) : Prop where
  sent : Figure.sum (steps.map Hop.sent) = .ok hop.sent
  received : Figure.sum (steps.map Hop.received) = .ok hop.received
  whole : ∀ sents receiveds : List Int, steps.map Hop.sent = sents.map .whole →
    steps.map Hop.received = receiveds.map .whole →
      hop.sent = .whole sents.sum ∧ hop.received = .whole receiveds.sum

/-- An entry shows the route that some traces took most often. -/
structure Depicts (members : List (Trace α)) (e : Entry α) : Prop where
  /-- No signature is more frequent, and none that is as frequent comes earlier. -/
  dominant : Order.MostFrequent (members.map Trace.signature) e.signature
  traceCount : e.traceCount = (members.map Trace.signature).count e.signature
  /-- The merged steps have the signature of the entry. -/
  signature : Route.signature (e.hops.map Hop.identifier) = e.signature
  /-- They are, step by step, those of each trace that has this signature. -/
  route : ∀ t ∈ members, t.signature = e.signature → e.hops.map Hop.identifier = t.identifiers
  /-- The counts of each step are those of all these traces at its place. -/
  counts : ∀ (i : Nat) (hop : Hop α), e.hops[i]? = some hop → ∃ steps,
    List.Forall₂ (fun t step => t.hops[i]? = some step)
      (members.filter (·.signature == e.signature)) steps ∧ Sums steps hop

/-- **A summary** shows the route that its traces took most often. -/
theorem depicts_of_summarize {cell : Cell α} {members : List (Trace α)} {e : Entry α}
    (hne : members ≠ []) (hmembers : ∀ t ∈ members, t.Separable ∧ t.hops ≠ [])
    (h : summarize cell members = .ok e) : Depicts members e := by
  have hsignatures : members.map Trace.signature ≠ [] := by simpa using hne
  obtain ⟨dominant, hdominant, hmost⟩ := Order.exists_mostFrequent hsignatures
  obtain ⟨hops, hmerge, heq⟩ := bind_eq_ok.mp h
  rw [hdominant, Option.getD_some] at hmerge heq
  obtain rfl := Except.ok.inj heq
  have hroute : ∀ t ∈ members.filter (·.signature == dominant),
      t.identifiers = Route.pieces dominant := by
    intro t ht
    obtain ⟨hmem, hsame⟩ := List.mem_filter.mp ht
    obtain ⟨hseparable, hhops⟩ := hmembers t hmem
    rw [← eq_of_beq hsame, hseparable.pieces_signature hhops]
  obtain ⟨t, ht, htrace⟩ := List.mem_map.mp hmost.mem
  have hmatching : t ∈ members.filter (·.signature == dominant) :=
    List.mem_filter.mpr ⟨ht, beq_iff_eq.mpr htrace⟩
  have hspelled := map_identifier_mergeHops (List.ne_nil_of_mem hmatching) hroute hmerge
  constructor
  case dominant => exact hmost
  case traceCount =>
    rw [List.count, List.countP_map, List.countP_eq_length_filter]
    rfl
  case signature => rw [hspelled, ← hroute t hmatching, ← htrace, Trace.signature]
  case route =>
    intro t ht hsame
    rw [hspelled, hroute t (List.mem_filter.mpr ⟨ht, beq_iff_eq.mpr hsame⟩)]
  case counts =>
    intro i hop hi
    have hmerged := merged_of_mergeHops hmerge hi
    have hplace : ∀ t ∈ members.filter (·.signature == dominant), i < t.hops.length := by
      intro t ht
      have hlength := congrArg List.length (hspelled.trans (hroute t ht).symm)
      rw [List.length_map, Trace.identifiers, List.length_map] at hlength
      exact hlength ▸ (List.getElem?_eq_some_iff.mp hi).1
    exact ⟨_, forall₂_column hplace, hmerged.sent, hmerged.received, fun _ _ => hmerged.counts⟩

/-! ## 3. Cells -/

/-- The traces of one cell, as they stand in a timeline: one that is in no cell with any before it,
and then all others that are in its cell. -/
def Cellmates (width : α) (timeline : List (Trace α)) (first : Trace α)
    (members : List (Trace α)) : Prop :=
  ∃ front back, timeline = front ++ first :: back ∧
    (∀ t ∈ front, (cellOf width t == cellOf width first) = false) ∧
    members = first :: back.filter fun t => cellOf width t == cellOf width first

theorem Cellmates.ne_nil {width : α} {timeline : List (Trace α)} {first : Trace α}
    {members : List (Trace α)} (h : Cellmates width timeline first members) : members ≠ [] := by
  obtain ⟨front, back, -, -, rfl⟩ := h
  exact List.cons_ne_nil _ _

theorem Cellmates.mem {width : α} {timeline : List (Trace α)} {first : Trace α}
    {members : List (Trace α)} (h : Cellmates width timeline first members) :
    ∀ t ∈ members, t ∈ timeline := by
  obtain ⟨front, back, rfl, -, rfl⟩ := h
  intro t ht
  rcases List.mem_cons.mp ht with rfl | ht
  · simp
  · simp [(List.mem_filter.mp ht).1]

section Summaries

variable [PartialEquivBEq α] {width : α} {limit : Int} {traces : List (Trace α)}
  {entries : List (Entry α)}

/-- Every summary is one of the traces of a cell. -/
theorem exists_cellmates (hlimit : limit ≤ 0) (h : aggregate width limit traces = .ok entries)
    {e : Entry α} (he : e ∈ entries) (hsummary : e.isAggregated = true) :
    ∃ first members, Cellmates width (Trace.timeline traces) first members ∧
      summarize (cellOf width first) members = .ok e := by
  obtain ⟨sums, hsums, hperm, -⟩ := aggregate_parts hlimit h
  have hmem : e ∈ sums := hperm.mem_iff.mp (List.mem_filter.mpr ⟨he, hsummary⟩)
  obtain ⟨g, hg, hsum⟩ := mem_of_mapM hsums e hmem
  obtain ⟨front, first, back, hsplit, hfront, rfl⟩ := Order.groupBy_splits g hg
  exact ⟨first, _, ⟨front, back, hsplit, hfront, rfl⟩, hsum⟩

/-- **What a summary tells.**  The list of a window is there for every width above nought when its
counts can be reckoned with.  In a list that is not cut off, where no address holds the separator,
every summary stands for the traces of one cell: it has their source, their target and their start,
and shows the route that most of them took, the earliest one among equals.  It says how many they
were, its steps spell the route, and at each of them it has the sums of their probes and answers. -/
theorem summary_depicts_route (hwidth : Scalar.le width Scalar.zero = false) (hlimit : limit ≤ 0)
    (htraces : ∀ t ∈ traces, t.Separable) :
    (∀ fits, Reckons α fits → (∀ t ∈ traces, ∀ hop ∈ t.hops, Counted fits hop) →
      ∃ entries, aggregate width limit traces = .ok entries) ∧
    ∀ entries, aggregate width limit traces = .ok entries →
      ∀ e ∈ entries, e.isAggregated = true →
        ∃ first members, Cellmates width (Trace.timeline traces) first members ∧
          e.source = first.source ∧ e.target = first.target ∧
          e.time = bucketStart width first.time ∧ Depicts members e := by
  refine ⟨fun fits hfits hcounted => aggregate_ok hfits hwidth limit hcounted,
    fun entries h e he hsummary => ?_⟩
  obtain ⟨first, members, hcell, hsum⟩ := exists_cellmates hlimit h he hsummary
  obtain ⟨hsource, htarget, htime⟩ := cell_of_summarize hsum
  have hmembers : ∀ t ∈ members, t.Separable ∧ t.hops ≠ [] := by
    intro t ht
    obtain ⟨hmem, hhops⟩ := Trace.hasHops_of_mem_timeline (hcell.mem t ht)
    exact ⟨htraces t hmem, by simpa [Trace.hasHops] using hhops⟩
  exact ⟨first, members, hcell, hsource, htarget, htime,
    depicts_of_summarize hcell.ne_nil hmembers hsum⟩

end Summaries

/-- A trace of an answered step and a silent one. -/
def halting (address : String) (silent : List Host) (time : Float) : Trace Float where
  source := "7"
  target := "10.0.0.9"
  hops := [Listing.answered 1 address 1.0, { Listing.silent 2 with hosts := silent }]
  time := time

theorem counted_halting (address : String) (silent : List Host) (time : Float) :
    ∀ hop ∈ (halting address silent time).hops,
      Counted (fun sent received => 0 ≤ received ∧ received ≤ sent) hop :=
  List.forall_mem_cons.mpr ⟨⟨1, 1, rfl, rfl, by decide⟩,
    List.forall_mem_singleton.mpr ⟨1, 0, rfl, rfl, by decide⟩⟩

/-- Two routes, one of them taken twice: its silent step has no host once, and once the wildcard. -/
def halts : List (Trace Float) :=
  [halting "10.0.0.1" [⟨wildcard, .null⟩] 3.0, halting "10.0.0.2" [] 1.0, halting "10.0.0.1" [] 2.0]

theorem summary_depicts_route_halts :
    Scalar.le (60.0 : Float) Scalar.zero = false ∧ (0 : Int) ≤ 0 ∧
      (∀ t ∈ halts, t.Separable) ∧
      (∃ entries, aggregate (60.0 : Float) 0 halts = .ok entries ∧
        ∀ e ∈ entries, e.isAggregated = true →
          ∃ first members, Cellmates 60.0 (Trace.timeline halts) first members ∧
            e.source = first.source ∧ e.target = first.target ∧
            e.time = bucketStart 60.0 first.time ∧ Depicts members e) ∧
      (aggregate (60.0 : Float) 0 halts).toOption.map
          (fun entries => (entries.filter Entry.isAggregated).map fun e =>
            (e.signature, e.traceCount, e.hops.map Hop.identifier))
        = some [("10.0.0.1->*", 2, ["10.0.0.1", "*"])] := by
  have hwidth : Scalar.le (60.0 : Float) Scalar.zero = false := by decide +kernel
  have hseparable : ∀ t ∈ halts, t.Separable := by decide +kernel
  have hcounted : ∀ t ∈ halts, ∀ hop ∈ t.hops,
      Counted (fun sent received => 0 ≤ received ∧ received ≤ sent) hop := by
    simp only [halts, List.forall_mem_cons, List.not_mem_nil, false_imp_iff, implies_true, and_true]
    exact ⟨counted_halting _ _ _, counted_halting _ _ _, counted_halting _ _ _⟩
  obtain ⟨hok, hdepicts⟩ := summary_depicts_route hwidth le_rfl hseparable
  obtain ⟨entries, h⟩ := hok _ reckons_float hcounted
  exact ⟨hwidth, le_rfl, hseparable, ⟨entries, h, hdepicts entries h⟩, by decide +kernel⟩

end PathAtlas.Window
