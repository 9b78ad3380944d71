/-
# The list of a part of a window

Entries belong to a source and a target, and so do the traces that they are made of.  What is
listed of the traces from some sources to some targets is therefore what the list of all traces
has of them, in the same order (`aggregate_filter`): the signature before a trace is one of its own
stream (`filter_withPrevious`), no cell has traces of two streams (`filter_summaries`), and sorting
does not tell elements of one kind by the others.

The last of these needs an order among the times of all entries, and a cell has none when its start
is no number.  Such cells do no harm where they come last (`StartsFirst`).  With exact numbers there
are none, and with floating point ones they are the latest as long as no time is the least number of
all (`startsFirst_of_float`).  A trace from the beginning of time, though, gives a cell that comes
first and has no place among the others.
-/
import PathAtlas.Proofs.Order.Descending
import PathAtlas.Proofs.Window.Departures

namespace PathAtlas.Window

variable {α : Type}

/-! ## 1. Notable traces -/

section Notables

variable {p : String → String → Bool}

/-- **The signature before a trace** is known from its own stream. -/
theorem filter_withPrevious {last last' : List ((String × String) × String)}
    (h : ∀ source target, p source target = true →
      lastSignature last' source target = lastSignature last source target)
    (traces : List (Trace α)) :
    (withPrevious last traces).filter (fun x => p x.2.source x.2.target)
      = withPrevious last' (traces.filter fun t => p t.source t.target) := by
  induction traces generalizing last last' with
  | nil => rfl
  | cons trace traces ih =>
    cases htrace : p trace.source trace.target with
    | true =>
      have hlast : (last'.find? fun entry => entry.1 == (trace.source, trace.target)).map Prod.snd
        = (last.find? fun entry => entry.1 == (trace.source, trace.target)).map Prod.snd :=
          h trace.source trace.target htrace
      rw [withPrevious, List.filter_cons, List.filter_cons, if_pos htrace, if_pos htrace,
        withPrevious, hlast]
      refine congrArg (_ :: ·) (ih fun source target hp => ?_)
      rw [lastSignature_cons, lastSignature_cons, h source target hp]
    | false =>
      rw [withPrevious, List.filter_cons, List.filter_cons, if_neg (by simp [htrace]),
        if_neg (by simp [htrace])]
      refine ih fun source target hp => ?_
      -- the trace is of a stream that is not asked for
      rw [lastSignature_cons, if_neg, h source target hp]
      rintro ⟨⟩
      simp [htrace] at hp

variable [Scalar α]

/-- An entry has the source and the target of its trace. -/
theorem ends_of_notable? {previous : Option String} {trace : Trace α} {e : Entry α}
    (h : notable? previous trace = some e) :
    e.source = trace.source ∧ e.target = trace.target ∧ e.time = trace.time := by
  obtain ⟨reason, -, rfl⟩ := Option.map_eq_some_iff.mp h
  exact ⟨rfl, rfl, rfl⟩

/-- To leave out traces by source and target is to leave out their single entries. -/
theorem filter_notables (p : String → String → Bool) (timeline : List (Trace α)) :
    (notables timeline).filter (fun e => p e.source e.target)
      = notables (timeline.filter fun t => p t.source t.target) := by
  rw [notables, notables, ← filter_withPrevious fun _ _ _ => rfl, List.filter_filterMap,
    List.filterMap_filter]
  refine List.filterMap_congr fun x _ => ?_
  cases hx : notable? x.1 x.2 with
  | none => simp [hx]
  | some e =>
    obtain ⟨hsource, htarget, -⟩ := ends_of_notable? hx
    simp [hx, Option.filter, hsource, htarget]

end Notables

/-! ## 2. Summaries -/

section Summaries

variable [Scalar α]

/-- To leave out traces by source and target is to leave out the summaries of theirs. -/
theorem filter_summaries (p : String → String → Bool) {width : α} {timeline : List (Trace α)}
    {sums : List (Entry α)} (h : summaries width timeline = .ok sums) :
    summaries width (timeline.filter fun t => p t.source t.target)
      = .ok (sums.filter fun e => p e.source e.target) := by
  have hsame : ∀ c c' : Cell α, (c == c') = true → p c.source c.target = p c'.source c'.target := by
    intro c c' hc
    simp only [beq_cell, Bool.and_eq_true, beq_iff_eq] at hc
    rw [hc.1, hc.2.1]
  have hgroups := Order.groupBy_filter (p := fun c : Cell α => p c.source c.target) hsame
    (cellOf width) timeline
  refine (congrArg (List.mapM _) hgroups).trans (filter_mapM (fun g e he => ?_) h)
  obtain ⟨hsource, htarget, -⟩ := cell_of_summarize he
  rw [hsource, htarget]

end Summaries

/-! ## 3. Times of entries -/

section Times

variable [Scalar α]

/-- Traces whose buckets have a start come before those whose buckets have none. -/
def StartsFirst (width : α) (traces : List (Trace α)) : Prop :=
  ∀ t ∈ traces, ∀ t' ∈ traces, ¬ t'.time < t.time →
    Order.isNumber (bucketStart width t'.time) = true →
    Order.isNumber (bucketStart width t.time) = true

/-- With exact times every bucket has a start. -/
theorem startsFirst_of_rat (width : Rat) (traces : List (Trace Rat)) : StartsFirst width traces :=
  fun _ _ _ _ _ _ => beq_self_eq_true _

/-- **With floating point times** the buckets without a start are the latest, unless a trace is from
the beginning of time. -/
theorem startsFirst_of_float {width : Float} {traces : List (Trace Float)} (hwidth : 0 < width)
    (h : ∀ t ∈ traces, -1.0 / 0.0 < t.time) : StartsFirst width traces := by
  intro t ht t' ht' hlater hstart
  have hnone : ∀ x, Order.isNumber (bucketStart width x) = true ↔
      ¬ (x.isFinite = false ∨ width.isFinite = false ∧ ¬ x < 0.0) := by
    intro x
    rw [Decimal.isNumber_eq, ← Decimal.isNaN_floorDivFloat_mul hwidth, Bool.not_eq_true,
      Bool.not_eq_true']
    rfl
  rw [hnone] at hstart ⊢
  refine fun hend => hstart (hend.imp (fun hinfinite => ?_) fun ⟨hwide, hneg⟩ => ⟨hwide, ?_⟩)
  · rw [← Bool.not_eq_true]
    exact fun hfinite =>
      hlater (Decimal.lt_infinity hfinite (Decimal.of_not_finite (h t ht) hinfinite))
  · exact fun hneg' =>
      (Decimal.lt_or_lt hneg' (Decimal.isNaN_of_lt (h t ht)).2).elim hlater hneg

variable {width : α} {traces : List (Trace α)} {sums : List (Entry α)}

/-- Single traces are listed with their times. -/
theorem isNumber_of_mem_notables (h : Trace.Timed traces) :
    ∀ e ∈ notables (Trace.timeline traces), Order.isNumber e.time = true := by
  intro e he
  obtain ⟨x, hx, hnotable⟩ := List.mem_filterMap.mp he
  obtain ⟨-, -, htime⟩ := ends_of_notable? hnotable
  have htrace : x.2 ∈ (withPrevious [] (Trace.timeline traces)).map Prod.snd :=
    List.mem_map_of_mem hx
  rw [map_snd_withPrevious] at htrace
  rw [htime]
  exact h.number _ (Trace.hasHops_of_mem_timeline htrace).1

/-- Summaries are listed with the starts of their cells, in the order of their first traces. -/
theorem map_time_sublist {timeline : List (Trace α)} (h : summaries width timeline = .ok sums) :
    (sums.map Entry.time).Sublist (timeline.map fun t => bucketStart width t.time) := by
  have htimes : sums.map Entry.time
      = ((Order.groupBy (cellOf width) timeline).map Prod.fst).map Cell.start := by
    rw [List.map_map]
    exact map_eq_of_mapM (fun g e he => (cell_of_summarize he).2.2) h
  have hkeys := (Order.map_fst_groupBy_sublist (cellOf width) timeline).map Cell.start
  rwa [← htimes, List.map_map] at hkeys

/-- In the order in which entries are made, those whose times are numbers come first. -/
theorem numbersFirst_entries (h : Trace.Timed traces) (hstarts : StartsFirst width traces)
    (hsums : summaries width (Trace.timeline traces) = .ok sums) :
    Order.NumbersFirst Entry.time (notables (Trace.timeline traces) ++ sums) := by
  have hordered : (Trace.timeline traces).Pairwise fun t t' => ¬ t'.time < t.time :=
    (Trace.chronological_sortByTime h).ascending.filter _
  have hcells : ((Trace.timeline traces).map fun t => bucketStart width t.time).Pairwise
      fun x y => Order.isNumber y = true → Order.isNumber x = true :=
    List.pairwise_map.mpr (hordered.imp_of_mem fun ht ht' hlater =>
      hstarts _ (Trace.hasHops_of_mem_timeline ht).1 _ (Trace.hasHops_of_mem_timeline ht').1
        hlater)
  have hnotable := isNumber_of_mem_notables h
  exact List.pairwise_append.mpr
    ⟨List.pairwise_of_forall_mem_list fun a ha _ _ _ => hnotable a ha,
      List.pairwise_map.mp (hcells.sublist (map_time_sublist hsums)),
      fun a ha _ _ _ => hnotable a ha⟩

/-! ## 4. The list -/

/-- **The list of a part of a window** is that part of the list, when it is not cut off. -/
theorem aggregate_filter (hα : Order.Comparable α) (h : Trace.Timed traces)
    (hstarts : StartsFirst width traces) (p : String → String → Bool) {limit : Int}
    (hlimit : limit ≤ 0) {entries : List (Entry α)}
    (hall : aggregate width limit traces = .ok entries) :
    aggregate width limit (traces.filter fun t => p t.source t.target)
      = .ok (entries.filter fun e => p e.source e.target) := by
  obtain ⟨hwidth, sums, hsums, rfl⟩ := aggregate_eq_ok.mp hall
  have hlong : ¬ 0 < limit := not_lt.mpr hlimit
  rw [aggregate_eq_ok, Trace.timeline_filter h]
  refine ⟨hwidth, _, filter_summaries p hsums, ?_⟩
  rw [truncate, truncate, if_neg hlong, if_neg hlong, ← filter_notables, ← List.filter_append,
    Order.filter_descending hα (numbersFirst_entries h hstarts hsums)]

end Times

end PathAtlas.Window
