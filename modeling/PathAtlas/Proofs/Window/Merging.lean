/-
# Merged traces

Merged traces have one step for every place that one of them reaches, and each figure of such a
step is taken from the steps of all traces at that place (`Merged`).

The latencies of a step belong together, the best, the average and the worst of its answers, but
they are merged one by one, and a value of nought is passed over in each.  A step whose average lies
above nought has a worst latency above nought too, so the merged average has a greatest worst
latency above it, and so has the merged best.  The same does not hold of the average and the best:
an average can come from a step with a best latency of nought, which says nothing of the merged
best.  Then all other steps may have been slower than the average (`best_above_average`), and this
is the only way for the merged best to be above the merged average (`merged_latencies`).
-/
import PathAtlas.Proofs.Means
import PathAtlas.Proofs.Window.Summaries

namespace PathAtlas.Window

variable {α : Type} [Scalar α]

/-! ## 1. Steps of merged traces -/

/-- What a step says that is merged from some steps. -/
structure Merged (steps : List (Hop α)) (hop : Hop α) : Prop where
  sent : Figure.sum (steps.map Hop.sent) = .ok hop.sent
  received : Figure.sum (steps.map Hop.received) = .ok hop.received
  hosts : hop.hosts = ((steps.map Hop.hosts).reverse.find? (!·.isEmpty)).getD []
  average : hop.average = Scalar.mean? (positive (steps.map Hop.average))
  best : hop.best = Scalar.smallest? (positive (steps.map Hop.best))
  worst : hop.worst = Scalar.largest? (positive (steps.map Hop.worst))

theorem merged_of_mergeColumn {steps : List (Hop α)} {hop : Hop α}
    (h : mergeColumn steps = .ok hop) : Merged steps hop := by
  obtain ⟨sent, hsent, h⟩ := bind_eq_ok.mp h
  obtain ⟨received, hreceived, h⟩ := bind_eq_ok.mp h
  obtain ⟨loss, -, h⟩ := bind_eq_ok.mp h
  obtain rfl := Except.ok.inj h
  exact ⟨hsent, hreceived, rfl, rfl, rfl, rfl⟩

variable {traces : List (Trace α)} {hops : List (Hop α)}

/-- **Merged traces** have a step for every place of the longest of them. -/
theorem length_mergeHops (h : mergeHops traces = .ok hops) : hops.length = longest traces := by
  unfold mergeHops at h
  split at h
  · cases h
  · rw [← (mapM_eq_ok.mp h).length_eq, List.length_range]

/-- Every step is merged from those at its place. -/
theorem merged_of_mergeHops (h : mergeHops traces = .ok hops) {i : Nat} {hop : Hop α}
    (hi : hops[i]? = some hop) : Merged (column traces i) hop := by
  have hlength := length_mergeHops h
  unfold mergeHops at h
  split at h
  · cases h
  · obtain ⟨hlt, rfl⟩ := List.getElem?_eq_some_iff.mp hi
    have hplace := (List.forall₂_iff_get.mp (mapM_eq_ok.mp h)).2 i
      (by rw [List.length_range, ← hlength]; exact hlt) hlt
    simp only [List.get_eq_getElem, List.getElem_range] at hplace
    exact merged_of_mergeColumn hplace

/-- Whole counts have a whole sum. -/
theorem Merged.counts {steps : List (Hop α)} {hop : Hop α} (h : Merged steps hop)
    {sents receiveds : List Int} (hsents : steps.map Hop.sent = sents.map .whole)
    (hreceiveds : steps.map Hop.received = receiveds.map .whole) :
    hop.sent = .whole sents.sum ∧ hop.received = .whole receiveds.sum := by
  have hsent := h.sent
  have hreceived := h.received
  rw [hsents, Figure.sum_whole] at hsent
  rw [hreceiveds, Figure.sum_whole] at hreceived
  exact ⟨(Except.ok.inj hsent).symm, (Except.ok.inj hreceived).symm⟩

/-! ## 2. Latencies of merged steps -/

/-- The latencies of a step: none of them, or all three in order. -/
def Measured (hop : Hop Rat) : Prop :=
  (hop.best = none ∧ hop.average = none ∧ hop.worst = none) ∨
    ∃ best average worst, hop.best = some best ∧ hop.average = some average ∧
      hop.worst = some worst ∧ 0 ≤ best ∧ best ≤ average ∧ average ≤ worst

theorem mem_positive {values : List (Option Rat)} {x : Rat} :
    x ∈ positive values ↔ some x ∈ values ∧ 0 < x := by
  simp [positive, Scalar.zero, Scalar.ofInt]

theorem mem_positive_map {latency : Hop Rat → Option Rat} {steps : List (Hop Rat)} {step : Hop Rat}
    {x : Rat} (hstep : step ∈ steps) (h : latency step = some x) (hpos : 0 < x) :
    x ∈ positive (steps.map latency) :=
  mem_positive.mpr ⟨h ▸ List.mem_map_of_mem hstep, hpos⟩

/-- Nothing is left of latencies none of which lies above nought. -/
theorem positive_eq_nil_iff {latency : Hop Rat → Option Rat} {steps : List (Hop Rat)} :
    positive (steps.map latency) = [] ↔ ∀ step ∈ steps, ∀ x ∈ latency step, x ≤ 0 := by
  simp only [List.eq_nil_iff_forall_not_mem, mem_positive, List.mem_map, not_and, not_lt]
  constructor
  · exact fun h step hstep x hx => h x ⟨step, hstep, hx⟩
  · rintro h x ⟨step, hstep, hx⟩
    exact h step hstep x hx

/-- The latencies that a step merged from some steps shows: each one unless no step has it above
nought, and in order. -/
structure InOrder (steps : List (Hop Rat)) (hop : Hop Rat) : Prop where
  average_eq_none : hop.average = none ↔ ∀ step ∈ steps, ∀ x ∈ step.average, x ≤ 0
  best_eq_none : hop.best = none ↔ ∀ step ∈ steps, ∀ x ∈ step.best, x ≤ 0
  worst_eq_none : hop.worst = none ↔ ∀ step ∈ steps, ∀ x ∈ step.worst, x ≤ 0
  average_le_worst : ∀ average ∈ hop.average, ∀ worst ∈ hop.worst, average ≤ worst
  best_le_worst : ∀ best ∈ hop.best, ∀ worst ∈ hop.worst, best ≤ worst
  /-- The best may be above the average only for a step with a best latency of nought. -/
  best_le_average : ∀ best ∈ hop.best, ∀ average ∈ hop.average, best ≤ average ∨
    ∃ step ∈ steps, step.best = some 0 ∧ ∃ x ∈ step.average, 0 < x ∧ x < best

section Latencies

variable {steps : List (Hop Rat)} {hop : Hop Rat}

/-- What is merged into an average belongs to a step with three latencies. -/
theorem measured_of_mem (h : ∀ step ∈ steps, Measured step) {x : Rat}
    (hx : x ∈ positive (steps.map Hop.average)) :
    0 < x ∧ ∃ step ∈ steps, step.average = some x ∧ ∃ best worst, step.best = some best ∧
      step.worst = some worst ∧ 0 ≤ best ∧ best ≤ x ∧ x ≤ worst := by
  obtain ⟨hmem, hpos⟩ := mem_positive.mp hx
  obtain ⟨step, hstep, haverage⟩ := List.mem_map.mp hmem
  rcases h step hstep with ⟨-, hnone, -⟩ | ⟨b, a, w, hb, ha, hw, hb0, hba, haw⟩
  · simp [hnone] at haverage
  · obtain rfl : a = x := Option.some.inj (ha.symm.trans haverage)
    exact ⟨hpos, step, hstep, haverage, b, w, hb, hw, hb0, hba, haw⟩

/-- A merged step has its best below its average and that below its worst. -/
theorem inOrder_of_merged (h : ∀ step ∈ steps, Measured step) (hmerged : Merged steps hop) :
    InOrder steps hop := by
  have haverage := hmerged.average
  have hbest := hmerged.best
  have hworst := hmerged.worst
  rw [Scalar.mean?_eq] at haverage
  rw [Scalar.smallest?_eq_min?] at hbest
  rw [Scalar.largest?_eq_max?] at hworst
  constructor
  case average_eq_none => rw [haverage, Scalar.average?_eq_none_iff, positive_eq_nil_iff]
  case best_eq_none => rw [hbest, List.min?_eq_none_iff, positive_eq_nil_iff]
  case worst_eq_none => rw [hworst, List.max?_eq_none_iff, positive_eq_nil_iff]
  case average_le_worst =>
    intro average hsome worst hsome'
    have hmax := (List.max?_eq_some_iff.mp (hworst.symm.trans hsome')).2
    refine Scalar.average?_le (haverage.symm.trans hsome) fun x hx => ?_
    obtain ⟨hpos, step, hstep, -, -, w, -, hw, -, -, hxw⟩ := measured_of_mem h hx
    exact hxw.trans (hmax w (mem_positive_map hstep hw (hpos.trans_le hxw)))
  case best_le_worst =>
    intro best hsome worst hsome'
    have hmax := (List.max?_eq_some_iff.mp (hworst.symm.trans hsome')).2
    obtain ⟨hmem, -⟩ := List.min?_eq_some_iff.mp (hbest.symm.trans hsome)
    obtain ⟨hmem, hpos⟩ := mem_positive.mp hmem
    obtain ⟨step, hstep, hb⟩ := List.mem_map.mp hmem
    rcases h step hstep with ⟨hnone, -, -⟩ | ⟨b, a, w, hb', -, hw, -, hba, haw⟩
    · simp [hnone] at hb
    · obtain rfl : b = best := Option.some.inj (hb'.symm.trans hb)
      have hbw : b ≤ w := hba.trans haw
      exact hbw.trans (hmax w (mem_positive_map hstep hw (hpos.trans_le hbw)))
  case best_le_average =>
    intro best hsome average hsome'
    have hmin := (List.min?_eq_some_iff.mp (hbest.symm.trans hsome)).2
    by_cases hall : ∀ x ∈ positive (steps.map Hop.average), best ≤ x
    · exact .inl (Scalar.le_average? (haverage.symm.trans hsome') hall)
    -- a value below the least best latency has a best latency that was passed over
    obtain ⟨x, hx, hlt⟩ : ∃ x ∈ positive (steps.map Hop.average), x < best := by simpa using hall
    obtain ⟨hpos, step, hstep, hax, b, w, hb, -, hb0, hbx, -⟩ := measured_of_mem h hx
    refine .inr ⟨step, hstep, ?_, x, hax, hpos, hlt⟩
    rcases hb0.eq_or_lt with rfl | hb0
    · exact hb
    · have hbest : best ≤ b := hmin b (mem_positive_map hstep hb hb0)
      exact absurd (hbest.trans hbx) (not_le.mpr hlt)

end Latencies

/-! ## 3. Merged traces -/

/-- **Latencies of merged traces.**  Some traces are given whose steps have no latencies or have all
three in order, none of them below nought.  They can be merged when their counts are whole, and then
a step of the merged trace shows each latency that one of its steps has above nought.  No step has
an average or a best latency above its worst.  It has no best latency above its average either,
unless one of the steps that it was merged from has a best latency of nought and an average that
lies above nought and below the merged best. -/
theorem merged_latencies {traces : List (Trace Rat)} (hne : traces ≠ [])
    (hmeasured : ∀ t ∈ traces, ∀ hop ∈ t.hops, Measured hop) :
    ((∀ t ∈ traces, ∀ hop ∈ t.hops, Counted (fun _ _ => True) hop) →
      ∃ hops, mergeHops traces = .ok hops) ∧
    ∀ hops, mergeHops traces = .ok hops →
      ∀ i hop, hops[i]? = some hop → InOrder (column traces i) hop := by
  refine ⟨fun hcounted => not_fails_iff.mp (not_fails_mergeHops reckons_exact hne hcounted),
    fun hops h i hop hi => inOrder_of_merged (fun step hstep => ?_) (merged_of_mergeHops h hi)⟩
  obtain ⟨t, ht, hget⟩ := List.mem_filterMap.mp hstep
  exact hmeasured t ht step (List.mem_of_getElem? hget)

/-- A trace of one step with some latencies. -/
def timed (best average worst : Rat) : Trace Rat where
  source := "7"
  target := "10.0.0.9"
  time := 0
  hops :=
    [{ ttl := .whole 1, hosts := [⟨"10.0.0.1", .null⟩], loss := 0, average := some average
       best := some best, worst := some worst, jitter := none, sent := .whole 3
       received := .whole 3 }]

theorem measured_timed {best average worst : Rat} (h0 : 0 ≤ best) (hba : best ≤ average)
    (haw : average ≤ worst) : ∀ hop ∈ (timed best average worst).hops, Measured hop := by
  intro hop hhop
  obtain rfl := List.mem_singleton.mp hhop
  exact .inr ⟨best, average, worst, rfl, rfl, rfl, h0, hba, haw⟩

theorem counted_timed (best average worst : Rat) :
    ∀ hop ∈ (timed best average worst).hops, Counted (fun _ _ => True) hop := by
  intro hop hhop
  obtain rfl := List.mem_singleton.mp hhop
  exact ⟨3, 3, rfl, rfl, trivial⟩

/-- An answer that came at once and one that was late, apart and merged. -/
def fastAndSlow : List (Trace Rat) := [timed 0 1 2, timed 5 6 7]

theorem measured_fastAndSlow : ∀ t ∈ fastAndSlow, ∀ hop ∈ t.hops, Measured hop :=
  List.forall_mem_cons.mpr
    ⟨measured_timed (by norm_num) (by norm_num) (by norm_num), List.forall_mem_singleton.mpr
      (measured_timed (by norm_num) (by norm_num) (by norm_num))⟩

/-- The best latency of the first answer is passed over, and its average is not. -/
theorem best_above_average :
    fastAndSlow ≠ [] ∧ (∀ t ∈ fastAndSlow, ∀ hop ∈ t.hops, Measured hop) ∧
      ∃ hops, mergeHops fastAndSlow = .ok hops ∧
        ∃ hop ∈ hops, hop.best = some 5 ∧ hop.average = some (7 / 2) ∧ hop.worst = some 7 ∧
          ¬ (5 : Rat) ≤ 7 / 2 := by
  refine ⟨List.cons_ne_nil _ _, measured_fastAndSlow, _, rfl, _, List.mem_singleton_self _,
    ?_, ?_, ?_, by norm_num⟩
  · decide +kernel
  · decide +kernel
  · decide +kernel

theorem merged_latencies_fastAndSlow :
    fastAndSlow ≠ [] ∧ (∀ t ∈ fastAndSlow, ∀ hop ∈ t.hops, Measured hop) ∧
      (∀ t ∈ fastAndSlow, ∀ hop ∈ t.hops, Counted (fun _ _ => True) hop) ∧
      ∃ hops, mergeHops fastAndSlow = .ok hops ∧
        ∀ i hop, hops[i]? = some hop → InOrder (column fastAndSlow i) hop := by
  have hne : fastAndSlow ≠ [] := List.cons_ne_nil _ _
  have hcounted : ∀ t ∈ fastAndSlow, ∀ hop ∈ t.hops, Counted (fun _ _ => True) hop :=
    List.forall_mem_cons.mpr
      ⟨counted_timed 0 1 2, List.forall_mem_singleton.mpr (counted_timed 5 6 7)⟩
  obtain ⟨hok, hordered⟩ := merged_latencies hne measured_fastAndSlow
  obtain ⟨hops, h⟩ := hok hcounted
  exact ⟨hne, measured_fastAndSlow, hcounted, hops, h, hordered hops h⟩

end PathAtlas.Window
