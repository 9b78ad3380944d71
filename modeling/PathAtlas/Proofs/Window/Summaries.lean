/-
# When traces can be summed up

A summary adds up the probes and answers of its traces and takes a share of them, and that is all
that can fail about the list of a window (`aggregate_ok`).  Counts can be reckoned with (`Reckons`)
when they stay such under addition and their shares are in the range of the numbers in use.  Exact
numbers have no end of their range, so any whole counts will do (`reckons_exact`).  Floating point
numbers do have one, but shares between nought and one lie within it: there it is enough that no
step has more answers than probes (`reckons_float`).
-/
import PathAtlas.Proofs.Decimal.Range
import PathAtlas.Proofs.Order.Frequency
import PathAtlas.Proofs.Outcome
import PathAtlas.Window.Aggregate

namespace PathAtlas.Window

variable {α : Type} [Scalar α]

/-! ## 1. Counts that can be reckoned with -/

/-- Counts of probes and answers that can be added up and of which a share can be taken. -/
structure Reckons (α : Type) [Scalar α] (fits : Int → Int → Prop) : Prop where
  nought : fits 0 0
  add : ∀ {m n m' n'}, fits m n → fits m' n' → fits (m + m') (n + n')
  share : ∀ {m n}, fits m n → 0 < m → ∃ x : α, Scalar.quotient (m - n) m = some x

theorem reckons_exact : Reckons Rat fun _ _ => True where
  nought := trivial
  add _ _ := trivial
  share _ _ := ⟨_, rfl⟩

/-- Floats reckon well with counts of which no more was received than sent. -/
theorem reckons_float : Reckons Float fun sent received => 0 ≤ received ∧ received ≤ sent where
  nought := ⟨le_rfl, le_rfl⟩
  add h h' := ⟨Int.add_nonneg h.1 h'.1, Int.add_le_add h.2 h'.2⟩
  share {m n} h hm := by
    have hrange : ¬ Decimal.rangeEnd * m.natAbs ≤ (m - n).natAbs := by
      have hless : (m - n).natAbs ≤ m.natAbs := by omega
      have hlarge : 1 < Decimal.rangeEnd := by decide +kernel
      have hpos : 0 < m.natAbs := by omega
      have hgrows : m.natAbs < Decimal.rangeEnd * m.natAbs := by nlinarith
      omega
    refine Option.ne_none_iff_exists'.mp fun hnone => hrange ?_
    exact (Decimal.quotientFloat?_eq_none_iff hm.ne').mp hnone

/-- The counts of a step are whole and can be reckoned with. -/
def Counted (fits : Int → Int → Prop) (hop : Hop α) : Prop :=
  ∃ m n, hop.sent = .whole m ∧ hop.received = .whole n ∧ fits m n

/-! ## 2. Merged steps -/

section Merging

variable {fits : Int → Int → Prop}

/-- Counts that fit have sums that fit. -/
theorem foldlM_counts (h : Reckons α fits) {steps : List (Hop α)}
    (hsteps : ∀ hop ∈ steps, Counted fits hop) {m n : Int} (hmn : fits m n) :
    ∃ m' n', fits m' n' ∧ (steps.map Hop.sent).foldlM Figure.plus (.whole m) = .ok (.whole m') ∧
      (steps.map Hop.received).foldlM Figure.plus (.whole n) = .ok (.whole n') := by
  induction steps generalizing m n with
  | nil => exact ⟨m, n, hmn, rfl, rfl⟩
  | cons hop steps ih =>
    obtain ⟨k, l, hsent, hreceived, hkl⟩ := hsteps hop List.mem_cons_self
    obtain ⟨m', n', hfits, hsents, hreceiveds⟩ :=
      ih (fun hop' hmem => hsteps hop' (List.mem_cons_of_mem _ hmem)) (h.add hmn hkl)
    refine ⟨m', n', hfits, ?_, ?_⟩
    · rw [List.map_cons, List.foldlM_cons, hsent, Figure.plus_whole]
      exact hsents
    · rw [List.map_cons, List.foldlM_cons, hreceived, Figure.plus_whole]
      exact hreceiveds

/-- The loss of merged steps can be reckoned when their counts fit. -/
theorem not_fails_mergedLoss (h : Reckons α fits) (steps : List (Hop α)) {m n : Int}
    (hmn : fits m n) : ¬ Fails (mergedLoss steps (.whole m) (.whole n)) := by
  unfold mergedLoss
  by_cases hm : 0 < m
  · obtain ⟨x, hx⟩ := h.share hmn hm
    have hpercent : Figure.percent (α := α) (.whole (m - n)) (.whole m)
        = .ok (x * Scalar.ofInt 100) := by
      simp only [Figure.percent, Scalar.percent?, hx]
      rfl
    rw [if_pos (by simp [Figure.isPositive, hm]), Figure.minus_whole]
    change ¬ Fails (Figure.percent (α := α) (.whole (m - n)) (.whole m))
    rw [hpercent]
    exact not_fails_ok _
  · rw [if_neg (by simp [Figure.isPositive, hm])]
    exact not_fails_pure _

/-- Steps with such counts can be merged. -/
theorem not_fails_mergeColumn (h : Reckons α fits) {steps : List (Hop α)}
    (hsteps : ∀ hop ∈ steps, Counted fits hop) : ¬ Fails (mergeColumn steps) := by
  obtain ⟨m, n, hfits, hsent, hreceived⟩ := foldlM_counts h hsteps h.nought
  have hloss := not_fails_mergedLoss h steps hfits
  obtain ⟨loss, hloss⟩ := not_fails_iff.mp hloss
  rw [mergeColumn, Figure.sum, Figure.sum, hsent, hreceived]
  change ¬ Fails (mergedLoss steps (.whole m) (.whole n) >>= _)
  rw [hloss]
  exact not_fails_ok _

theorem not_fails_mergeHops (h : Reckons α fits) {traces : List (Trace α)} (hne : traces ≠ [])
    (htraces : ∀ t ∈ traces, ∀ hop ∈ t.hops, Counted fits hop) : ¬ Fails (mergeHops traces) := by
  rw [mergeHops, if_neg (by simpa using hne), fails_mapM]
  rintro ⟨i, -, hfails⟩
  refine not_fails_mergeColumn h (fun hop hhop => ?_) hfails
  obtain ⟨t, ht, hget⟩ := List.mem_filterMap.mp hhop
  exact htraces t ht hop (List.mem_of_getElem? hget)

/-! ## 3. Summaries -/

theorem beq_cell (c c' : Cell α) :
    (c == c') = (c.source == c'.source && (c.target == c'.target && c.start == c'.start)) := rfl

/-- Cells are told apart like their starts. -/
instance partialEquivBEqCell [PartialEquivBEq α] : PartialEquivBEq (Cell α) where
  symm {c c'} h := by
    simp only [beq_cell, Bool.and_eq_true, beq_iff_eq] at h ⊢
    exact ⟨h.1.symm, h.2.1.symm, BEq.symm h.2.2⟩
  trans {c c' c''} h h' := by
    simp only [beq_cell, Bool.and_eq_true, beq_iff_eq] at h h' ⊢
    exact ⟨h.1.trans h'.1, h.2.1.trans h'.2.1, BEq.trans h.2.2 h'.2.2⟩

/-- With exact starts cells are the same when they are equal. -/
instance lawfulBEqCell [LawfulBEq α] : LawfulBEq (Cell α) where
  rfl {c} := by simp [beq_cell]
  eq_of_beq {c c'} h := by
    simp only [beq_cell, Bool.and_eq_true, beq_iff_eq] at h
    obtain ⟨source, target, start⟩ := c
    obtain ⟨rfl, rfl, rfl⟩ := h
    rfl

/-- A cell with traces has a summary when the counts of their steps fit. -/
theorem not_fails_summarize (h : Reckons α fits) (cell : Cell α) {members : List (Trace α)}
    (hne : members ≠ []) (hmembers : ∀ t ∈ members, ∀ hop ∈ t.hops, Counted fits hop) :
    ¬ Fails (summarize cell members) := by
  have hsignatures : members.map Trace.signature ≠ [] := by simpa using hne
  obtain ⟨s, hdominant, hs⟩ := Order.exists_mostFrequent hsignatures
  obtain ⟨t, ht, rfl⟩ := List.mem_map.mp hs.mem
  have hmatching : members.filter (·.signature == t.signature) ≠ [] :=
    List.ne_nil_of_mem (List.mem_filter.mpr ⟨ht, beq_self_eq_true _⟩)
  have hmerge := not_fails_mergeHops h hmatching fun t' ht' =>
    hmembers t' (List.mem_filter.mp ht').1
  obtain ⟨hops, hhops⟩ := not_fails_iff.mp hmerge
  simp only [summarize, hdominant, Option.getD_some, hhops]
  exact not_fails_ok _

/-- A summary has the source, the target and the start of its cell. -/
theorem cell_of_summarize {cell : Cell α} {members : List (Trace α)} {e : Entry α}
    (h : summarize cell members = .ok e) :
    e.source = cell.source ∧ e.target = cell.target ∧ e.time = cell.start := by
  obtain ⟨hops, -, heq⟩ := bind_eq_ok.mp h
  obtain rfl := Except.ok.inj heq
  exact ⟨rfl, rfl, rfl⟩

/-- What a list of a window is made of. -/
theorem aggregate_eq_ok {width : α} {limit : Int} {traces : List (Trace α)}
    {entries : List (Entry α)} :
    aggregate width limit traces = .ok entries ↔
      Scalar.le width Scalar.zero = false ∧
        ∃ sums, summaries width (Trace.timeline traces) = .ok sums ∧
          truncate limit (Order.descending Entry.time (notables (Trace.timeline traces) ++ sums))
            = entries := by
  unfold aggregate
  cases hwidth : Scalar.le width (Scalar.zero : α) with
  | true => simp
  | false =>
    simp only [Bool.false_eq_true, if_false, true_and, bind_eq_ok]
    exact exists_congr fun sums => and_congr_right fun _ => ⟨Except.ok.inj, congrArg _⟩

/-- **The list of a window** is there when its width is above nought and its counts can be reckoned
with. -/
theorem aggregate_ok (h : Reckons α fits) {width : α}
    (hwidth : Scalar.le width Scalar.zero = false) (limit : Int) {traces : List (Trace α)}
    (htraces : ∀ t ∈ traces, ∀ hop ∈ t.hops, Counted fits hop) :
    ∃ entries, aggregate width limit traces = .ok entries := by
  have hperm : (Trace.sortByTime traces).Perm traces := Order.ascending_perm Trace.time traces
  have hsummaries : ¬ Fails (summaries width (Trace.timeline traces)) := by
    rw [summaries, fails_mapM]
    rintro ⟨g, hg, hfails⟩
    refine not_fails_summarize h g.1 (Order.group_ne_nil g hg) (fun t ht => ?_) hfails
    have hmem : t ∈ Trace.timeline traces :=
      (Order.flatMap_groupBy_perm _ _).mem_iff.mp (List.mem_flatMap.mpr ⟨g, hg, ht⟩)
    exact htraces t (hperm.mem_iff.mp (List.mem_filter.mp hmem).1)
  obtain ⟨sums, hsums⟩ := not_fails_iff.mp hsummaries
  refine ⟨_, aggregate_eq_ok.mpr ⟨hwidth, sums, hsums, rfl⟩⟩

end Merging

/-! ## 4. Single traces and summaries -/

theorem isAggregated_of_mem_notables {timeline : List (Trace α)} :
    ∀ e ∈ notables timeline, e.isAggregated = false := by
  intro e he
  obtain ⟨x, -, hnotable⟩ := List.mem_filterMap.mp he
  obtain ⟨reason, -, rfl⟩ := Option.map_eq_some_iff.mp hnotable
  rfl

/-- A summary is marked as one, and tells neither a route before it nor a reason. -/
theorem of_mem_summaries {width : α} {timeline : List (Trace α)} {sums : List (Entry α)}
    (h : summaries width timeline = .ok sums) :
    ∀ e ∈ sums, e.isAggregated = true ∧ e.reason = none := by
  intro e he
  obtain ⟨g, -, hsum⟩ := mem_of_mapM h e he
  obtain ⟨hops, -, heq⟩ := bind_eq_ok.mp hsum
  rw [← Except.ok.inj heq]
  exact ⟨rfl, rfl⟩

variable {width : α} {limit : Int} {traces : List (Trace α)} {entries : List (Entry α)}

/-- Without a limit the list has all single traces and all summaries. -/
theorem aggregate_perm (hlimit : limit ≤ 0) (h : aggregate width limit traces = .ok entries) :
    ∃ sums, summaries width (Trace.timeline traces) = .ok sums ∧
      entries.Perm (notables (Trace.timeline traces) ++ sums) := by
  obtain ⟨-, sums, hsums, rfl⟩ := aggregate_eq_ok.mp h
  refine ⟨sums, hsums, ?_⟩
  rw [truncate, if_neg (by omega)]
  exact Order.descending_perm Entry.time _

/-- With a limit it has the first entries. -/
theorem aggregate_take (hlimit : limit ≤ 0) (h : aggregate width limit traces = .ok entries)
    {n : Int} (hn : 0 < n) : aggregate width n traces = .ok (entries.take n.toNat) := by
  obtain ⟨hwidth, sums, hsums, rfl⟩ := aggregate_eq_ok.mp h
  refine aggregate_eq_ok.mpr ⟨hwidth, sums, hsums, ?_⟩
  rw [truncate, truncate, if_pos hn, if_neg (by omega)]

/-- Both kinds of entries are told apart by their marks. -/
theorem aggregate_parts (hlimit : limit ≤ 0) (h : aggregate width limit traces = .ok entries) :
    ∃ sums, summaries width (Trace.timeline traces) = .ok sums ∧
      (entries.filter Entry.isAggregated).Perm sums ∧
      (entries.filter fun e => !e.isAggregated).Perm (notables (Trace.timeline traces)) := by
  obtain ⟨sums, hsums, hperm⟩ := aggregate_perm hlimit h
  have hsingle : ∀ e ∈ notables (Trace.timeline traces), e.isAggregated = false :=
    isAggregated_of_mem_notables
  have hsummary := fun e he => (of_mem_summaries hsums e he).1
  refine ⟨sums, hsums, (hperm.filter _).trans (.of_eq ?_), (hperm.filter _).trans (.of_eq ?_)⟩
  · rw [List.filter_append, List.filter_eq_nil_iff.mpr fun e he => by simp [hsingle e he],
      List.filter_eq_self.mpr hsummary, List.nil_append]
  · rw [List.filter_append, List.filter_eq_self.mpr fun e he => by simp [hsingle e he],
      List.filter_eq_nil_iff.mpr fun e he => by simp [hsummary e he], List.append_nil]

end PathAtlas.Window
