/-
# Traces in order of time

Times stand in one order when each is a number and they rank the traces (`Timed`).  Exact times
always do (`timed_of_rat`), and floating point ones unless one of them is NaN (`timed_of_not_nan`).
Traces in order of time are then known from the traces alone (`Chronological`): nothing earlier
stands behind anything later, and what happened at one time keeps the order in which it came.  Which
traces are asked for has no say in that (`filter_sortByTime`), so a part of the traces can be taken
before or after they are put in order.
-/
import PathAtlas.Proofs.Decimal.Comparison
import PathAtlas.Proofs.Order.Stability
import PathAtlas.Decimal.Rounding
import PathAtlas.Route.Signature

namespace PathAtlas.Trace

variable {α : Type} [Scalar α]

/-! ## 1. Times in one order -/

/-- Whether a trace was taken before another one. -/
def earlier (a b : Trace α) : Bool := decide (a.time < b.time)

/-- The times of some traces stand in one order. -/
structure Timed (traces : List (Trace α)) : Prop where
  number : ∀ t ∈ traces, Order.isNumber t.time = true
  ranked : Order.Ranks earlier traces

theorem Timed.of_subset {traces traces' : List (Trace α)} (h : Timed traces)
    (hsub : traces' ⊆ traces) : Timed traces' where
  number t ht := h.number t (hsub ht)
  ranked := h.ranked.of_subset hsub

theorem Timed.filter {traces : List (Trace α)} (h : Timed traces) (p : Trace α → Bool) :
    Timed (traces.filter p) := h.of_subset (List.filter_sublist.subset)

/-- Exact times stand in one order. -/
theorem timed_of_rat (traces : List (Trace Rat)) : Timed traces where
  number _ _ := beq_self_eq_true _
  ranked := Order.ranks_of_lt_iff Trace.time fun _ _ _ _ => decide_eq_true_iff

/-- **Floating point times** stand in one order when none of them is NaN. -/
theorem timed_of_not_nan {traces : List (Trace Float)}
    (h : ∀ t ∈ traces, t.time.isNaN = false) : Timed traces where
  number t ht := Decimal.beq_self_of_not_nan (h t ht)
  ranked := Order.ranks_of_lt_iff (fun t => Decimal.place t.time) fun a ha b hb =>
    decide_eq_true_iff.trans (Decimal.lt_iff_place_lt (h a ha) (h b hb))

/-! ## 2. Traces in order -/

/-- Whether neither of two traces was taken before the other. -/
def simultaneous (a b : Trace α) : Bool := !earlier a b && !earlier b a

/-- A list holds some traces in order of time, those of one time in the order in which they
came. -/
structure Chronological (traces inOrder : List (Trace α)) : Prop where
  perm : inOrder.Perm traces
  ascending : inOrder.Pairwise fun a b => ¬ b.time < a.time
  stable : ∀ t ∈ traces, inOrder.filter (simultaneous t) = traces.filter (simultaneous t)

variable {traces : List (Trace α)}

theorem sortByTime_eq (h : Timed traces) : sortByTime traces = Order.sortBy earlier traces :=
  Order.sortAmong_of_all (List.all_eq_true.mpr h.number) _

theorem filter_sortByTime (h : Timed traces) (p : Trace α → Bool) :
    (sortByTime traces).filter p = sortByTime (traces.filter p) := by
  rw [sortByTime_eq h, sortByTime_eq (h.filter p), Order.filter_sortBy h.ranked]

/-- Traces of one time are in order as they came. -/
theorem sortBy_simultaneous (h : Timed traces) {t : Trace α} (ht : t ∈ traces) :
    Order.sortBy earlier (traces.filter (simultaneous t)) = traces.filter (simultaneous t) := by
  refine Order.sortBy_eq_self (List.pairwise_of_forall_mem_list fun a ha b hb => ?_)
  obtain ⟨ha, hat⟩ := List.mem_filter.mp ha
  obtain ⟨hb, hbt⟩ := List.mem_filter.mp hb
  simp only [simultaneous, Bool.and_eq_true, Bool.not_eq_true'] at hat hbt
  rw [Bool.eq_false_iff]
  intro hba
  rcases h.ranked.between b hb t ht a ha hba with hbad | hbad
  · exact absurd hbad (by simp [hbt.2])
  · exact absurd hbad (by simp [hat.1])

/-- **Sorting by time** puts traces in order of time. -/
theorem chronological_sortByTime (h : Timed traces) : Chronological traces (sortByTime traces) where
  perm := Order.ascending_perm Trace.time traces
  ascending := by
    rw [sortByTime_eq h]
    exact (Order.sortBy_ascending h.ranked).imp of_decide_eq_false
  stable t ht := by
    rw [sortByTime_eq h, Order.filter_sortBy h.ranked, sortBy_simultaneous h ht]

/-! ## 3. Timelines -/

theorem mem_timeline {t : Trace α} : t ∈ timeline traces ↔ t ∈ traces ∧ t.hasHops = true := by
  rw [timeline, sortByTime, List.mem_filter, (Order.ascending_perm time traces).mem_iff]

theorem hasHops_of_mem_timeline {t : Trace α} (ht : t ∈ timeline traces) :
    t ∈ traces ∧ t.hasHops = true := mem_timeline.mp ht

theorem timeline_perm {traces' : List (Trace α)} (h : traces.Perm traces') :
    (timeline traces).Perm (timeline traces') :=
  (((Order.ascending_perm time traces).trans h).trans
    (Order.ascending_perm time traces').symm).filter _

theorem timeline_eq (h : Timed traces) :
    timeline traces = Order.sortBy earlier (traces.filter hasHops) :=
  (filter_sortByTime h _).trans (sortByTime_eq (h.filter _))

theorem timeline_filter (h : Timed traces) (p : Trace α → Bool) :
    timeline (traces.filter p) = (timeline traces).filter p := by
  rw [timeline, timeline, ← filter_sortByTime h, List.filter_filter, List.filter_filter]
  exact List.filter_congr fun t _ => Bool.and_comm _ _

end PathAtlas.Trace
