/-
# The newest traces

An analysis looks at the newest traces that have hops.  It sorts them with the newest first, and
this sort leaves traces of one time as they came.  Every other view has the newest last, and that
sort leaves traces of one time as they came too.  So the traces that are looked at are the end of
the timeline that the traces have WHEN THEY COME THE OTHER WAY ROUND (`newest_eq`), and of two
traces of one time it is the first one to come that counts as the newest.

Wherever two times are apart, the timeline is cut at the same place whichever way round the traces
come (`Trace.rtake_timeline_perm`).  What is told of all traces behind a cut does not depend on
their order (`figures_of_mem`), and what is told of the last one needs a cut right before it.
-/
import Mathlib.Data.List.DropRight
import PathAtlas.Analysis
import PathAtlas.Proofs.Order.Agreement
import PathAtlas.Proofs.Route.Groups

namespace PathAtlas

variable {α : Type}

/-! ## 1. Routes of a window -/

namespace Route

variable {traces traces' : List (Trace α)}

theorem counts_perm (h : traces.Perm traces') : (counts traces).Perm (counts traces') :=
  Order.tally_perm ((h.filter _).map _)

/-- Every route is counted once. -/
theorem length_counts (traces : List (Trace α)) :
    (counts traces).length = ((traces.filter Trace.hasHops).map Trace.signature).toFinset.card := by
  rw [counts, Order.tally_eq, List.length_map,
    ← List.toFinset_card_of_nodup (Order.nodup_distinct _)]
  congr 1
  ext signature
  rw [List.mem_toFinset, List.mem_toFinset, Order.mem_distinct]

/-- **Stability** does not depend on the order of the traces. -/
theorem stability_perm [Scalar α] (h : traces.Perm traces') :
    (stability traces : α) = stability traces' := by
  have hmost : ((counts traces).map Prod.snd).foldl max 0
      = ((counts traces').map Prod.snd).foldl max 0 := ((counts_perm h).map _).foldl_eq 0
  have htotal : (traces.filter Trace.hasHops).length = (traces'.filter Trace.hasHops).length :=
    (h.filter _).length_eq
  simp only [stability, hmost, htotal]

end Route

/-! ## 2. The end of a timeline -/

namespace Trace

variable [Scalar α] {traces traces' : List (Trace α)}

/-- Each of the last `n` traces was taken after all traces before those. -/
def PartedAt (n : Nat) (inOrder : List (Trace α)) : Prop :=
  ∀ a ∈ inOrder.rdrop n, ∀ b ∈ inOrder.rtake n, a.time < b.time

/-- **The traces behind a cut** between two times are the same in whatever order they come. -/
theorem rtake_timeline_perm (h : Timed traces) (hperm : traces'.Perm traces) {n : Nat}
    (hcut : PartedAt n (timeline traces)) :
    ((timeline traces').rtake n).Perm ((timeline traces).rtake n) := by
  have hall : (timeline traces').Perm ((timeline traces).rdrop n ++ (timeline traces).rtake n) := by
    rw [List.rdrop, List.rtake, List.take_append_drop]
    exact timeline_perm hperm
  have htimed : Timed traces' := h.of_subset hperm.subset
  have hasc : Order.Ascending earlier (timeline traces') := by
    rw [timeline_eq htimed]
    exact Order.sortBy_ascending (htimed.filter _).ranked
  have hranks : Order.Ranks earlier (timeline traces') :=
    htimed.ranked.of_subset fun _ ht => (hasHops_of_mem_timeline ht).1
  obtain ⟨front, back, hsplit, hfront, hback⟩ :=
    hasc.cut hranks hall fun a ha b hb => decide_eq_true (hcut a ha b hb)
  have hplace : (timeline traces').length - n = front.length := by
    rw [hfront.length_eq, List.rdrop, List.length_take, (timeline_perm hperm).length_eq]
    omega
  have hrtake : (timeline traces').rtake n = back := by
    rw [List.rtake, hplace, hsplit, List.drop_left]
  rwa [hrtake]

theorem getLast?_rtake {β : Type} {n : Nat} (h : 1 ≤ n) (xs : List β) :
    (xs.rtake n).getLast? = xs.getLast? := by
  rw [List.rtake, List.getLast?_drop]
  split
  · have hnil : xs = [] := List.length_eq_zero_iff.mp (by omega)
    rw [hnil, List.getLast?_nil]
  · rfl

/-- The last trace is the same in whatever order they come, if it was taken after all others. -/
theorem getLast?_timeline_perm (h : Timed traces) (hperm : traces'.Perm traces)
    (hcut : PartedAt 1 (timeline traces)) :
    (timeline traces').getLast? = (timeline traces).getLast? := by
  have hlast := rtake_timeline_perm h hperm hcut
  have hone : ((timeline traces).rtake 1).length ≤ 1 := by
    rw [List.rtake, List.length_drop]
    omega
  rw [← getLast?_rtake le_rfl (timeline traces'), ← getLast?_rtake le_rfl (timeline traces)]
  rcases hrest : (timeline traces).rtake 1 with _ | ⟨t, _ | ⟨u, rest⟩⟩ <;> rw [hrest] at hlast hone
  · rw [hlast.eq_nil]
  · rw [List.perm_singleton.mp hlast]
  · simp at hone

end Trace

namespace Analysis

variable [Scalar α] {traces : List (Trace α)} {limit : Int}

/-- The last traces of a timeline. -/
def window (limit : Int) (traces : List (Trace α)) : List (Trace α) :=
  (Trace.timeline traces).rtake limit.toNat

theorem hasHops_of_mem_window {t : Trace α} (h : t ∈ window limit traces) : t.hasHops = true :=
  (Trace.hasHops_of_mem_timeline (List.mem_of_mem_drop h)).2

theorem getLast?_window (h : 1 ≤ limit) (traces : List (Trace α)) :
    (window limit traces).getLast? = (Trace.timeline traces).getLast? :=
  Trace.getLast?_rtake (by omega) _

/-- **The traces that are looked at** are the last ones of the timeline that the traces have when
they come the other way round, the last one first. -/
theorem newest_eq (h : Trace.Timed traces) (hlimit : 1 ≤ limit) :
    newest limit traces = (window limit traces.reverse).reverse := by
  have hnumber : ((traces.filter Trace.hasHops).all fun t => Order.isNumber t.time) = true :=
    List.all_eq_true.mpr (h.filter _).number
  have hdescending : Order.descending Trace.time (traces.filter Trace.hasHops)
      = Order.sortBy (fun a b => Trace.earlier b a) (traces.filter Trace.hasHops) := if_pos hnumber
  have htimeline : Trace.timeline traces.reverse
      = Order.sortBy Trace.earlier (traces.filter Trace.hasHops).reverse := by
    rw [Trace.timeline_eq (h.of_subset (List.reverse_perm traces).subset), List.filter_reverse]
  rw [newest, firstMost, if_pos (by omega), hdescending,
    ← Order.Runs.reverse_sortBy_reverse (h.filter _).ranked.flip, ← htimeline, window,
    List.rtake_eq_reverse_take_reverse, List.reverse_reverse]

/-! ## 3. What is told of a window -/

namespace PathAnalysis

/-- What an analysis tells of all traces of a window. -/
structure Figures (a : PathAnalysis α) (window : List (Trace α)) : Prop where
  traceCount : a.traceCount = window.length
  hopCount : IsGreatest {n | ∃ t ∈ window, t.hops.length = n} a.hopCount
  uniqueRoutes : a.uniqueRoutes = (window.map Trace.signature).toFinset.card
  stability : a.stability = Route.stability window
  /-- The means are taken of the window, whose traces are added up in some order. -/
  means : ∃ inOrder : List (Trace α), inOrder.Perm window ∧
    a.endLatency = Scalar.mean (inOrder.map lastLatency) ∧
    a.endLoss = Scalar.mean (inOrder.map Analysis.endLoss)
  /-- Where addition is exact, its order has no say in them. -/
  exactMeans : ∀ value, Scalar.Exact value →
    value a.endLatency = ((window.map lastLatency).map value).sum / window.length ∧
    value a.endLoss = ((window.map Analysis.endLoss).map value).sum / window.length

/-- What an analysis tells of the last trace of a window. -/
def Artifacts (a : PathAnalysis α) (window : List (Trace α)) : Prop :=
  ∀ t ∈ window.getLast?, a.rateLimited = rateLimitedHops t ∧ a.silent = silentSegments t

end PathAnalysis

variable {a : PathAnalysis α}

/-- A mean of exact values does not depend on their order. -/
theorem exact_mean_perm {value : α → Rat} (hvalue : Scalar.Exact value) (figure : Trace α → α)
    {inOrder window : List (Trace α)} (h : inOrder.Perm window) :
    value (Scalar.mean (inOrder.map figure))
      = ((window.map figure).map value).sum / window.length := by
  rw [hvalue.mean, ((h.map figure).map value).sum_eq, List.length_map, h.length_eq]

theorem analyze_eq_none_iff : analyze limit traces = none ↔ newest limit traces = [] := by
  unfold analyze
  split
  · rename_i hnil
    exact ⟨fun _ => hnil, fun _ => rfl⟩
  · rename_i hcons
    rw [hcons]
    exact ⟨nofun, nofun⟩

/-- **The figures** are those of the traces that are looked at, in any order. -/
theorem figures_of_mem (ha : a ∈ analyze limit traces) {window : List (Trace α)}
    (hperm : (newest limit traces).Perm window) (hhops : ∀ t ∈ window, t.hasHops = true) :
    a.Figures window := by
  unfold analyze at ha
  split at ha
  · cases ha
  rename_i first rest hnewest
  obtain rfl := Option.some.inj ha
  rw [hnewest] at hperm
  constructor
  case traceCount => exact hperm.length_eq
  case hopCount =>
    have hmem : ∀ {n}, n ∈ (first :: rest).map (fun t => t.hops.length)
        ↔ ∃ t ∈ window, t.hops.length = n := by
      intro n
      simp only [List.mem_map, hperm.mem_iff]
    refine ⟨?_, fun n hn => Order.le_foldl_max (hmem.mpr hn) 0⟩
    rcases Order.foldl_max_mem ((first :: rest).map fun t => t.hops.length) 0 with hzero | hfound
    · have hfirst : first.hops.length = 0 :=
        Nat.le_zero.mp (hzero ▸ Order.le_foldl_max (by simp) 0)
      exact ⟨first, hperm.subset List.mem_cons_self, hfirst.trans hzero.symm⟩
    · exact hmem.mp hfound
  case uniqueRoutes =>
    rw [(Route.counts_perm hperm).length_eq, Route.length_counts, List.filter_eq_self.mpr hhops]
  case stability => exact Route.stability_perm hperm
  case means => exact ⟨first :: rest, hperm, rfl, rfl⟩
  case exactMeans =>
    exact fun value hvalue => ⟨exact_mean_perm hvalue _ hperm, exact_mean_perm hvalue _ hperm⟩

/-- **The artifacts** are those of the trace that is looked at first. -/
theorem artifacts_of_mem (ha : a ∈ analyze limit traces) {window : List (Trace α)}
    (hlast : window.getLast? = (newest limit traces).head?) : a.Artifacts window := by
  unfold analyze at ha
  split at ha
  · cases ha
  rename_i first rest hnewest
  obtain rfl := Option.some.inj ha
  intro t ht
  rw [hlast, hnewest] at ht
  obtain rfl := Option.some.inj ht
  exact ⟨rfl, rfl⟩

/-! ## 4. Main result -/

/-- **An analysis** tells of the newest traces.  When times stand in one order, there is one unless
no trace has hops, and it is an analysis of the last traces of the timeline that the traces have
when they come the other way round.  Its figures are those of the last traces of the timeline itself
where the first of these was taken after all traces before it, and its artifacts are those of the
last trace of all where that one was taken after all others. -/
theorem analyze_newest (htimed : Trace.Timed traces) (hlimit : 1 ≤ limit) :
    (analyze limit traces = none ↔ Trace.timeline traces = []) ∧
      ∀ a ∈ analyze limit traces,
        a.Figures (window limit traces.reverse) ∧ a.Artifacts (window limit traces.reverse) ∧
        (Trace.PartedAt limit.toNat (Trace.timeline traces) → a.Figures (window limit traces)) ∧
        (Trace.PartedAt 1 (Trace.timeline traces) → a.Artifacts (window limit traces)) := by
  have hnewest := newest_eq htimed hlimit
  have hback : (newest limit traces).Perm (window limit traces.reverse) :=
    hnewest ▸ List.reverse_perm _
  have hhead : (newest limit traces).head? = (Trace.timeline traces.reverse).getLast? := by
    rw [hnewest, List.head?_reverse, getLast?_window hlimit]
  have hreverse : traces.reverse.Perm traces := List.reverse_perm traces
  refine ⟨?_, fun a ha => ⟨?_, ?_, fun hcut => ?_, fun hcut => ?_⟩⟩
  · rw [analyze_eq_none_iff, ← List.head?_eq_none_iff, hhead, List.getLast?_eq_none_iff]
    have hlength := (Trace.timeline_perm hreverse).length_eq
    rw [← List.length_eq_zero_iff, hlength, List.length_eq_zero_iff]
  · exact figures_of_mem ha hback fun t ht => hasHops_of_mem_window ht
  · exact artifacts_of_mem ha ((getLast?_window hlimit _).trans hhead.symm)
  · have hwindow := Trace.rtake_timeline_perm htimed hreverse hcut
    exact figures_of_mem ha (hback.trans hwindow) fun t ht => hasHops_of_mem_window ht
  · have hlast := Trace.getLast?_timeline_perm htimed hreverse hcut
    exact artifacts_of_mem ha ((getLast?_window hlimit _).trans (hlast.symm.trans hhead.symm))

/-- Traces of which two were taken at one time, neither of them the first or the last one. -/
def arrivals : List (Trace Rat) :=
  [Route.sighting "10.0.0.1" 2, Route.sighting "10.0.0.2" 1, Route.sighting "10.0.0.3" 1,
    Route.sighting "10.0.0.4" 0]

theorem analyze_newest_arrivals :
    Trace.Timed arrivals ∧ (1 : Int) ≤ 3 ∧
      (window 3 arrivals).map Trace.signature = ["10.0.0.2", "10.0.0.3", "10.0.0.1"] ∧
      ∃ a, analyze 3 arrivals = some a ∧ a.Figures (window 3 arrivals) ∧
        a.Artifacts (window 3 arrivals) ∧ (a.traceCount, a.endLatency) = (3, 4 / 3) := by
  have htimed := Trace.timed_of_rat arrivals
  have hlimit : (1 : Int) ≤ 3 := by decide
  obtain ⟨hnone, hsome⟩ := analyze_newest htimed hlimit
  have hfound : (analyze 3 arrivals).map (fun a => (a.traceCount, a.endLatency))
      = some (3, 4 / 3) := by decide +kernel
  obtain ⟨a, ha, hfigures⟩ := Option.map_eq_some_iff.mp hfound
  obtain ⟨-, -, hwindow, hlast⟩ := hsome a ha
  refine ⟨htimed, hlimit, by decide +kernel, a, ha, hwindow ?_, hlast ?_, hfigures⟩
  · show ∀ a ∈ (Trace.timeline arrivals).rdrop 3, ∀ b ∈ (Trace.timeline arrivals).rtake 3,
      a.time < b.time
    decide +kernel
  · show ∀ a ∈ (Trace.timeline arrivals).rdrop 1, ∀ b ∈ (Trace.timeline arrivals).rtake 1,
      a.time < b.time
    decide +kernel

/-- Two traces of one time, the second of which found a silent hop on its way. -/
def overtaken : List (Trace Rat) :=
  [Route.sighting "10.0.0.1" 2,
    { Route.sighting "10.0.0.1" 2 with
      hops :=
        { ttl := .whole 1, hosts := [], loss := 100, average := none, best := none, worst := none,
          jitter := none, sent := .whole 1, received := .whole 0 }
          :: (Route.sighting "10.0.0.1" 2).hops }]

/-- **The first to come counts as the newest** of traces of one time: neither the figures nor the
artifacts are those of the last one of the timeline. -/
theorem analyze_prefers_first_arrival :
    Trace.Timed overtaken ∧
      (∃ a, analyze 1 overtaken = some a ∧ ¬ a.Figures (window 1 overtaken)) ∧
      ∃ a, analyze 2 overtaken = some a ∧ ¬ a.Artifacts (window 2 overtaken) := by
  have hlast : (window 1 overtaken).map (fun t => t.hops.length) = [2] := by decide +kernel
  have hrows : (window 2 overtaken).getLast?.map silentSegments = some [⟨1, 1⟩] := by decide +kernel
  have hlooked : (analyze 1 overtaken).map PathAnalysis.hopCount = some 1 := by decide +kernel
  have hsilent : (analyze 2 overtaken).map PathAnalysis.silent = some [] := by decide +kernel
  refine ⟨Trace.timed_of_rat overtaken, ?_, ?_⟩
  · obtain ⟨a, ha, hcount⟩ := Option.map_eq_some_iff.mp hlooked
    refine ⟨a, ha, fun h => ?_⟩
    obtain ⟨t, ht, hhops⟩ := h.hopCount.1
    have hmem : t.hops.length ∈ [2] := hlast ▸ List.mem_map_of_mem ht
    rw [hhops, hcount] at hmem
    simp at hmem
  · obtain ⟨a, ha, hnone⟩ := Option.map_eq_some_iff.mp hsilent
    obtain ⟨t, ht, hrow⟩ := Option.map_eq_some_iff.mp hrows
    refine ⟨a, ha, fun h => ?_⟩
    have hsegments := (h t ht).2
    rw [hnone, hrow] at hsegments
    cases hsegments

end Analysis

end PathAtlas
