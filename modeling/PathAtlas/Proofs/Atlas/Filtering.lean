/-
# Views of a part of a window

An atlas can be asked for the traces from one source or to one target only.  It then makes its views
of these traces as if there were no others.  Nothing is lost by that: a change report is about one
stream and made from its traces alone, so what is reported of a part are the reports of all that are
about it (`routeChanges_filter`), and the list of a part is that part of the list
(`aggregated_filter`).

The list takes one thing for granted, that its entries can be put in order of time.  Exact times
always can (`aggregated_filter_of_rat`).  Among floating point ones, a trace from the beginning of
time is in no bucket that has a start, and with such an entry in the middle both lists come out in
orders that have nothing to do with each other (`aggregated_ne_filter`).
-/
import PathAtlas.Atlas.Views
import PathAtlas.Proofs.Atlas.Lifecycle
import PathAtlas.Proofs.Window.Filtering

namespace PathAtlas

variable {α : Type}

/-! ## 1. Reports -/

namespace Change

/-- Whether a stream by source and target is asked for, where these are given. -/
def Stream.isAsked (source target : Option String) (stream : Stream) : Bool :=
  source.all (stream.source == ·) && target.all (stream.target == some ·)

section Filtering

variable {source target : Option String}

/-- The traces from a source that are looked at for a target are those of the streams that are asked
for. -/
theorem wanted_eq (source target : Option String) (t : Trace α) :
    (source.all (t.source == ·) && wanted target t)
      = (wanted none t && (Stream.ofTrace true t).isAsked source target) := by
  simp only [wanted, Stream.isAsked, Stream.ofTrace, Option.all_none, Bool.and_true, if_true,
    Option.some_beq_some]
  exact Bool.and_left_comm _ _ _

variable [Scalar α] {traces : List (Trace α)}

/-- The streams of the traces that are asked for are the streams that are. -/
theorem streams_filter : streams target true (traces.filter fun t => source.all (t.source == ·))
    = (streams none true traces).filter (Stream.isAsked source target) := by
  refine Order.eq_of_pairwise_of_mem_iff (fun {a b} hab hba => ?_) (streams_sorted _ _ _)
    ((streams_sorted _ _ _).filter _) fun stream => ?_
  · simp [Stream.before, Order.isOrder_pair.asymm hab] at hba
  have hasked : ∀ t : Trace α, (source.all (t.source == ·) = true ∧ wanted target t = true) ↔
      wanted none t = true ∧ (Stream.ofTrace true t).isAsked source target = true := by
    intro t
    rw [← Bool.and_eq_true_iff, wanted_eq, Bool.and_eq_true_iff]
  rw [List.mem_filter, mem_streams, mem_streams]
  constructor
  · rintro ⟨t, ht, hwanted, rfl⟩
    obtain ⟨ht, hsource⟩ := List.mem_filter.mp ht
    obtain ⟨hwanted, hstream⟩ := (hasked t).mp ⟨hsource, hwanted⟩
    exact ⟨⟨t, ht, hwanted, rfl⟩, hstream⟩
  · rintro ⟨⟨t, ht, hwanted, rfl⟩, hstream⟩
    obtain ⟨hsource, hwanted⟩ := (hasked t).mpr ⟨hwanted, hstream⟩
    exact ⟨t, List.mem_filter.mpr ⟨ht, hsource⟩, hwanted, rfl⟩

/-- The report of a stream does not change when other traces are left out. -/
theorem reportOf_filter (h : Trace.Timed traces) {stream : Stream}
    (hstream : stream.isAsked source target = true) :
    reportOf target true (traces.filter fun t => source.all (t.source == ·)) stream
      = reportOf none true traces stream := by
  rw [reportOf, reportOf, ← Trace.filter_sortByTime h, List.filter_filter]
  refine congrArg (fun ts => Report.ofObservations stream (follow none ts))
    (List.filter_congr fun t _ => ?_)
  have hwanted := wanted_eq source target t
  rw [counts, counts, Bool.and_comm, ← Bool.and_assoc, hwanted]
  cases hsame : Stream.ofTrace true t == stream with
  | false => simp
  | true => simp [eq_of_beq hsame, hstream]

/-- **The reports of a part** are the reports about it. -/
theorem detect_filter (h : Trace.Timed traces) (source target : Option String) :
    detect target true (traces.filter fun t => source.all (t.source == ·))
      = (detect none true traces).filter fun report => report.stream.isAsked source target := by
  rw [detect_eq, detect_eq, streams_filter, List.filter_map]
  exact List.map_congr_left fun stream hstream =>
    reportOf_filter h (List.mem_filter.mp hstream).2

end Filtering

end Change

/-! ## 2. Views -/

/-- Whether an entry of a list is from the source and to the target that are asked for, where these
are given. -/
def Window.Entry.isAsked (source target : Option String) (e : Window.Entry α) : Bool :=
  source.all (e.source == ·) && target.all (e.target == ·)

namespace Atlas

theorem tracesFor_none_none (a : Atlas α) : a.tracesFor none none = a.traces :=
  List.filter_eq_self.mpr fun _ _ => rfl

section Filtering

variable [Scalar α] {a : Atlas α}

theorem routeChanges_filter (h : Trace.Timed a.traces) (source target : Option String) :
    a.routeChanges source target
      = (a.routeChanges none none).filter fun report => report.stream.isAsked source target := by
  have hsource : a.tracesFor source none = a.traces.filter fun t => source.all (t.source == ·) :=
    List.filter_congr fun _ _ => Bool.and_true _
  rw [routeChanges, routeChanges, hsource, tracesFor_none_none]
  exact Change.detect_filter h source target

theorem aggregated_filter (hα : Order.Comparable α) (h : Trace.Timed a.traces) {width : α}
    (hstarts : Window.StartsFirst width a.traces) {limit : Int} (hlimit : limit ≤ 0)
    {entries : List (Window.Entry α)} (hall : a.aggregated none none width limit = .ok entries)
    (source target : Option String) :
    a.aggregated source target width limit
      = .ok (entries.filter (Window.Entry.isAsked source target)) := by
  rw [aggregated, tracesFor_none_none] at hall
  exact Window.aggregate_filter hα h hstarts (fun s t => source.all (s == ·) && target.all (t == ·))
    hlimit hall

end Filtering

/-- With exact times nothing is taken for granted. -/
theorem aggregated_filter_of_rat {a : Atlas Rat} {width : Rat} {limit : Int} (hlimit : limit ≤ 0)
    {entries : List (Window.Entry Rat)} (hall : a.aggregated none none width limit = .ok entries)
    (source target : Option String) :
    a.aggregated source target width limit
      = .ok (entries.filter (Window.Entry.isAsked source target)) :=
  aggregated_filter Order.comparable_rat (Trace.timed_of_rat a.traces)
    (Window.startsFirst_of_rat width a.traces) hlimit hall source target

/-- **Views of a part** are parts of the views, as long as times are numbers.  The change reports of
the traces from a source or to a target are the reports about them.  Unless a trace is from the
beginning of time, the same holds for the list, which is there when no step has more answers than
probes: for every width of its buckets above nought, and in the same order. -/
theorem views_filter (a : Atlas Float) (h : ∀ t ∈ a.traces, t.time.isNaN = false)
    (source target : Option String) :
    a.routeChanges source target
        = (a.routeChanges none none).filter (fun report => report.stream.isAsked source target) ∧
      ((∀ t ∈ a.traces, -1.0 / 0.0 < t.time) → ∀ width, 0 < width → ∀ limit ≤ 0,
        ((∀ t ∈ a.traces, ∀ hop ∈ t.hops,
            Window.Counted (fun sent received => 0 ≤ received ∧ received ≤ sent) hop) →
          ∃ entries, a.aggregated none none width limit = .ok entries) ∧
        ∀ entries, a.aggregated none none width limit = .ok entries →
          a.aggregated source target width limit
            = .ok (entries.filter (Window.Entry.isAsked source target))) := by
  have htimed := Trace.timed_of_not_nan h
  refine ⟨routeChanges_filter htimed source target, fun hend width hwidth limit hlimit => ⟨?_, ?_⟩⟩
  · intro hcounted
    rw [aggregated, tracesFor_none_none]
    exact Window.aggregate_ok Window.reckons_float (Decimal.le_zero_of_pos hwidth) limit hcounted
  · intro entries hall
    exact aggregated_filter Order.comparable_float htimed (Window.startsFirst_of_float hwidth hend)
      hlimit hall source target

/-- Traces from two sources, of which the first one was called for at a time of its own. -/
def calledAt (time : Float) : List (Trace Float) :=
  [{ Change.probe "8" "10.0.0.1" time with triggered := true }, Change.probe "8" "10.0.0.1" 130.0,
    Change.probe "7" "10.0.0.1" 0.0]

/-- An atlas in which the trace that was called for is from the end of time. -/
def calledLast : Atlas Float := { blank with traces := calledAt (1.0 / 0.0) }

theorem views_filter_calledLast :
    (∀ t ∈ calledLast.traces, t.time.isNaN = false ∧ -1.0 / 0.0 < t.time) ∧ (0 : Float) < 60.0 ∧
      calledLast.routeChanges (some "8") none
        = (calledLast.routeChanges none none).filter
            (fun report => report.stream.isAsked (some "8") none) ∧
      ∃ entries, calledLast.aggregated none none 60.0 0 = .ok entries ∧
        calledLast.aggregated (some "8") none 60.0 0
          = .ok (entries.filter (Window.Entry.isAsked (some "8") none)) := by
  have htimes : ∀ t ∈ calledLast.traces, t.time.isNaN = false ∧ -1.0 / 0.0 < t.time := by
    decide +kernel
  have hcounted : ∀ t ∈ calledLast.traces, ∀ hop ∈ t.hops,
      Window.Counted (fun sent received => 0 ≤ received ∧ received ≤ sent) hop := by
    intro t ht hop hhop
    simp only [calledLast, calledAt, List.mem_cons, List.not_mem_nil, or_false] at ht
    rcases ht with rfl | rfl | rfl <;>
    · obtain rfl := List.mem_singleton.mp hhop
      exact ⟨_, _, rfl, rfl, by decide, by decide⟩
  have hwidth : (0 : Float) < 60.0 := by decide +kernel
  obtain ⟨hchanges, hlist⟩ := views_filter calledLast (fun t ht => (htimes t ht).1) (some "8") none
  obtain ⟨hok, hall⟩ := hlist (fun t ht => (htimes t ht).2) 60.0 hwidth 0 le_rfl
  obtain ⟨entries, hentries⟩ := hok hcounted
  exact ⟨htimes, hwidth, hchanges, entries, hentries, hall entries hentries⟩

/-- The trace that was called for is from the beginning of time.  By themselves its source's entries
begin with that trace, and among all entries it is the last one. -/
theorem aggregated_ne_filter : ∃ a entries part,
    run [.refresh 5 (calledAt (-1.0 / 0.0))] blank = .ok a ∧
      (∀ t ∈ a.traces, t.time.isNaN = false) ∧ (0 : Float) < 60.0 ∧
      a.aggregated none none 60.0 0 = .ok entries ∧ a.aggregated (some "8") none 60.0 0 = .ok part ∧
      part ≠ entries.filter (Window.Entry.isAsked (some "8") none) := by
  have hrun : (run [.refresh 5 (calledAt (-1.0 / 0.0))] blank).toOption.any (fun a =>
      a.traces.all (fun t => !t.time.isNaN) &&
        (a.aggregated none none 60.0 0).toOption.any fun entries =>
          (a.aggregated (some "8") none 60.0 0).toOption.any fun part =>
            part.map Window.Entry.isAggregated
              != (entries.filter (Window.Entry.isAsked (some "8") none)).map
                Window.Entry.isAggregated) = true := by
    decide +kernel
  obtain ⟨a, hrun, ha⟩ := exists_of_any hrun
  obtain ⟨hnumbers, ha⟩ := Bool.and_eq_true_iff.mp ha
  obtain ⟨entries, hentries, ha⟩ := exists_of_any ha
  obtain ⟨part, hpart, hdiffer⟩ := exists_of_any ha
  refine ⟨a, entries, part, hrun, fun t ht => ?_, by decide +kernel, hentries, hpart, ?_⟩
  · simpa using List.all_eq_true.mp hnumbers t ht
  · rintro rfl
    exact bne_iff_ne.mp hdiffer rfl

end Atlas

end PathAtlas
