/-
# Changes by stream

A detector walks through the traces of all streams at once and keeps the last route of each.  What
it says about a stream is what would be said if there were no other one (`filter_observeAll`): the
traces of the stream one after the other, each compared with the one before it (`follow`).  So a
report is known from the traces of its stream alone, and all that is said about it is proved along
one list of traces (`Annotates`):

* what an observation tells of a trace and of the one before it (`Tells`);
* the changes are the observations that tell one (`Records`), and each begins with the route that
  the one before it ended with (`changes_chain`).

Observations are handed out one at a time, and each goes to the report of its stream; what the
reports come to is known already (`detect_reports`).  Which reports there are is then a matter of
grouping (`detect_eq`, `mem_streams`, `streams_sorted`).
-/
import PathAtlas.Proofs.Change.Surveys
import PathAtlas.Proofs.Order.Grouping
import PathAtlas.Proofs.Trace.Timeline
import PathAtlas.Trace.Listing

namespace PathAtlas.Change

variable {α : Type}

/-! ## 1. One stream -/

/-- What is observed along the traces of one stream, the route before them given. -/
def follow : Option (List String) → List (Trace α) → List (Observation α)
  | _, [] => []
  | route, trace :: rest => compareWith route trace :: follow (some trace.identifiers) rest

/-- What an observation tells of a trace, given the trace before it in its stream. -/
structure Tells (previous : Option (Trace α)) (trace : Trace α) (a : Observation α) : Prop where
  trace_eq : a.trace = trace
  signature : a.signature = trace.signature
  hops : a.hops = trace.identifiers
  /-- A first trace is no change, and a later one is when it took another route. -/
  isChange_iff : a.isChange = true ↔ ∃ p ∈ previous, p.signature ≠ trace.signature
  departs : a.isChange = true → ∀ p ∈ previous,
    a.previousSignature = some p.signature ∧ a.previousHops = p.identifiers ∧
      a.diff = diff p.identifiers trace.identifiers
  stays : a.isChange = false →
    a.previousSignature = none ∧ a.previousHops = [] ∧ a.diff = []

/-- Observations that tell of the traces of a stream one after the other, given the trace before
them. -/
inductive Annotates : Option (Trace α) → List (Trace α) → List (Observation α) → Prop
  | nil {previous} : Annotates previous [] []
  | cons {previous trace a traces as} (tells : Tells previous trace a)
      (rest : Annotates (some trace) traces as) : Annotates previous (trace :: traces) (a :: as)

/-- A comparison with the trace before. -/
theorem tells_compareWith (previous : Option (Trace α)) (trace : Trace α) :
    Tells previous trace (compareWith (previous.map Trace.identifiers) trace) := by
  cases previous with
  | none => exact ⟨rfl, rfl, rfl, by simp [compareWith], by simp, fun _ => ⟨rfl, rfl, rfl⟩⟩
  | some p =>
    have hroute : Route.signature p.identifiers = p.signature := rfl
    by_cases hsame : p.signature = trace.signature
    · simp only [compareWith, Option.map_some, hroute, if_pos hsame]
      exact ⟨rfl, rfl, rfl, by simp [hsame], fun h => (nomatch h), fun _ => ⟨rfl, rfl, rfl⟩⟩
    · simp only [compareWith, Option.map_some, hroute, if_neg hsame]
      refine ⟨rfl, rfl, rfl, by simp [hsame], fun _ q hq => ?_, fun h => (nomatch h)⟩
      obtain rfl : p = q := Option.some.inj hq
      exact ⟨rfl, rfl, rfl⟩

/-- **Following a stream** annotates its traces. -/
theorem annotates_follow (previous : Option (Trace α)) (traces : List (Trace α)) :
    Annotates previous traces (follow (previous.map Trace.identifiers) traces) := by
  induction traces generalizing previous with
  | nil => exact .nil
  | cons trace traces ih => exact .cons (tells_compareWith previous trace) (ih (some trace))

/-! ## 2. The changes of a stream -/

/-- A change as an observation tells it. -/
structure Records (stream : Stream) (a : Observation α) (c : RouteChange α) : Prop where
  stream : c.stream = stream
  changedAt : c.changedAt = a.trace.time
  fromSignature : a.previousSignature = some c.fromSignature
  toSignature : c.toSignature = a.signature
  diff : c.diff = a.diff
  id : c.id = a.trace.id

section Changes

variable {stream : Stream} {previous : Option (Trace α)} {trace : Trace α} {a : Observation α}
  {traces : List (Trace α)} {as : List (Observation α)}

/-- A trace on the route before it tells no change. -/
theorem Tells.change?_of_stays (h : Tells previous trace a)
    (hstays : ∀ p ∈ previous, p.signature = trace.signature) :
    a.isChange = false ∧ a.change? stream = none := by
  have hplain : a.isChange = false := by
    rw [← Bool.not_eq_true, h.isChange_iff]
    rintro ⟨p, hp, hne⟩
    exact hne (hstays p hp)
  refine ⟨hplain, ?_⟩
  rw [Observation.change?, hplain]
  rfl

/-- A trace on another route tells the change to it. -/
theorem Tells.change?_of_departs {p : Trace α} (h : Tells (some p) trace a) (stream : Stream)
    (hdeparts : p.signature ≠ trace.signature) :
    a.isChange = true ∧ ∃ c, a.change? stream = some c ∧ Records stream a c ∧
      c.fromSignature = p.signature ∧ c.toSignature = trace.signature := by
  have hchange : a.isChange = true := h.isChange_iff.mpr ⟨p, rfl, hdeparts⟩
  obtain ⟨hprevious, -, -⟩ := h.departs hchange p rfl
  refine ⟨hchange, ⟨stream, a.trace.time, p.signature, a.signature, a.diff, a.trace.id⟩, ?_,
    ⟨rfl, rfl, hprevious, rfl, rfl, rfl⟩, rfl, h.signature⟩
  rw [Observation.change?, if_pos hchange, hprevious]
  rfl

/-- An observation stays on the route before it or tells a change from it. -/
theorem Tells.cases (h : Tells previous trace a) (stream : Stream) :
    ((∀ p ∈ previous, p.signature = trace.signature) ∧ a.isChange = false ∧
        a.change? stream = none) ∨
      a.isChange = true ∧ ∃ p c, previous = some p ∧ a.change? stream = some c ∧
        Records stream a c ∧ c.fromSignature = p.signature ∧ c.toSignature = trace.signature ∧
        p.signature ≠ trace.signature := by
  by_cases hstays : ∀ p ∈ previous, p.signature = trace.signature
  · exact .inl ⟨hstays, h.change?_of_stays hstays⟩
  · obtain ⟨p, hp, hne⟩ : ∃ p ∈ previous, p.signature ≠ trace.signature := by simpa using hstays
    obtain rfl : previous = some p := hp
    obtain ⟨hchange, c, hc, hrecords, hfrom, hto⟩ := h.change?_of_departs stream hne
    exact .inr ⟨hchange, p, c, rfl, hc, hrecords, hfrom, hto, hne⟩

/-- **The changes** are the observations that tell one, in order, and each leaves its route. -/
theorem Annotates.records (h : Annotates previous traces as) (stream : Stream) :
    List.Forall₂ (Records stream) (as.filter Observation.isChange) (changesOf stream as) ∧
      ∀ c ∈ changesOf stream as, c.fromSignature ≠ c.toSignature := by
  induction h with
  | nil => exact ⟨.nil, fun _ hc => (nomatch hc)⟩
  | cons tells _ ih =>
    obtain ⟨hrecords, hne⟩ := ih
    rcases tells.cases stream with
      ⟨-, hplain, hnone⟩ | ⟨hchange, p, c, -, hc, hrec, hfrom, hto, hpt⟩
    · rw [List.filter_cons_of_neg (by simp [hplain]), changesOf,
        List.filterMap_cons_none hnone]
      exact ⟨hrecords, hne⟩
    · rw [List.filter_cons_of_pos hchange, changesOf, List.filterMap_cons_some hc]
      refine ⟨.cons hrec hrecords, fun c' hc' => ?_⟩
      rcases List.mem_cons.mp hc' with rfl | hc'
      · rw [hfrom, hto]
        exact hpt
      · exact hne c' hc'

/-- **Each change** begins with the route that the one before it ended with, and the first one with
that of the trace before. -/
theorem Annotates.changes_chain (h : Annotates previous traces as) (stream : Stream) :
    (∀ p ∈ previous, ∀ c ∈ (changesOf stream as).head?, c.fromSignature = p.signature) ∧
      (changesOf stream as).IsChain fun c d => d.fromSignature = c.toSignature := by
  induction h with
  | nil => exact ⟨fun _ _ _ hc => (nomatch hc), .nil⟩
  | @cons previous trace a traces as tells _ ih =>
    obtain ⟨hfirst, hchain⟩ := ih
    rcases tells.cases stream with ⟨hstays, -, hnone⟩ | ⟨-, p, c, hp, hc, -, hfrom, hto, -⟩
    · rw [changesOf, List.filterMap_cons_none hnone]
      refine ⟨fun p hp c hc => ?_, hchain⟩
      rw [hfirst trace rfl c hc, hstays p hp]
    · rw [changesOf, List.filterMap_cons_some hc]
      constructor
      · intro q hq d hd
        obtain rfl : c = d := Option.some.inj hd
        obtain rfl : p = q := Option.some.inj (hp.symm.trans hq)
        exact hfrom
      · refine List.isChain_cons.mpr ⟨fun d hd => ?_, hchain⟩
        rw [hfirst trace rfl d hd, hto]

end Changes

/-! ## 3. All streams at once -/

namespace Detector

theorem find?_remember_self (stream : Stream) (route : List String)
    (last : List (Stream × List String)) :
    (remember stream route last).find? (·.1 = stream) = some (stream, route) := by
  induction last with
  | nil => simp [remember]
  | cons entry last ih =>
    by_cases hentry : entry.1 = stream
    · simp [remember, hentry]
    · simp [remember, hentry, ih]

/-- The routes of other streams are remembered as before. -/
theorem find?_remember_of_ne {stream other : Stream} (hne : other ≠ stream) (route : List String)
    (last : List (Stream × List String)) :
    (remember stream route last).find? (·.1 = other) = last.find? (·.1 = other) := by
  induction last with
  | nil => simp [remember, Ne.symm hne]
  | cons entry last ih =>
    by_cases hentry : entry.1 = stream
    · simp [remember, hentry, Ne.symm hne]
    · by_cases hother : entry.1 = other
      · subst hother
        simp [remember, hne]
      · simp [remember, hentry, hother, ih]

/-- A detector keeps the route of the trace that it observed, and every other stream's. -/
theorem lastRoute_observe (d : Detector) (trace : Trace α) (stream : Stream) :
    (d.observe trace).2.lastRoute stream
      = if Stream.ofTrace d.byTarget trace = stream then some trace.identifiers
        else d.lastRoute stream := by
  split
  · rename_i h
    subst h
    simp [observe, lastRoute, find?_remember_self]
  · rename_i h
    simp [observe, lastRoute, find?_remember_of_ne (Ne.symm h)]

/-- **One stream among all**: what a detector says about it is what follows from its own traces. -/
theorem filter_observeAll (d : Detector) (traces : List (Trace α)) (stream : Stream) :
    (d.observeAll traces).filter (fun a => Stream.ofTrace d.byTarget a.trace == stream)
      = follow (d.lastRoute stream)
          (traces.filter fun t => Stream.ofTrace d.byTarget t == stream) := by
  -- the register is carried along: of the streams it changes that of the observed trace alone
  induction traces generalizing d with
  | nil => rfl
  | cons trace traces ih =>
    have hrest := ih (d.observe trace).2
    have hby : (d.observe trace).2.byTarget = d.byTarget := rfl
    rw [lastRoute_observe, hby] at hrest
    rw [observeAll_cons, List.filter_cons, List.filter_cons, trace_compareWith, hrest]
    by_cases hstream : Stream.ofTrace d.byTarget trace = stream
    · simp [hstream, follow]
    · simp [hstream]

end Detector

/-! ## 4. Reports -/

/-- The names by which streams are put in order. -/
def Stream.names (stream : Stream) : String × String := (stream.source, stream.target.getD "")

theorem ofTrace_eq_of_names {byTarget : Bool} {t t' : Trace α}
    (h : (Stream.ofTrace byTarget t).names = (Stream.ofTrace byTarget t').names) :
    Stream.ofTrace byTarget t = Stream.ofTrace byTarget t' := by
  cases byTarget <;> simp_all [Stream.ofTrace, Stream.names]

section Reports

variable [Scalar α] {target : Option String} {byTarget : Bool} {traces : List (Trace α)}

/-- Whether a trace is looked at: it has hops, and goes to the target when there is one. -/
def wanted (target : Option String) (trace : Trace α) : Bool :=
  trace.hasHops && target.all (trace.target == ·)

/-- Whether a trace is looked at and belongs to a stream. -/
def counts (target : Option String) (byTarget : Bool) (stream : Stream) (trace : Trace α) : Bool :=
  wanted target trace && Stream.ofTrace byTarget trace == stream

def streams (target : Option String) (byTarget : Bool) (traces : List (Trace α)) : List Stream :=
  (detect target byTarget traces).map Report.stream

/-- The traces that are looked at, in order of time. -/
theorem filter_timeline_eq (target : Option String) (traces : List (Trace α)) :
    (Trace.timeline traces).filter (fun t => target.all (t.target == ·))
      = (Trace.sortByTime traces).filter (wanted target) := by
  rw [Trace.timeline, List.filter_filter]
  exact List.filter_congr fun t _ => Bool.and_comm _ _

/-- The streams of the observations, grouped and sorted. -/
theorem streams_eq (target : Option String) (byTarget : Bool) (traces : List (Trace α)) :
    streams target byTarget traces
      = Order.groupKeys Stream.before (fun a => Stream.ofTrace byTarget a.trace)
          ((Detector.mk byTarget []).observeAll
            ((Trace.sortByTime traces).filter (wanted target))) := by
  rw [streams, detect_reports, filter_timeline_eq, List.map_map]
  exact List.map_id _

/-- What is reported of a stream: what follows from its traces in order of time. -/
def reportOf (target : Option String) (byTarget : Bool) (traces : List (Trace α))
    (stream : Stream) : Report α :=
  .ofObservations stream
    (follow none ((Trace.sortByTime traces).filter (counts target byTarget stream)))

/-- **The reports**: one for each stream. -/
theorem detect_eq (target : Option String) (byTarget : Bool) (traces : List (Trace α)) :
    detect target byTarget traces
      = (streams target byTarget traces).map (reportOf target byTarget traces) := by
  rw [streams_eq, detect_reports, filter_timeline_eq]
  refine List.map_congr_left fun stream _ => congrArg (Report.ofObservations stream) ?_
  have hfilter := Detector.filter_observeAll (Detector.mk byTarget [])
    ((Trace.sortByTime traces).filter (wanted target)) stream
  rw [hfilter, List.filter_filter]
  exact congrArg (follow none) (List.filter_congr fun t _ => Bool.and_comm _ _)

/-- **A stream is reported** when a trace of it is looked at. -/
theorem mem_streams {stream : Stream} :
    stream ∈ streams target byTarget traces
      ↔ ∃ t ∈ traces, wanted target t = true ∧ Stream.ofTrace byTarget t = stream := by
  have hmap : ∀ as : List (Observation α), (as.map fun a => Stream.ofTrace byTarget a.trace)
      = (as.map Observation.trace).map (Stream.ofTrace byTarget) := fun as => by
    rw [List.map_map]
    rfl
  have hperm : (Trace.sortByTime traces).Perm traces := Order.ascending_perm Trace.time traces
  rw [streams_eq, Order.mem_groupKeys, hmap, Detector.map_trace_observeAll, List.mem_map]
  simp only [List.mem_filter, hperm.mem_iff, and_assoc]

/-- **Reports are in the order of their streams**, of which no two are the same. -/
theorem streams_sorted (target : Option String) (byTarget : Bool) (traces : List (Trace α)) :
    (streams target byTarget traces).Pairwise fun a b => a.before b = true := by
  let key (g : Stream × List (Observation α)) : String × String := g.1.names
  rw [streams_eq, Order.groupKeys, List.pairwise_map]
  refine Order.sortBy_pairwise Order.isOrder_pair (?_ : (List.map key _).Nodup)
  have hkeys : ∀ groups : List (Stream × List (Observation α)),
      groups.map key = (groups.map Prod.fst).map Stream.names := fun groups => by
    rw [List.map_map]
    rfl
  rw [hkeys]
  refine List.Nodup.map_on (fun a ha b hb hnames => ?_) (Order.groupBy_nodup _)
  obtain ⟨x, -, rfl⟩ := List.mem_map.mp (Order.mem_map_fst_groupBy.mp ha)
  obtain ⟨y, -, rfl⟩ := List.mem_map.mp (Order.mem_map_fst_groupBy.mp hb)
  exact ofTrace_eq_of_names hnames

theorem streams_nodup (target : Option String) (byTarget : Bool) (traces : List (Trace α)) :
    (streams target byTarget traces).Nodup := by
  refine (streams_sorted target byTarget traces).imp fun {a b} hab heq => ?_
  subst heq
  exact absurd hab (by simp [Stream.before, Order.isOrder_pair.irrefl])

/-- The traces of a stream in order of time are those that are picked out of all in order. -/
theorem chronological_counts (h : Trace.Timed traces) (stream : Stream) :
    Trace.Chronological (traces.filter (counts target byTarget stream))
      ((Trace.sortByTime traces).filter (counts target byTarget stream)) := by
  rw [Trace.filter_sortByTime h]
  exact Trace.chronological_sortByTime (h.filter _)

/-- **A stream by itself** has the report that it has among all others. -/
theorem detect_alone (h : Trace.Timed traces) {stream : Stream}
    (hstream : stream ∈ streams target byTarget traces) :
    detect target byTarget (traces.filter fun t => Stream.ofTrace byTarget t == stream)
      = [reportOf target byTarget traces stream] := by
  have honly : streams target byTarget (traces.filter fun t => Stream.ofTrace byTarget t == stream)
      = [stream] := by
    refine List.perm_singleton.mp ?_
    refine (List.perm_ext_iff_of_nodup (streams_nodup ..) (List.nodup_singleton _)).mpr fun s => ?_
    rw [mem_streams, List.mem_singleton]
    constructor
    · rintro ⟨t, ht, -, rfl⟩
      exact eq_of_beq (List.mem_filter.mp ht).2
    · rintro rfl
      obtain ⟨t, ht, hwanted, hof⟩ := mem_streams.mp hstream
      exact ⟨t, List.mem_filter.mpr ⟨ht, beq_iff_eq.mpr hof⟩, hwanted, hof⟩
  rw [detect_eq, honly, List.map_singleton, reportOf, reportOf, ← Trace.filter_sortByTime h,
    List.filter_filter]
  congr 2
  exact congrArg (follow none) (List.filter_congr fun t _ => by simp [counts])

/-- **Changes by stream.**  When times stand in one order, the reports are those of the streams of
which a trace is looked at, one for each and in their order.  A report is the one that the traces of
its stream have by themselves.  It goes through these traces in order of time and compares each with
the one before it; its changes are the traces that took another route, and each leads from the route
that the one before it led to. -/
theorem detect_annotates_streams (h : Trace.Timed traces) (target : Option String)
    (byTarget : Bool) :
    let reports := detect target byTarget traces
    ((reports.map Report.stream).Pairwise fun a b => a.before b = true) ∧
      (reports.map Report.stream).Nodup ∧
      (∀ stream, stream ∈ reports.map Report.stream ↔
        ∃ t ∈ traces, wanted target t = true ∧ Stream.ofTrace byTarget t = stream) ∧
      ∀ report ∈ reports,
        detect target byTarget (traces.filter fun t => Stream.ofTrace byTarget t == report.stream)
            = [report] ∧
          (∃ inOrder, Trace.Chronological
              (traces.filter (counts target byTarget report.stream)) inOrder ∧
            Annotates none inOrder report.observations) ∧
          List.Forall₂ (Records report.stream)
            (report.observations.filter Observation.isChange) report.changes ∧
          (∀ c ∈ report.changes, c.fromSignature ≠ c.toSignature) ∧
          report.changes.IsChain fun c d => d.fromSignature = c.toSignature := by
  refine ⟨streams_sorted .., streams_nodup .., fun _ => mem_streams, fun report hreport => ?_⟩
  rw [detect_eq] at hreport
  obtain ⟨stream, hstream, rfl⟩ := List.mem_map.mp hreport
  have hannotates := annotates_follow none
    ((Trace.sortByTime traces).filter (counts target byTarget stream))
  obtain ⟨hrecords, hdeparts⟩ := hannotates.records stream
  exact ⟨detect_alone h hstream, ⟨_, chronological_counts h stream, hannotates⟩, hrecords, hdeparts,
    (hannotates.changes_chain stream).2⟩

end Reports

def probe (source address : String) (time : Float) : Trace Float :=
  { source, target := "10.0.0.9", hops := [Listing.answered 1 address 1.0], time }

/-- Two sources, of which one takes three routes; its last two traces are of one time. -/
def rerouted : List (Trace Float) :=
  [probe "7" "10.0.0.2" 2.0, probe "8" "10.0.0.1" 1.0, probe "7" "10.0.0.1" 1.0,
    probe "7" "10.0.0.3" 2.0]

theorem detect_annotates_streams_rerouted :
    (∀ t ∈ rerouted, t.time.isNaN = false) ∧
      (((detect none false rerouted).map Report.stream).Pairwise fun a b => a.before b = true) ∧
      (∀ report ∈ detect none false rerouted,
        detect none false (rerouted.filter fun t => Stream.ofTrace false t == report.stream)
            = [report] ∧
          report.changes.IsChain fun c d => d.fromSignature = c.toSignature) ∧
      ((detect none false rerouted).map fun report =>
          report.changes.map fun c => (c.fromSignature, c.toSignature))
        = [[("10.0.0.1", "10.0.0.2"), ("10.0.0.2", "10.0.0.3")], []] := by
  have hnumbers : ∀ t ∈ rerouted, t.time.isNaN = false := by decide +kernel
  obtain ⟨hsorted, -, -, hreports⟩ :=
    detect_annotates_streams (Trace.timed_of_not_nan hnumbers) none false
  refine ⟨hnumbers, hsorted, fun report hreport => ?_, by decide +kernel⟩
  obtain ⟨halone, -, -, -, hchain⟩ := hreports report hreport
  exact ⟨halone, hchain⟩

end PathAtlas.Change
