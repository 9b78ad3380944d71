/-
# Departures in the list of a window

The list of a window and the change reports of the same traces are made by two walks.  Each keeps
the last route of every stream, one as a signature and one as a row of addresses, and here they
are shown to tell the same.  The registers agree before every step (`Agrees`), so a trace meets the
same route before it in both walks (`compared_withPrevious`), and then it departs from that route in
both or in neither (`Compared.cases`).

One difference between the walks is of no consequence: the list takes an empty signature before a
trace for none, but no trace with hops has one (`signature_ne_empty`).
-/
import PathAtlas.Proofs.Change.Streams
import PathAtlas.Proofs.Window.Summaries

namespace PathAtlas.Window

variable {α : Type}

/-! ## 1. Signatures -/

theorem identifier_ne_empty (hop : Hop α) : hop.identifier ≠ "" := by
  rw [Hop.identifier, Hop.address]
  cases hresponder : hop.responder with
  | none => simp [wildcard]
  | some host =>
    obtain ⟨-, hanswers⟩ := Option.filter_eq_some_iff.mp hresponder
    simp only [Hop.answers, Bool.and_eq_true, decide_eq_true_eq] at hanswers
    exact hanswers.1

/-- A trace with hops has a signature. -/
theorem signature_ne_empty {trace : Trace α} (h : trace.hasHops = true) :
    trace.signature ≠ "" := by
  rw [Trace.signature, Route.signature, Trace.identifiers]
  cases hhops : trace.hops with
  | nil => simp [Trace.hasHops, hhops] at h
  | cons hop rest =>
    have hfirst := identifier_ne_empty hop
    cases rest with
    | nil => simpa using hfirst
    | cons hop' rest => simp [String.intercalate_cons_cons, hfirst]

/-! ## 2. Two registers -/

/-- The last signature of a stream. -/
def lastSignature (last : List ((String × String) × String)) (source target : String) :
    Option String :=
  (last.find? fun entry => entry.1 == (source, target)).map Prod.snd

/-- Both registers hold the same route for every stream, and no empty one. -/
structure Agrees (last : List ((String × String) × String)) (d : Change.Detector) : Prop where
  byTarget : d.byTarget = true
  route : ∀ source target,
    lastSignature last source target = (d.lastRoute ⟨source, some target⟩).map Route.signature
  ne_empty : ∀ source target, "" ∉ lastSignature last source target

theorem agrees_start : Agrees [] (Change.Detector.mk true []) where
  byTarget := rfl
  route _ _ := rfl
  ne_empty _ _ h := nomatch h

/-- The last signature of a stream is that of its last trace. -/
theorem lastSignature_cons (last : List ((String × String) × String)) (trace : Trace α)
    (source target : String) :
    lastSignature (((trace.source, trace.target), trace.signature) :: last) source target
      = if Change.Stream.ofTrace true trace = ⟨source, some target⟩ then some trace.signature
        else lastSignature last source target := by
  rw [lastSignature, List.find?_cons]
  by_cases h : (trace.source, trace.target) = (source, target)
  · obtain ⟨rfl, rfl⟩ := Prod.mk.inj h
    simp [Change.Stream.ofTrace]
  · have hstream : ¬ (trace.source = source ∧ trace.target = target) := by simpa using h
    rw [beq_eq_false_iff_ne.mpr h]
    simp [Change.Stream.ofTrace, hstream, lastSignature]

/-- The registers agree again after they have taken in one trace. -/
theorem Agrees.step {last : List ((String × String) × String)} {d : Change.Detector}
    (h : Agrees last d) {trace : Trace α} (hhops : trace.hasHops = true) :
    Agrees (((trace.source, trace.target), trace.signature) :: last) (d.observe trace).2 where
  byTarget := h.byTarget
  route source target := by
    rw [lastSignature_cons, Change.Detector.lastRoute_observe, h.byTarget]
    split
    · rfl
    · exact h.route source target
  ne_empty source target := by
    rw [lastSignature_cons]
    split
    · intro hempty
      exact signature_ne_empty hhops (Option.some.inj hempty)
    · exact h.ne_empty source target

/-- A trace with the signature before it, and what is observed of it. -/
def Compared (x : Option String × Trace α) (a : Change.Observation α) : Prop :=
  "" ∉ x.1 ∧ ∃ route, x.1 = route.map Route.signature ∧ a = Change.compareWith route x.2

/-- **Both walks** meet the same route before every trace. -/
theorem compared_withPrevious {last : List ((String × String) × String)} {d : Change.Detector}
    (h : Agrees last d) {traces : List (Trace α)} (hhops : ∀ t ∈ traces, t.hasHops = true) :
    List.Forall₂ Compared (withPrevious last traces) (d.observeAll traces) := by
  induction traces generalizing last d with
  | nil => exact .nil
  | cons trace traces ih =>
    rw [Change.Detector.observeAll_cons, h.byTarget]
    refine .cons ⟨h.ne_empty _ _, _, h.route _ _, rfl⟩
      (ih (h.step (hhops trace List.mem_cons_self)) fun t ht => ?_)
    exact hhops t (List.mem_cons_of_mem _ ht)

theorem map_snd_withPrevious (last : List ((String × String) × String)) (traces : List (Trace α)) :
    (withPrevious last traces).map Prod.snd = traces := by
  induction traces generalizing last with
  | nil => rfl
  | cons trace traces ih => exact congrArg (trace :: ·) (ih _)

/-! ## 3. One trace -/

section Telling

variable [Scalar α]

/-- Whether an entry is a single trace that left the route before it. -/
def Entry.departs (e : Entry α) : Bool :=
  !e.isAggregated && e.previousSignature.any fun s => s ≠ e.signature

/-- An entry and a change that tell of one trace the same. -/
structure Departs (told : Trace α × Change.RouteChange α) (e : Entry α) : Prop where
  source : e.source = told.1.source
  target : e.target = told.1.target
  stream : told.2.stream = ⟨e.source, some e.target⟩
  time : e.time = told.1.time
  changedAt : told.2.changedAt = e.time
  previous : e.previousSignature = some told.2.fromSignature
  signature : e.signature = told.1.signature
  toSignature : told.2.toSignature = e.signature
  id : e.id = told.1.id
  recordId : told.2.id = e.id
  reason : e.reason = some (if told.1.triggered then .triggered else .routeChange)

/-- The change that an observation tells of its stream, a source and a target. -/
def toldBy (a : Change.Observation α) : Option (Change.RouteChange α) :=
  a.change? (Change.Stream.ofTrace true a.trace)

/-- The entry of a trace that left the route before it. -/
def departing? (x : Option String × Trace α) : Option (Entry α) :=
  (notable? x.1 x.2).filter Entry.departs

theorem departing?_of_stays {previous : Option String} {trace : Trace α}
    (h : ∀ s ∈ previous, s = trace.signature) : departing? (previous, trace) = none := by
  rw [departing?, notable?]
  cases Change.reason? previous trace with
  | none => rfl
  | some reason =>
    cases previous with
    | none => rfl
    | some s => simp [Option.filter, Entry.departs, h s rfl]

theorem reason?_of_departs {s : String} {trace : Trace α} (hempty : s ≠ "")
    (hne : s ≠ trace.signature) :
    Change.reason? (some s) trace
      = some (if trace.triggered then .triggered else .routeChange) := by
  cases htriggered : trace.triggered <;> simp [Change.reason?, htriggered, hempty, hne]

/-- Only another signature than the last one counts as a change. -/
theorem of_reason?_eq_routeChange {previous : Option String} {trace : Trace α}
    (h : Change.reason? previous trace = some .routeChange) :
    ∃ s, previous = some s ∧ s ≠ "" ∧ s ≠ trace.signature := by
  unfold Change.reason? at h
  split at h
  · cases h
  split at h
  · rename_i hany
    obtain ⟨s, rfl, hs⟩ := (Option.any_eq_true _ _).mp hany
    exact ⟨s, rfl, by simpa using hs⟩
  split at h
  · cases h
  split at h <;> cases h

/-- **A trace** departs in both walks or in neither. -/
theorem Compared.cases {x : Option String × Trace α} {a : Change.Observation α}
    (h : Compared x a) :
    (departing? x = none ∧ toldBy a = none) ∨
      ∃ c e, departing? x = some e ∧ toldBy a = some c ∧ Departs (x.2, c) e := by
  obtain ⟨previous, trace⟩ := x
  obtain ⟨hempty, route, hprevious, rfl⟩ := h
  obtain rfl : previous = route.map Route.signature := hprevious
  cases route with
  | none => exact .inl ⟨departing?_of_stays fun s hs => (nomatch hs), rfl⟩
  | some before =>
    by_cases hsame : Route.signature before = trace.signature
    · refine .inl ⟨departing?_of_stays fun s hs => ?_, ?_⟩
      · rw [← hsame]
        exact (Option.some.inj hs).symm
      · simp [toldBy, Change.compareWith, hsame, Change.Observation.change?]
    · have hne : Route.signature before ≠ "" := fun heq => hempty (congrArg some heq)
      refine .inr ⟨⟨.ofTrace true trace, trace.time, Route.signature before, trace.signature,
        Change.diff before trace.identifiers, trace.id⟩,
        ⟨trace.source, trace.target, trace.time, trace.hops, trace.signature, 1, false,
          some (Route.signature before),
          some (if trace.triggered then .triggered else .routeChange), trace.id⟩, ?_, ?_, ?_⟩
      · simp [departing?, notable?, reason?_of_departs hne hsame, Entry.departs, hsame]
      · simp [toldBy, Change.compareWith, hsame, Change.Observation.change?]
      · exact ⟨rfl, rfl, rfl, rfl, rfl, rfl, rfl, rfl, rfl, rfl, rfl⟩

/-! ## 4. All traces -/

/-- The departures of one walk are those of the other, each of a trace of its own. -/
theorem told_of_compared {xs : List (Option String × Trace α)} {as : List (Change.Observation α)}
    (h : List.Forall₂ Compared xs as) :
    ∃ told : List (Trace α × Change.RouteChange α),
      (told.map Prod.fst).Sublist (xs.map Prod.snd) ∧ told.map Prod.snd = as.filterMap toldBy ∧
        List.Forall₂ Departs told (xs.filterMap departing?) := by
  induction h with
  | nil => exact ⟨[], .slnil, rfl, .nil⟩
  | @cons x a xs as hxa _ ih =>
    obtain ⟨told, hsub, hmap, htold⟩ := ih
    rcases hxa.cases with ⟨hentry, hchange⟩ | ⟨c, e, hentry, hchange, hdeparts⟩
    · refine ⟨told, hsub.cons _, ?_, ?_⟩
      · rw [List.filterMap_cons_none hchange, hmap]
      · rwa [List.filterMap_cons_none hentry]
    · refine ⟨(x.2, c) :: told, hsub.cons_cons _, ?_, ?_⟩
      · rw [List.filterMap_cons_some hchange, List.map_cons, hmap]
      · rw [List.filterMap_cons_some hentry]
        exact .cons hdeparts htold

/-- **All changes** of the reports are those told along the timeline, stream by stream. -/
theorem changes_perm (traces : List (Trace α)) :
    (((Change.Detector.mk true []).observeAll (Trace.timeline traces)).filterMap toldBy).Perm
      ((Change.detect none true traces).flatMap Change.Report.changes) := by
  let key (a : Change.Observation α) : Change.Stream := Change.Stream.ofTrace true a.trace
  have hall : (Trace.timeline traces).filter (fun t => (none : Option String).all (t.target == ·))
      = Trace.timeline traces := List.filter_eq_self.mpr fun _ _ => rfl
  rw [Change.detect_reports, hall, List.flatMap_map]
  generalize (Change.Detector.mk true []).observeAll (Trace.timeline traces) = as
  -- an observation tells the change of the stream that it is grouped under
  have hchanges : ∀ stream ∈ Order.groupKeys Change.Stream.before key as,
      Change.changesOf stream (as.filter (key · == stream))
        = (as.filter (key · == stream)).filterMap toldBy := fun stream _ => by
    refine List.filterMap_congr fun a ha => ?_
    rw [toldBy, ← eq_of_beq (List.mem_filter.mp ha).2]
  refine List.Perm.trans ?_ (.of_eq (List.flatMap_congr hchanges).symm)
  rw [← List.filterMap_flatMap]
  exact (Order.flatMap_groupKeys_perm Change.Stream.before key as).symm.filterMap _

variable {width : α} {limit : Int} {traces : List (Trace α)} {entries : List (Entry α)}

/-- The entries that left a route are single traces. -/
theorem filter_departs_perm (hlimit : limit ≤ 0)
    (h : aggregate width limit traces = .ok entries) :
    (entries.filter Entry.departs).Perm
      ((withPrevious [] (Trace.timeline traces)).filterMap departing?) := by
  obtain ⟨sums, hsums, hperm⟩ := aggregate_perm hlimit h
  have hnone : sums.filter Entry.departs = [] := List.filter_eq_nil_iff.mpr fun e he => by
    simp [Entry.departs, (of_mem_summaries hsums e he).1]
  have hsingle : (notables (Trace.timeline traces)).filter Entry.departs
      = (withPrevious [] (Trace.timeline traces)).filterMap departing? := by
    rw [notables, List.filter_filterMap]
    rfl
  have hfilter := hperm.filter Entry.departs
  rwa [List.filter_append, hnone, List.append_nil, hsingle] at hfilter

/-- An entry that is listed for its route left the one before. -/
theorem departs_of_reason (hlimit : limit ≤ 0)
    (h : aggregate width limit traces = .ok entries) {e : Entry α} (he : e ∈ entries)
    (hreason : e.reason = some .routeChange) : e.departs = true := by
  obtain ⟨sums, hsums, hperm⟩ := aggregate_perm hlimit h
  rcases List.mem_append.mp (hperm.mem_iff.mp he) with he | he
  · obtain ⟨⟨previous, trace⟩, -, hnotable⟩ := List.mem_filterMap.mp he
    obtain ⟨reason, hreason?, rfl⟩ := Option.map_eq_some_iff.mp hnotable
    obtain rfl : reason = .routeChange := Option.some.inj hreason
    obtain ⟨s, rfl, -, hne⟩ := of_reason?_eq_routeChange hreason?
    simp [Entry.departs, hne]
  · rw [(of_mem_summaries hsums e he).2] at hreason
    cases hreason

/-- **Single traces and changes.**  The list of a window is there for every width above nought when
its counts can be reckoned with.  In a list that is not cut off, the single traces that left the
route before them are the changes of all reports by source and target, one for one: both tell of
the same trace the same stream, time, routes and id.  Such a trace is listed as triggered when it
was, and for its route otherwise, and no other entry is listed for its route. -/
theorem aggregate_tells_changes (hwidth : Scalar.le width Scalar.zero = false) (hlimit : limit ≤ 0)
    (traces : List (Trace α)) :
    (∀ fits, Reckons α fits → (∀ t ∈ traces, ∀ hop ∈ t.hops, Counted fits hop) →
      ∃ entries, aggregate width limit traces = .ok entries) ∧
    ∀ entries, aggregate width limit traces = .ok entries →
      (∃ told : List (Trace α × Change.RouteChange α),
        (told.map Prod.fst).Subperm traces ∧
        (told.map Prod.snd).Perm
          ((Change.detect none true traces).flatMap Change.Report.changes) ∧
        ∃ listed, listed.Perm (entries.filter Entry.departs) ∧
          List.Forall₂ Departs told listed) ∧
      ∀ e ∈ entries, e.reason = some .routeChange → e.departs = true := by
  refine ⟨fun fits hfits hcounted => aggregate_ok hfits hwidth limit hcounted,
    fun entries h => ⟨?_, fun e he hreason => departs_of_reason hlimit h he hreason⟩⟩
  have hhops : ∀ t ∈ Trace.timeline traces, t.hasHops = true :=
    fun t ht => (Trace.hasHops_of_mem_timeline ht).2
  obtain ⟨told, hsub, hmap, htold⟩ :=
    told_of_compared (compared_withPrevious agrees_start hhops)
  rw [map_snd_withPrevious] at hsub
  have hsorted : (Trace.sortByTime traces).Perm traces := Order.ascending_perm Trace.time traces
  refine ⟨told, (hsub.trans List.filter_sublist).subperm.trans hsorted.subperm, ?_,
    _, (filter_departs_perm hlimit h).symm, htold⟩
  rw [hmap]
  exact changes_perm traces

end Telling

/-- A trace that was triggered and took another route than the one before it. -/
def summoned : List (Trace Float) :=
  { Change.probe "8" "10.0.0.4" 3.0 with triggered := true } :: Change.rerouted

theorem aggregate_tells_changes_summoned :
    Scalar.le (60.0 : Float) Scalar.zero = false ∧ (0 : Int) ≤ 0 ∧
      (∀ t ∈ summoned, ∀ hop ∈ t.hops,
        Counted (fun sent received => 0 ≤ received ∧ received ≤ sent) hop) ∧
      (∃ entries, aggregate (60.0 : Float) 0 summoned = .ok entries ∧
        ∀ e ∈ entries, e.reason = some .routeChange → e.departs = true) ∧
      (aggregate (60.0 : Float) 0 summoned).toOption.map
          (fun entries => (entries.filter Entry.departs).map fun e => (e.signature, e.reason))
        = some [("10.0.0.4", some .triggered), ("10.0.0.2", some .routeChange),
          ("10.0.0.3", some .routeChange)] := by
  have hwidth : Scalar.le (60.0 : Float) Scalar.zero = false := by decide +kernel
  have hcounted : ∀ t ∈ summoned, ∀ hop ∈ t.hops,
      Counted (fun sent received => 0 ≤ received ∧ received ≤ sent) hop := by
    intro t ht hop hhop
    simp only [summoned, Change.rerouted, List.mem_cons, List.not_mem_nil, or_false] at ht
    rcases ht with rfl | rfl | rfl | rfl | rfl <;>
    · obtain rfl := List.mem_singleton.mp hhop
      exact ⟨_, _, rfl, rfl, by decide, by decide⟩
  obtain ⟨hok, htells⟩ := aggregate_tells_changes hwidth le_rfl summoned
  obtain ⟨entries, h⟩ := hok _ reckons_float hcounted
  exact ⟨hwidth, le_rfl, hcounted, ⟨entries, h, (htells entries h).2⟩, by decide +kernel⟩

end PathAtlas.Window
