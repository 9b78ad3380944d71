/-
# Loading stored records

Whoever loads the records of a workspace gets those that report a trace from the last while.  A
text that is no record is passed over, but a record that is unreadable is not: it ends the loading
of all others in its workspace, and so does an arrival that is no number where it is needed
(`Blocks`).

`reading_fails_iff` says for one document, for a batch and for a workspace when reading fails, and
what it gives when it does not.  That it can fail at all is against what reading is for, and
`reading_fails_on_spelled_count` shows a report of one hop for which it does.
-/
import PathAtlas.Proofs.Trace.Readability
import PathAtlas.Service.Store

namespace PathAtlas.Service.Store

open Report (Reports Unreadable Broken)

/-! ## 1. Single entries -/

/-- An entry that ends the loading of its workspace. -/
inductive Blocks (entry : Entry) : Prop where
  | record (raw arrival : Json) (h : entry.parts? = some (raw, arrival)) (hraw : Unreadable raw)
  /-- The trace has no time of its own, and its arrival is no number. -/
  | arrival (raw arrival : Json) (h : entry.parts? = some (raw, arrival)) (trace : Trace Float)
      (htrace : Report.trace raw = .ok (some trace)) (htime : Scalar.isZero trace.time = true)
      (harrival : arrival.isNumber = false)

/-- The time that counts for a trace: its own, or that of its arrival when it has none. -/
def seenAt (arrival : Json) (trace : Trace Float) : Json :=
  if Scalar.isZero trace.time then arrival else .decimal trace.time

/-- Whether a trace lies within the window. -/
def within (cutoff : Float) (arrival : Json) (trace : Trace Float) : Bool :=
  (Json.decimal cutoff).numberBelow (seenAt arrival trace) ||
    (Json.decimal cutoff).numberSame (seenAt arrival trace)

/-- The trace of an entry, when it has one within the window. -/
def loadable? (cutoff : Float) (entry : Entry) : Option (Trace Float) :=
  entry.parts?.bind fun (raw, arrival) =>
    match Report.trace raw with
    | .ok trace => trace.filter (within cutoff arrival)
    | .error _ => none

theorem fails_isFrom_iff (cutoff : Float) (v : Json) :
    Fails (isFrom cutoff v) ↔ v.isNumber = false := by
  unfold isFrom
  split
  · rename_i h
    simp [h]
  · rename_i h
    simp [h]

theorem isNumber_seenAt (arrival : Json) (trace : Trace Float) :
    (seenAt arrival trace).isNumber = false
      ↔ Scalar.isZero trace.time = true ∧ arrival.isNumber = false := by
  unfold seenAt
  split
  · rename_i h
    simp [h]
  · rename_i h
    simp [h, Json.isNumber]

/-- The trace of a record within the window, as far as the record can be read. -/
theorem loadEntry_eq {entry : Entry} {raw arrival : Json} (cutoff : Float)
    (h : entry.parts? = some (raw, arrival)) :
    loadEntry cutoff entry = do
      match ← Report.trace raw with
      | none => return none
      | some trace =>
        return if ← isFrom cutoff (seenAt arrival trace) then some trace else none := by
  unfold loadEntry
  rw [h]
  rfl

/-- **An entry fails** just when it blocks its workspace. -/
theorem fails_loadEntry_iff (cutoff : Float) (entry : Entry) :
    Fails (loadEntry cutoff entry) ↔ Blocks entry := by
  cases hparts : entry.parts? with
  | none =>
    unfold loadEntry
    rw [hparts]
    refine iff_of_false (not_fails_ok _) ?_
    rintro (⟨raw, arrival, h, -⟩ | ⟨raw, arrival, h, -⟩) <;> simp [hparts] at h
  | some parts =>
    obtain ⟨raw, arrival⟩ := parts
    rw [loadEntry_eq cutoff hparts]
    cases htrace : Report.trace raw with
    | error fault =>
      have hraw : Unreadable raw := (Report.fails_trace_iff raw).mp ⟨fault, htrace⟩
      exact iff_of_true (fails_error fault) (.record raw arrival hparts hraw)
    | ok found =>
      have hread : ¬ Unreadable raw := by
        rw [← Report.fails_trace_iff, htrace]
        exact not_fails_ok found
      have hblocks : Blocks entry ↔ ∃ trace, found = some trace ∧
          Scalar.isZero trace.time = true ∧ arrival.isNumber = false := by
        constructor
        · rintro (⟨raw', arrival', h, hraw⟩ | ⟨raw', arrival', h, trace, ht, htime, harrival⟩)
          · obtain ⟨rfl, rfl⟩ := Prod.mk.inj (Option.some.inj (hparts.symm.trans h))
            exact absurd hraw hread
          · obtain ⟨rfl, rfl⟩ := Prod.mk.inj (Option.some.inj (hparts.symm.trans h))
            exact ⟨trace, Except.ok.inj (htrace.symm.trans ht), htime, harrival⟩
        · rintro ⟨trace, rfl, htime, harrival⟩
          exact .arrival raw arrival hparts trace htrace htime harrival
      rw [hblocks]
      cases found with
      | none => exact iff_of_false (not_fails_ok _) (by simp)
      | some trace =>
        have hparts : Fails (do
            return if ← isFrom cutoff (seenAt arrival trace) then some trace else none) ↔ _ :=
          fails_bind_of_forall fun _ _ => iff_false_intro (not_fails_pure _)
        refine hparts.trans ?_
        simp [fails_isFrom_iff, isNumber_seenAt]

theorem loadable?_of_ok {entry : Entry} {raw arrival : Json} {found : Option (Trace Float)}
    (cutoff : Float) (h : entry.parts? = some (raw, arrival))
    (htrace : Report.trace raw = .ok found) :
    loadable? cutoff entry = found.filter (within cutoff arrival) := by
  simp only [loadable?, h, Option.bind_some, htrace]

theorem isFrom_eq_ok {cutoff : Float} {v : Json} {inside : Bool}
    (h : isFrom cutoff v = .ok inside) :
    inside = ((Json.decimal cutoff).numberBelow v || (Json.decimal cutoff).numberSame v) := by
  unfold isFrom at h
  split at h
  · exact (Except.ok.inj h).symm
  · cases h

/-- An entry that is read gives the trace that it has within the window. -/
theorem loadEntry_eq_ok {cutoff : Float} {entry : Entry} {t : Option (Trace Float)}
    (h : loadEntry cutoff entry = .ok t) : t = loadable? cutoff entry := by
  cases hparts : entry.parts? with
  | none =>
    rw [loadEntry, hparts] at h
    rw [loadable?, hparts]
    exact (Except.ok.inj h).symm
  | some parts =>
    obtain ⟨raw, arrival⟩ := parts
    rw [loadEntry_eq cutoff hparts] at h
    obtain ⟨found, htrace, h⟩ := bind_eq_ok.mp h
    rw [loadable?_of_ok cutoff hparts htrace]
    cases found with
    | none => exact (Except.ok.inj h).symm
    | some trace =>
      obtain ⟨inside, hinside, h⟩ := bind_eq_ok.mp h
      rw [← Except.ok.inj h, isFrom_eq_ok hinside]
      rfl

/-! ## 2. Workspaces -/

/-- Loading fails on an entry that cannot be read, and on no other ground than the window. -/
theorem fails_loadTraces_iff (store : Store) (workspace : String) (now : Float) :
    Fails (store.loadTraces workspace now)
      ↔ Fails (store.lookback.quantity "-") ∨ ∃ entry ∈ store.entries workspace, Blocks entry := by
  have hload : ∀ cutoff, Fails ((store.entries workspace).mapM (loadEntry cutoff))
      ↔ ∃ entry ∈ store.entries workspace, Blocks entry := by
    intro cutoff
    simp only [fails_mapM, fails_loadEntry_iff]
  have hparts : Fails (store.loadTraces workspace now) ↔ _ :=
    fails_bind_of_forall fun _ _ =>
      (fails_bind_of_forall fun _ _ => iff_false_intro (not_fails_pure _)).trans
        ((or_iff_left id).trans (hload _))
  exact hparts

/-- Entries that are all read give one result each. -/
theorem map_loadable?_of_forall₂ {cutoff : Float} {entries : List Entry}
    {loaded : List (Option (Trace Float))}
    (h : List.Forall₂ (fun entry t => loadEntry cutoff entry = .ok t) entries loaded) :
    loaded = entries.map (loadable? cutoff) := by
  induction h with
  | nil => rfl
  | cons hentry _ ih => rw [List.map_cons, ← ih, loadEntry_eq_ok hentry]

/-- A workspace that is loaded gives the traces within the window in order. -/
theorem loadTraces_eq_ok {store : Store} {workspace : String} {now : Float}
    {ts : List (Trace Float)} (h : store.loadTraces workspace now = .ok ts) :
    ∃ seconds, store.lookback.quantity "-" = .ok seconds ∧
      ts = (store.entries workspace).filterMap (loadable? (now - seconds)) := by
  obtain ⟨seconds, hseconds, h⟩ := bind_eq_ok.mp h
  obtain ⟨loaded, hloaded, h⟩ := bind_eq_ok.mp h
  obtain rfl := Except.ok.inj h
  rw [map_loadable?_of_forall₂ (mapM_eq_ok.mp hloaded), List.filterMap_map]
  exact ⟨seconds, hseconds, rfl⟩

/-! ## 3. When reading fails -/

/-- **Reading fails** for a document just when it is unreadable, for a batch just when one of its
documents is, and for a workspace just when one of its entries blocks it, or when there is no
number of seconds to look back.  Otherwise a batch gives its usable traces in order, and a
workspace those of its last while. -/
theorem reading_fails_iff (doc : Json) (docs : List Json) (store : Store) (workspace : String)
    (now : Float) :
    (Fails (Report.trace doc) ↔ Unreadable doc) ∧
    (Report.trace doc = .ok none ↔ ∀ hops, ¬ Reports doc hops) ∧
    (Fails (Report.traces docs) ↔ ∃ doc ∈ docs, Unreadable doc) ∧
    (∀ ts, Report.traces docs = .ok ts → ts = docs.filterMap Report.usable?) ∧
    (Fails (store.loadTraces workspace now) ↔
      Fails (store.lookback.quantity "-") ∨ ∃ entry ∈ store.entries workspace, Blocks entry) ∧
    (∀ ts, store.loadTraces workspace now = .ok ts →
      ∃ seconds, store.lookback.quantity "-" = .ok seconds ∧
        ts = (store.entries workspace).filterMap (loadable? (now - seconds))) :=
  ⟨Report.fails_trace_iff doc, Report.trace_eq_none_iff doc, Report.fails_traces_iff docs,
    fun _ => Report.traces_eq_ok, fails_loadTraces_iff store workspace now,
    fun _ => loadTraces_eq_ok⟩

/-- A report of one hop whose number of probes is no number. -/
def spelledCount : Json :=
  .mapping
    [("agent_id", .whole 1), ("target", .text "10.0.0.9"),
     ("hops", .list [.mapping [("ttl", .whole 1), ("sent", .text "three")]])]

/-- A report that can be read. -/
def countedHop : Json :=
  .mapping
    [("agent_id", .whole 1), ("target", .text "10.0.0.9"),
     ("hops", .list [.mapping [("ttl", .whole 1), ("sent", .whole 3)]])]

/-- **A word for a count** makes a report unreadable, and it takes the other reports of its batch
and of its workspace with it. -/
theorem reading_fails_on_spelled_count :
    Report.trace spelledCount = .error (.notWhole "three") ∧
    (∃ t, Report.trace countedHop = .ok (some t)) ∧
    Fails (Report.traces [countedHop, spelledCount]) ∧
    Fails (loadTraces
      { lookback := .whole 3600, maxRecords := 10
        lists := [("ws", [.record 0 countedHop, .record 0 spelledCount])] } "ws" 0) := by
  have hfault : Report.trace spelledCount = .error (.notWhole "three") := rfl
  have hunreadable : Unreadable spelledCount := (Report.fails_trace_iff _).mp ⟨_, hfault⟩
  refine ⟨hfault, ⟨_, rfl⟩, ?_, ?_⟩
  · exact (Report.fails_traces_iff _).mpr ⟨spelledCount, by simp, hunreadable⟩
  · refine (fails_loadTraces_iff _ _ _).mpr (.inr ⟨.record 0 spelledCount, ?_, ?_⟩)
    · simp [entries, Table.find?]
    · exact .record spelledCount (.decimal 0) rfl hunreadable

end PathAtlas.Service.Store
