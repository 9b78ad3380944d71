/-
# Which reports can be read

A report is passed over when it lacks hops, a source or a target (`Reports`), and most of what else
can be wrong with it is put right: a latency that is no number is absent, a hop that is no mapping
is skipped.  Some fields are converted without looking, though, and then the whole reading fails.

`Unreadable` lists these fields.  It says so of the document alone, in terms of the kinds of its
values, and `fails_trace_iff` proves that the list is complete: a report is either read, or passed
over, or it is on the list.
-/
import PathAtlas.Proofs.Decimal.Range
import PathAtlas.Proofs.Outcome
import PathAtlas.Trace.Report

namespace PathAtlas.Report

/-! ## 1. Values that cannot be converted -/

/-- A whole number beyond the range of the numbers that quantities are kept in. -/
def Oversized (v : Json) : Prop := ∃ n, v = .whole n ∧ Decimal.rangeEnd ≤ n.natAbs

/-- What is given for a count and is none: a text that does not spell a whole number, a number that
is not finite, a list or a mapping. -/
def Uncountable (v : Json) : Prop :=
  v.isPresent = true ∧
    match v with
    | .text s => Fails (Text.readWhole s)
    | .decimal x => x.isFinite = false
    | .list _ | .mapping _ => True
    | _ => False

/-- What is given for a list and has no elements to go through: a number or a truth value. -/
def Unlisted (v : Json) : Prop := v.isPresent = true ∧ v.isNumber = true

/-- Numbers can be read unless they are too large. -/
theorem fails_toDecimal_iff {v : Json} (h : v.isNumber = true) :
    Fails v.toDecimal ↔ Oversized v := by
  cases v with
  | bool b => simp [Json.toDecimal, Oversized]
  | decimal x => simp [Json.toDecimal, Oversized]
  | whole n =>
    have hnone : Fails (Json.toDecimal (.whole n)) ↔ Decimal.wholeFloat? n = none := by
      simp only [Json.toDecimal, Json.decimalOfWhole]
      cases Decimal.wholeFloat? n <;> simp
    rw [hnone, Decimal.wholeFloat?_eq_none_iff]
    simp [Oversized]
  | null => simp [Json.isNumber] at h
  | text s => simp [Json.isNumber] at h
  | list xs => simp [Json.isNumber] at h
  | mapping es => simp [Json.isNumber] at h

/-- A measured value that takes numbers as they are and puts up with all else fails for what is
oversized. -/
theorem fails_iff_oversized {β : Type} {read : Json → Except Fault β} (v : Json)
    (hnumber : v.isNumber = true → (Fails (read v) ↔ Fails v.toDecimal))
    (hother : v.isNumber = false → ¬ Fails (read v)) : Fails (read v) ↔ Oversized v := by
  cases h : v.isNumber with
  | true => exact (hnumber h).trans (fails_toDecimal_iff h)
  | false =>
    refine iff_of_false (hother h) ?_
    rintro ⟨n, rfl, -⟩
    simp [Json.isNumber] at h

theorem fails_loss_iff (v : Json) : Fails (loss v) ↔ Oversized v := by
  refine fails_iff_oversized v ?_ ?_ <;> intro h <;> cases v <;> simp_all [loss, Json.isNumber]

theorem fails_latency_iff (v : Json) : Fails (latency v) ↔ Oversized v := by
  refine fails_iff_oversized v ?_ ?_ <;> intro h <;> cases v <;> simp_all [latency, Json.isNumber]

theorem fails_timestamp_iff (v : Json) : Fails (timestamp v) ↔ Oversized v := by
  refine fails_iff_oversized v ?_ ?_ <;> intro h <;> cases v <;> simp_all [timestamp, Json.isNumber]

theorem fails_wholePart_iff (x : Float) : Fails (Json.wholePart x) ↔ x.isFinite = false := by
  rw [← Decimal.ofFloat?_eq_none_iff, Json.wholePart]
  cases Decimal.Binary.ofFloat? x <;> simp

/-- A count fails on a value that cannot be counted. -/
theorem fails_countD_iff (doc : Json) (key : String) (n : Int) :
    Fails (countD doc key n) ↔ Uncountable (doc.entry key) := by
  unfold countD orElse Uncountable
  generalize doc.entry key = v
  split
  · rename_i h
    cases v with
    | null => simp [Json.isPresent] at h
    | bool b => simp [Json.toWhole]
    | whole m => simp [Json.toWhole]
    | decimal x => simpa [h, Json.toWhole] using fails_wholePart_iff x
    | text s => simp [h, Json.toWhole]
    | list xs => simp [h, Json.toWhole]
    | mapping es => simp [h, Json.toWhole]
  · rename_i h
    simp [h, Json.toWhole]

theorem fails_hosts_iff (v : Json) : Fails (orElse v (.list [])).elements ↔ Unlisted v := by
  unfold orElse Unlisted
  split
  · rename_i h
    cases v with
    | null => simp [Json.isPresent] at h
    | _ => simp_all [Json.elements, Json.isNumber]
  · rename_i h
    simp [h, Json.elements]

/-! ## 2. Hops -/

/-- A hop that cannot be read. -/
inductive Broken (doc : Json) : Prop where
  | hosts (h : Unlisted (doc.entry "hosts"))
  | sent (h : Uncountable (doc.entry "sent"))
  | received (h : Uncountable (doc.entry "recv"))
  | number (h : Uncountable (doc.entry "ttl"))
  | loss (v : Json) (h : doc.get? "loss_pct" = some v) (hv : Oversized v)
  /-- The loss is counted, and the counts are too far apart for a share. -/
  | share (h : doc.get? "loss_pct" = none) (sent received : Int)
      (hs : countD doc "sent" 0 = .ok sent) (hr : countD doc "recv" 0 = .ok received)
      (hpos : 0 < sent)
      (hfar : Decimal.rangeEnd * sent.natAbs ≤ (sent - received).natAbs)
  | latency (key : String) (hkey : key ∈ ["avg", "best", "worst", "stddev"])
      (h : Oversized (doc.entry key))

/-- The loss that is reckoned from counts fails when the quotient lies beyond the range. -/
theorem fails_countedLoss_iff (sent received : Int) :
    Fails (countedLoss sent received)
      ↔ 0 < sent ∧ Decimal.rangeEnd * sent.natAbs ≤ (sent - received).natAbs := by
  unfold countedLoss
  split
  · rename_i hpos
    have hnone : Scalar.percent? (sent - received) sent = (none : Option Float)
        ↔ Decimal.quotientFloat? (sent - received) sent = none := Option.map_eq_none_iff
    rw [Decimal.quotientFloat?_eq_none_iff hpos.ne'] at hnone
    cases hshare : (Scalar.percent? (sent - received) sent : Option Float) with
    | none => simp [hpos, hnone.mp hshare]
    | some x => simp [hpos, ← hnone, hshare]
  · rename_i hpos
    simp [hpos]

/-- The loss of a hop that has its counts. -/
theorem fails_lossOf_iff {doc : Json} {sent received : Int} (hs : countD doc "sent" 0 = .ok sent)
    (hr : countD doc "recv" 0 = .ok received) :
    Fails (lossOf doc sent received)
      ↔ (∃ v, doc.get? "loss_pct" = some v ∧ Oversized v) ∨
        (doc.get? "loss_pct" = none ∧ ∃ sent received, countD doc "sent" 0 = .ok sent ∧
          countD doc "recv" 0 = .ok received ∧ 0 < sent ∧
          Decimal.rangeEnd * sent.natAbs ≤ (sent - received).natAbs) := by
  unfold lossOf
  cases doc.get? "loss_pct" with
  | some v => simp [fails_loss_iff]
  | none => simp [fails_countedLoss_iff, hs, hr]

/-- **A hop fails** just when it is broken. -/
theorem fails_hop_iff (index : Nat) (doc : Json) : Fails (hop index doc) ↔ Broken doc := by
  -- the losses alone depend on fields before them
  have hfields : Fails (hop index doc) ↔ _ :=
    fails_bind_of_forall fun _ _ => fails_bind_of_forall fun _ hs =>
      fails_bind_of_forall fun _ hr =>
        (fails_bind_of_forall fun _ _ => fails_bind_of_forall fun _ _ =>
          fails_bind_of_forall fun _ _ => fails_bind_of_forall fun _ _ =>
            fails_bind_of_forall fun _ _ => fails_bind_of_forall fun _ _ =>
              iff_false_intro (not_fails_pure _)).trans (or_congr_left (fails_lossOf_iff hs hr))
  rw [hfields]
  simp only [fails_hosts_iff, fails_countD_iff, fails_latency_iff, or_false]
  constructor
  · rintro (h | h | h | (⟨v, h, hv⟩ | ⟨h, sent, received, hs, hr, hpos, hfar⟩) | h | h | h | h | h)
    · exact .hosts h
    · exact .sent h
    · exact .received h
    · exact .loss v h hv
    · exact .share h sent received hs hr hpos hfar
    · exact .number h
    · exact .latency "avg" (by simp) h
    · exact .latency "best" (by simp) h
    · exact .latency "worst" (by simp) h
    · exact .latency "stddev" (by simp) h
  · rintro (h | h | h | h | ⟨v, h, hv⟩ | ⟨h, sent, received, hs, hr, hpos, hfar⟩ | ⟨key, hkey, h⟩)
    · exact .inl h
    · exact .inr (.inl h)
    · exact .inr (.inr (.inl h))
    · exact .inr (.inr (.inr (.inr (.inl h))))
    · exact .inr (.inr (.inr (.inl (.inl ⟨v, h, hv⟩))))
    · exact .inr (.inr (.inr (.inl (.inr ⟨h, sent, received, hs, hr, hpos, hfar⟩))))
    · simp only [List.mem_cons, List.not_mem_nil, or_false] at hkey
      rcases hkey with rfl | rfl | rfl | rfl <;> simp [h]

/-- A row of hops fails on one that is broken. -/
theorem fails_hops_iff (index : Nat) (docs : List Json) :
    Fails (hops index docs) ↔ ∃ es, Json.mapping es ∈ docs ∧ Broken (.mapping es) := by
  induction docs generalizing index with
  | nil => simp [hops]
  | cons doc docs ih =>
    cases doc with
    | mapping es =>
      have hparts : Fails (hops index (.mapping es :: docs)) ↔ _ :=
        fails_bind_of_forall fun _ _ => fails_bind_of_forall fun _ _ =>
          iff_false_intro (not_fails_pure _)
      rw [hparts, fails_hop_iff, ih, or_false]
      simp [or_and_right, exists_or]
    | _ => simp [hops, ih]

/-! ## 3. Reports -/

/-- A document that reports a trace: it has hops, a source and a target. -/
structure Reports (doc : Json) (docs : List Json) : Prop where
  hops : hopList doc = .list docs
  nonempty : docs ≠ []
  source : (either doc "agent_id" "source").isNull = false
  sourceGiven : (either doc "agent_id" "source").same (.text "") = false
  target : (doc.entry "target").isPresent = true

/-- A document that reports a trace and cannot be read. -/
inductive Unreadable (doc : Json) : Prop where
  | time (docs : List Json) (h : Reports doc docs)
      (htime : Oversized (either doc "created_at" "timestamp"))
  | hop (docs : List Json) (h : Reports doc docs) (es : List (String × Json))
      (hmem : Json.mapping es ∈ docs) (hbroken : Broken (.mapping es))

theorem Reports.unique {doc : Json} {docs docs' : List Json} (h : Reports doc docs)
    (h' : Reports doc docs') : docs = docs' :=
  Json.list.inj (h.hops.symm.trans h'.hops)

/-- A document that is no report gives no trace. -/
theorem trace_of_not_reports {doc : Json} (h : ∀ docs, ¬ Reports doc docs) :
    trace doc = .ok none := by
  unfold trace
  split
  · rename_i first rest hlist
    simp only
    split
    · rfl
    · rename_i hgiven
      simp only [Bool.or_eq_true, not_or, Bool.not_eq_true, Bool.not_eq_false'] at hgiven
      exact absurd ⟨hlist, by simp, hgiven.1.1, hgiven.1.2, hgiven.2⟩ (h (first :: rest))
  · rfl

/-- A document that reports a trace is read unless its time or one of its hops is in the way. -/
theorem trace_of_reports {doc : Json} {docs : List Json} (h : Reports doc docs) :
    trace doc = do
      let time ← timestamp (either doc "created_at" "timestamp")
      let hops ← Report.hops 0 docs
      return some
        { source := (either doc "agent_id" "source").display
          target := (doc.entry "target").display
          hops
          time := time.getD 0.0
          triggered := (doc.entry "triggered").isPresent
          targetAgent := targetAgent (doc.entry "target_agent")
          id := idOf (doc.entry "id") } := by
  obtain ⟨first, rest, rfl⟩ := List.exists_cons_of_ne_nil h.nonempty
  simp only [trace, h.hops, h.source, h.sourceGiven, h.target]
  rfl

/-- **A report fails** just when it is unreadable. -/
theorem fails_trace_iff (doc : Json) : Fails (trace doc) ↔ Unreadable doc := by
  by_cases hreports : ∃ docs, Reports doc docs
  · obtain ⟨docs, hdocs⟩ := hreports
    have hparts : Fails (trace doc) ↔ _ :=
      trace_of_reports hdocs ▸ fails_bind_of_forall fun _ _ => fails_bind_of_forall fun _ _ =>
        iff_false_intro (not_fails_pure _)
    rw [hparts, fails_timestamp_iff, fails_hops_iff, or_false]
    constructor
    · rintro (h | ⟨es, hmem, h⟩)
      · exact .time docs hdocs h
      · exact .hop docs hdocs es hmem h
    · rintro (⟨docs', -, h⟩ | ⟨docs', hdocs', es, hmem, h⟩)
      · exact .inl h
      · exact .inr ⟨es, hdocs'.unique hdocs ▸ hmem, h⟩
  · have hnone : ∀ docs, ¬ Reports doc docs := not_exists.mp hreports
    rw [trace_of_not_reports hnone]
    refine iff_of_false (not_fails_ok _) ?_
    rintro (⟨docs, h, -⟩ | ⟨docs, h, -⟩)
    · exact hnone docs h
    · exact hnone docs h

/-- **A report is passed over** just when it lacks hops, a source or a target. -/
theorem trace_eq_none_iff (doc : Json) : trace doc = .ok none ↔ ∀ docs, ¬ Reports doc docs := by
  refine ⟨fun h docs hdocs => ?_, trace_of_not_reports⟩
  rw [trace_of_reports hdocs] at h
  obtain ⟨time, -, h⟩ := bind_eq_ok.mp h
  obtain ⟨hops, -, h⟩ := bind_eq_ok.mp h
  simp [pure, Except.pure] at h

/-! ## 4. Batches -/

/-- The trace of a document that reports one with hops. -/
def usable? (doc : Json) : Option (Trace Float) :=
  match trace doc with
  | .ok t => t.filter Trace.hasHops
  | .error _ => none

theorem usable?_of_ok {doc : Json} {t : Option (Trace Float)} (h : trace doc = .ok t) :
    usable? doc = t.filter Trace.hasHops := by
  rw [usable?, h]

theorem fails_traces_iff (docs : List Json) :
    Fails (traces docs) ↔ ∃ doc ∈ docs, Unreadable doc := by
  induction docs with
  | nil => simp [traces]
  | cons doc docs ih =>
    have hparts : Fails (traces (doc :: docs)) ↔ _ :=
      fails_bind_of_forall fun _ _ => fails_bind_of_forall fun _ _ =>
        iff_false_intro (not_fails_pure _)
    rw [hparts, fails_trace_iff, ih, or_false, List.exists_mem_cons_iff]

/-- A batch that is read gives the usable traces in order. -/
theorem traces_eq_ok {docs : List Json} {ts : List (Trace Float)} (h : traces docs = .ok ts) :
    ts = docs.filterMap usable? := by
  induction docs generalizing ts with
  | nil => exact (Except.ok.inj h).symm
  | cons doc docs ih =>
    obtain ⟨t, ht, h⟩ := bind_eq_ok.mp h
    obtain ⟨rest, hrest, h⟩ := bind_eq_ok.mp h
    obtain rfl := Except.ok.inj h
    rw [ih hrest, List.filterMap_cons, usable?_of_ok ht]
    cases t.filter Trace.hasHops <;> rfl

end PathAtlas.Report
