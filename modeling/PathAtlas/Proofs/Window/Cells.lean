/-
# Cells of a window

With exact times a bucket is what lies between a multiple of the width and the next one
(`bucketStart_eq_iff`), also before the beginning of time.  So the cells of a source and a target
follow each other without a gap, every trace with hops is in one of them, and there is one summary
for each cell that has any (`Tiled`).

A summary has the start of its cell for its time, and no trace of the cell is earlier.  At the start
itself the two are of one time, but single traces come before summaries when the list is sorted, and
sorting keeps what is of one time in order (`precedes_descending`).  So a single trace never stands
behind the summary of its cell, and a list that is cut off has all single traces of the summaries
that it has.
-/
import PathAtlas.Proofs.Route.Groups
import PathAtlas.Proofs.Window.Filtering

namespace PathAtlas.Window

/-! ## 1. Buckets -/

/-- **The bucket of a time** is the one between whose ends it lies. -/
theorem bucketStart_eq_iff {width time start : Rat} (hwidth : 0 < width) :
    bucketStart width time = start ↔
      (∃ k : ℤ, start = k * width) ∧ start ≤ time ∧ time < start + width := by
  have hstart : bucketStart width time = ⌊time / width⌋ * width := rfl
  rw [hstart]
  constructor
  · rintro rfl
    refine ⟨⟨_, rfl⟩, (le_div_iff₀ hwidth).mp (Int.floor_le _), ?_⟩
    rw [← add_one_mul]
    exact (div_lt_iff₀ hwidth).mp (Int.lt_floor_add_one _)
  · rintro ⟨⟨k, rfl⟩, hle, hlt⟩
    rw [← add_one_mul] at hlt
    have hfloor : ⌊time / width⌋ = k :=
      Int.floor_eq_iff.mpr ⟨(le_div_iff₀ hwidth).mpr hle, (div_lt_iff₀ hwidth).mpr hlt⟩
    rw [hfloor]

/-- A cell covers its source and its target from its start until the next one begins. -/
structure Cell.Covers (width : Rat) (cell : Cell Rat) (source target : String) (time : Rat) :
    Prop where
  source : source = cell.source
  target : target = cell.target
  start_le : cell.start ≤ time
  lt_end : time < cell.start + width

instance decidableCovers (width : Rat) (cell : Cell Rat) (source target : String) (time : Rat) :
    Decidable (cell.Covers width source target time) :=
  decidable_of_iff
    (source = cell.source ∧ target = cell.target ∧ cell.start ≤ time ∧ time < cell.start + width)
    ⟨fun ⟨hsource, htarget, hle, hlt⟩ => ⟨hsource, htarget, hle, hlt⟩,
      fun ⟨hsource, htarget, hle, hlt⟩ => ⟨hsource, htarget, hle, hlt⟩⟩

/-- The cell of a trace begins at a multiple of the width and covers the trace. -/
theorem cellOf_eq_iff {width : Rat} (hwidth : 0 < width) {t : Trace Rat} {cell : Cell Rat} :
    cellOf width t = cell ↔
      (∃ k : ℤ, cell.start = k * width) ∧ cell.Covers width t.source t.target t.time := by
  obtain ⟨source, target, start⟩ := cell
  rw [cellOf, Cell.mk.injEq, bucketStart_eq_iff hwidth]
  constructor
  · rintro ⟨hsource, htarget, hstart, hle, hlt⟩
    exact ⟨hstart, hsource, htarget, hle, hlt⟩
  · rintro ⟨hstart, hsource, htarget, hle, hlt⟩
    exact ⟨hsource, htarget, hstart, hle, hlt⟩

/-! ## 2. The order of the list -/

/-- An entry may stand before another one: it is newer, or as new and not the summary of both. -/
def Entry.Precedes (a b : Entry Rat) : Prop :=
  b.time < a.time ∨ b.time = a.time ∧ (a.isAggregated = true → b.isAggregated = true)

theorem isTrans_precedes : IsTrans (Entry Rat) Entry.Precedes where
  trans a b c hab hbc := by
    rcases hab with hab | ⟨hab, habs⟩
    · rcases hbc with hbc | ⟨hbc, -⟩
      · exact .inl (hbc.trans hab)
      · exact .inl (hbc.trans_lt hab)
    · rcases hbc with hbc | ⟨hbc, hbcs⟩
      · exact .inl (hbc.trans_eq hab)
      · exact .inr ⟨hbc.trans hab, hbcs ∘ habs⟩

/-- **Sorting** puts the newest first and leaves single traces before summaries of their time. -/
theorem precedes_descending {entries : List (Entry Rat)}
    (h : entries.Pairwise fun a b => a.isAggregated = true → b.isAggregated = true) :
    (Order.descending Entry.time entries).Pairwise Entry.Precedes := by
  have := isTrans_precedes
  rw [Order.descending_eq]
  refine Order.sortBy_pairwise_of_answers (h.imp fun {a b} hab => ⟨fun hba => ?_, fun hba => ?_⟩)
  · exact .inl (of_decide_eq_true hba)
  · rcases (not_lt.mp (of_decide_eq_false hba)).lt_or_eq with hlt | heq
    · exact .inl hlt
    · exact .inr ⟨heq, hab⟩

/-! ## 3. The list -/

/-- The cell that a summary is of. -/
def Entry.cell {α : Type} (e : Entry α) : Cell α := ⟨e.source, e.target, e.time⟩

/-- Single traces and summaries, one for each cell. -/
structure Tiled (width : Rat) (traces : List (Trace Rat)) (entries : List (Entry Rat)) : Prop where
  /-- No two summaries are of one cell. -/
  once : ((entries.filter Entry.isAggregated).map Entry.cell).Nodup
  /-- Their cells start at multiples of the width and are those that cover a trace with hops. -/
  cells : ∀ cell, cell ∈ (entries.filter Entry.isAggregated).map Entry.cell ↔
    (∃ k : ℤ, cell.start = k * width) ∧
      ∃ t ∈ traces, t.hasHops = true ∧ cell.Covers width t.source t.target t.time
  /-- Each of them sums up all traces that its cell covers, in order of time. -/
  members : ∀ e ∈ entries, e.isAggregated = true →
    summarize e.cell ((Trace.timeline traces).filter fun t =>
      decide (e.cell.Covers width t.source t.target t.time)) = .ok e
  singles : (entries.filter fun e => !e.isAggregated).Perm (notables (Trace.timeline traces))
  newestFirst : entries.Pairwise fun a b => b.time ≤ a.time
  /-- No single trace stands behind the summary of its cell. -/
  singlesFirst : entries.Pairwise fun a b => a.isAggregated = true → b.isAggregated = false →
    ¬ a.cell.Covers width b.source b.target b.time

section Tiling

variable {width : Rat} {limit : Int} {traces : List (Trace Rat)} {entries : List (Entry Rat)}

theorem precedes_of_aggregate (hlimit : limit ≤ 0)
    (h : aggregate width limit traces = .ok entries) : entries.Pairwise Entry.Precedes := by
  obtain ⟨-, sums, hsums, rfl⟩ := aggregate_eq_ok.mp h
  rw [truncate, if_neg (by omega)]
  refine precedes_descending (List.pairwise_append.mpr ⟨?_, ?_, fun a _ b hb _ => ?_⟩)
  · refine List.pairwise_of_forall_mem_list fun a ha _ _ hsummary => ?_
    simp [isAggregated_of_mem_notables a ha] at hsummary
  · exact List.pairwise_of_forall_mem_list fun _ _ b hb _ => (of_mem_summaries hsums b hb).1
  · exact (of_mem_summaries hsums b hb).1

theorem Entry.Precedes.not_covers {a b : Entry Rat} (h : a.Precedes b)
    (ha : a.isAggregated = true) (hb : b.isAggregated = false) :
    ¬ a.cell.Covers width b.source b.target b.time := by
  intro hcovers
  rcases h with hlt | ⟨-, hboth⟩
  · exact not_lt.mpr hcovers.start_le hlt
  · simp [hboth ha] at hb

/-- All entries without a limit are single traces and the summaries of all cells. -/
theorem tiled_of_aggregate (hwidth : 0 < width) (hlimit : limit ≤ 0)
    (h : aggregate width limit traces = .ok entries) : Tiled width traces entries := by
  obtain ⟨sums, hsums, hsummaries, hsingles⟩ := aggregate_parts hlimit h
  have hprecedes := precedes_of_aggregate hlimit h
  have hcell : ∀ {cell : Cell Rat} {members e}, summarize cell members = .ok e → e.cell = cell := by
    intro cell members e hsum
    obtain ⟨hsource, htarget, htime⟩ := cell_of_summarize hsum
    rw [Entry.cell, hsource, htarget, htime]
  have hcells := hsummaries.map Entry.cell
  rw [map_eq_of_mapM (fun g e he => hcell he) hsums] at hcells
  constructor
  case once => exact hcells.nodup_iff.mpr (Order.groupBy_nodup _)
  case cells =>
    intro cell
    rw [hcells.mem_iff, Order.mem_map_fst_groupBy, List.mem_map]
    constructor
    · rintro ⟨t, ht, heq⟩
      obtain ⟨hmem, hhops⟩ := Trace.mem_timeline.mp ht
      obtain ⟨hstart, hcovers⟩ := (cellOf_eq_iff hwidth).mp heq
      exact ⟨hstart, t, hmem, hhops, hcovers⟩
    · rintro ⟨hstart, t, hmem, hhops, hcovers⟩
      exact ⟨t, Trace.mem_timeline.mpr ⟨hmem, hhops⟩, (cellOf_eq_iff hwidth).mpr ⟨hstart, hcovers⟩⟩
  case members =>
    intro e he hsummary
    have hmem : e ∈ sums := hsummaries.mem_iff.mp (List.mem_filter.mpr ⟨he, hsummary⟩)
    obtain ⟨g, hg, hsum⟩ := mem_of_mapM hsums e hmem
    obtain ⟨t, -, heq⟩ := List.mem_map.mp (Order.mem_map_fst_groupBy.mp (List.mem_map_of_mem hg))
    have hstart := ((cellOf_eq_iff hwidth).mp heq).1
    -- the start is a multiple of the width, so being covered is all that is left
    have hcovered : (Trace.timeline traces).filter
        (fun t => decide (g.1.Covers width t.source t.target t.time)) = g.2 := by
      rw [Order.group_eq g hg]
      refine List.filter_congr fun t _ => ?_
      rw [Bool.eq_iff_iff, decide_eq_true_iff, beq_iff_eq, cellOf_eq_iff hwidth,
        and_iff_right hstart]
    rw [hcell hsum, hcovered]
    exact hsum
  case singles => exact hsingles
  case newestFirst =>
    refine hprecedes.imp fun hab => ?_
    rcases hab with hlt | ⟨heq, -⟩
    · exact hlt.le
    · exact heq.le
  case singlesFirst => exact hprecedes.imp fun hab => hab.not_covers

/-- **Cells of a window.**  With exact times the list of a window is there for every width above
nought when all counts are whole.  A list that is not cut off has one summary for every cell with a
trace that has hops, and its cells start at multiples of the width and reach to the next one; it has
the newest entries first, and every single trace stands before the summary of its cell.  A list that
is cut off is its beginning, so none of the single traces that it lacks is in the cell of a summary
that it has. -/
theorem summaries_tile_window (hwidth : 0 < width) (hlimit : limit ≤ 0)
    (traces : List (Trace Rat)) :
    ((∀ t ∈ traces, ∀ hop ∈ t.hops, Counted (fun _ _ => True) hop) →
      ∃ entries, aggregate width limit traces = .ok entries) ∧
    ∀ entries, aggregate width limit traces = .ok entries →
      Tiled width traces entries ∧
      ∀ n : Int, 0 < n →
        aggregate width n traces = .ok (entries.take n.toNat) ∧
        ∀ e ∈ entries.take n.toNat, e.isAggregated = true →
          ∀ single ∈ entries.drop n.toNat, single.isAggregated = false →
            ¬ e.cell.Covers width single.source single.target single.time := by
  have hpositive : Scalar.le width Scalar.zero = false := by
    simp [Scalar.le, Scalar.zero, Scalar.ofInt, hwidth.le, hwidth.ne']
  refine ⟨aggregate_ok reckons_exact hpositive limit, fun entries h => ?_⟩
  have htiled := tiled_of_aggregate hwidth hlimit h
  refine ⟨htiled, fun n hn => ⟨aggregate_take hlimit h hn, fun e he hsummary b hb hsingle => ?_⟩⟩
  obtain ⟨-, -, hcut⟩ := Order.Runs.pairwise_take_drop htiled.singlesFirst n.toNat
  exact hcut e he b hb hsummary hsingle

end Tiling

/-- A route before the beginning of time and at it, and another one at the start of a bucket. -/
def crossing : List (Trace Rat) :=
  [Route.sighting "10.0.0.1" (-1), Route.sighting "10.0.0.1" 0, Route.sighting "10.0.0.2" 60]

theorem summaries_tile_window_crossing :
    (0 : Rat) < 60 ∧ (0 : Int) ≤ 0 ∧
      (∀ t ∈ crossing, ∀ hop ∈ t.hops, Counted (fun _ _ => True) hop) ∧
      (∃ entries, aggregate (60 : Rat) 0 crossing = .ok entries ∧ Tiled 60 crossing entries ∧
        aggregate (60 : Rat) 2 crossing = .ok (entries.take 2)) ∧
      (aggregate (60 : Rat) 0 crossing).toOption.map
          (fun entries => entries.map fun e => (e.time, e.isAggregated))
        = some [(60, false), (60, true), (0, true), (-60, true)] := by
  have hwidth : (0 : Rat) < 60 := by norm_num
  have hcounted : ∀ t ∈ crossing, ∀ hop ∈ t.hops, Counted (fun _ _ => True) hop := by
    intro t ht hop hhop
    simp only [crossing, List.mem_cons, List.not_mem_nil, or_false] at ht
    rcases ht with rfl | rfl | rfl <;>
    · obtain rfl := List.mem_singleton.mp hhop
      exact ⟨1, 1, rfl, rfl, trivial⟩
  obtain ⟨hok, htiles⟩ := summaries_tile_window hwidth le_rfl crossing
  obtain ⟨entries, h⟩ := hok hcounted
  obtain ⟨htiled, hlimits⟩ := htiles entries h
  exact ⟨hwidth, le_rfl, hcounted, ⟨entries, h, htiled, (hlimits 2 (by norm_num)).1⟩,
    by decide +kernel⟩

end PathAtlas.Window
