/-
# Artifacts of one trace

The silent hops of a trace are told in rows, found in one pass that remembers where the row it is in
began.  What the pass still has to find at some place is known from the hops ahead and from the row
begun (`Pending`): the silent hops among those, and the hops of that row, which are silent and not
ahead any more.  With this both ways in which a row ends, at a hop that answers and at the end of
the trace, are the same induction (`silentRuns_silentRows`).

A hop limits the rate of its answers when it loses much of what the last hop does not lose.  The two
losses have nothing in common (`not_clean_of_limited`), so the last hop is never such a hop.
-/
import PathAtlas.Analysis
import PathAtlas.Proofs.Order.Descending
import PathAtlas.Proofs.Text.Numbers

namespace PathAtlas.Analysis

variable {α : Type}

/-! ## 1. Hops by number -/

/-- There is a hop of a kind with the number `m`, the first hop having the number `n`. -/
def Numbered (n : Nat) (hops : List (Hop α)) (kind : Hop α → Prop) (m : Nat) : Prop :=
  ∃ hop, (hop, m) ∈ hops.zipIdx n ∧ kind hop

section Numbers

variable {n m : Nat} {hop : Hop α} {hops : List (Hop α)} {kind : Hop α → Prop}

theorem not_numbered_nil : ¬ Numbered n [] kind m := by
  rintro ⟨_, hmem, -⟩
  cases hmem

theorem numbered_cons :
    Numbered n (hop :: hops) kind m ↔ m = n ∧ kind hop ∨ Numbered (n + 1) hops kind m := by
  simp only [Numbered, List.zipIdx_cons, List.mem_cons, Prod.mk.injEq, or_and_right, exists_or]
  refine or_congr_left ⟨?_, ?_⟩
  · rintro ⟨_, ⟨rfl, rfl⟩, hkind⟩
    exact ⟨rfl, hkind⟩
  · rintro ⟨rfl, hkind⟩
    exact ⟨hop, ⟨rfl, rfl⟩, hkind⟩

theorem le_of_numbered (h : Numbered n hops kind m) : n ≤ m := by
  obtain ⟨_, hmem, -⟩ := h
  exact List.le_snd_of_mem_zipIdx hmem

theorem hopNumbers_eq (test : Hop α → Bool) (n : Nat) (hops : List (Hop α)) :
    hopNumbers test n hops = ((hops.zipIdx n).filter fun entry => test entry.1).map Prod.snd := by
  induction hops generalizing n with
  | nil => rfl
  | cons hop hops ih =>
    rw [hopNumbers, ih, List.zipIdx_cons, List.filter_cons]
    split <;> rfl

/-- **The hops that pass a test**, by their numbers. -/
theorem mem_hopNumbers {test : Hop α → Bool} :
    m ∈ hopNumbers test n hops ↔ Numbered n hops (fun hop => test hop = true) m := by
  rw [hopNumbers_eq, List.mem_map]
  constructor
  · rintro ⟨⟨hop, m⟩, hmem, rfl⟩
    obtain ⟨hmem, htest⟩ := List.mem_filter.mp hmem
    exact ⟨hop, hmem, htest⟩
  · rintro ⟨hop, hmem, htest⟩
    exact ⟨(hop, m), List.mem_filter.mpr ⟨hmem, htest⟩, rfl⟩

theorem hopNumbers_pairwise (test : Hop α → Bool) (n : Nat) (hops : List (Hop α)) :
    (hopNumbers test n hops).Pairwise (· < ·) := by
  have hsub : (hopNumbers test n hops).Sublist ((hops.zipIdx n).map Prod.snd) := by
    rw [hopNumbers_eq]
    exact List.filter_sublist.map Prod.snd
  rw [List.zipIdx_map_snd] at hsub
  exact List.Pairwise.sublist hsub List.pairwise_lt_range'

end Numbers

/-! ## 2. Rows of silent hops -/

/-- The hop belongs to a row. -/
def Segment.Holds (row : Segment) (m : Nat) : Prop := row.first ≤ m ∧ m ≤ row.last

/-- Rows of numbers that are silent, in increasing order, none of them empty, any two with an
answered number between them, and which leave no silent number out. -/
structure SilentRuns (silent answered : Nat → Prop) (rows : List Segment) : Prop where
  nonempty : ∀ row ∈ rows, row.first ≤ row.last
  apart : rows.Pairwise fun row next => ∃ m, answered m ∧ row.last < m ∧ m < next.first
  covers : ∀ m, (∃ row ∈ rows, row.Holds m) ↔ silent m

section Rows

variable {silent silent' answered answered' : Nat → Prop} {rows : List Segment}

theorem SilentRuns.of_iff (h : SilentRuns silent answered rows)
    (hsilent : ∀ m, silent m ↔ silent' m) (hanswered : ∀ m, answered m → answered' m) :
    SilentRuns silent' answered' rows where
  nonempty := h.nonempty
  apart := h.apart.imp fun ⟨m, hm, hbetween⟩ => ⟨m, hanswered m hm, hbetween⟩
  covers m := (h.covers m).trans (hsilent m)

theorem silentRuns_nil (h : ∀ m, ¬ silent m) : SilentRuns silent answered [] where
  nonempty _ hrow := nomatch hrow
  apart := .nil
  covers m := by simp [h m]

/-- A row more, in front of an answered number before all others. -/
theorem SilentRuns.cons (h : SilentRuns silent answered rows) {row : Segment} {stop : Nat}
    (hrow : row.first ≤ row.last) (hlast : row.last < stop) (hstop : answered stop)
    (hrest : ∀ m, silent m → stop < m) :
    SilentRuns (fun m => row.Holds m ∨ silent m) answered (row :: rows) where
  nonempty := List.forall_mem_cons.mpr ⟨hrow, h.nonempty⟩
  apart := by
    refine List.pairwise_cons.mpr ⟨fun next hnext => ⟨stop, hstop, hlast, hrest _ ?_⟩, h.apart⟩
    exact (h.covers _).mp ⟨next, hnext, le_rfl, h.nonempty next hnext⟩
  covers m := by rw [← h.covers, List.exists_mem_cons_iff]

end Rows

/-- What is to be found with some hops ahead and a row begun: the hops of that row, and the silent
ones ahead. -/
def Pending (begun : Option Nat) (n : Nat) (hops : List (Hop α)) (m : Nat) : Prop :=
  (∃ start ∈ begun, start ≤ m ∧ m < n) ∨ Numbered n hops (fun hop => hop.responds = false) m

section Pass

variable {n m : Nat} {hop : Hop α} {hops : List (Hop α)} {begun : Option Nat}

theorem pending_none :
    Pending none n hops m ↔ Numbered n hops (fun hop => hop.responds = false) m := by
  simp [Pending]

theorem pending_some {start : Nat} : Pending (some start) n hops m ↔
    (start ≤ m ∧ m < n) ∨ Numbered n hops (fun hop => hop.responds = false) m := by
  simp [Pending]

/-- A silent hop joins the row begun, or begins one. -/
theorem pending_cons_of_silent (hbegun : ∀ start ∈ begun, start < n)
    (hsilent : hop.responds = false) :
    Pending (some (begun.getD n)) (n + 1) hops m ↔ Pending begun n (hop :: hops) m := by
  have hcons : Numbered n (hop :: hops) (fun hop => hop.responds = false) m
      ↔ m = n ∨ Numbered (n + 1) hops (fun hop => hop.responds = false) m := by
    rw [numbered_cons]
    simp only [hsilent, and_true]
  rw [pending_some]
  cases begun with
  | none =>
    rw [pending_none, hcons, Option.getD_none]
    exact or_congr_left (by omega)
  | some start =>
    have hstart := hbegun start rfl
    rw [pending_some, hcons, ← or_assoc, Option.getD_some]
    exact or_congr_left (by omega)

theorem silentRows_of_silent (h : hop.responds = false) :
    silentRows begun n (hop :: hops) = silentRows (some (begun.getD n)) (n + 1) hops := by
  cases begun <;> simp [silentRows, h]

theorem silentRows_of_answered (h : hop.responds = true) :
    silentRows begun n (hop :: hops)
      = (begun.map fun start => ⟨start, n - 1⟩).toList ++ silentRows none (n + 1) hops := by
  cases begun <;> simp [silentRows, h]

/-- **One pass** finds the rows of silent hops. -/
theorem silentRuns_silentRows (hbegun : ∀ start ∈ begun, start < n) :
    SilentRuns (Pending begun n hops) (Numbered n hops fun hop => hop.responds = true)
      (silentRows begun n hops) := by
  induction hops generalizing begun n with
  | nil =>
    cases begun with
    | none => exact silentRuns_nil fun m => pending_none.not.mpr not_numbered_nil
    | some start =>
      -- the end of the trace ends the row
      have hstart : start < n := hbegun start rfl
      refine ⟨?_, List.pairwise_singleton _ _, fun m => ?_⟩
      · simp only [silentRows, List.mem_singleton, forall_eq]
        omega
      · rw [pending_some, or_iff_left not_numbered_nil]
        simp only [silentRows, List.mem_singleton, exists_eq_left, Segment.Holds]
        omega
  | cons hop hops ih =>
    have hahead : ∀ m, Numbered (n + 1) hops (fun hop => hop.responds = true) m →
        Numbered n (hop :: hops) (fun hop => hop.responds = true) m :=
      fun m hm => numbered_cons.mpr (.inr hm)
    cases hresponds : hop.responds with
    | false =>
      have hnext : ∀ start ∈ some (begun.getD n), start < n + 1 := by
        intro start hstart
        obtain rfl := Option.some.inj hstart
        cases begun with
        | none => exact Nat.lt_succ_self n
        | some start => exact Nat.lt_succ_of_lt (hbegun start rfl)
      rw [silentRows_of_silent hresponds]
      exact (ih hnext).of_iff (fun m => pending_cons_of_silent hbegun hresponds) hahead
    | true =>
      have hnone : ∀ start ∈ (none : Option Nat), start < n + 1 := nofun
      have hrest := (ih hnone).of_iff (fun m => pending_none) hahead
      have hsilent : ∀ m, Numbered n (hop :: hops) (fun hop => hop.responds = false) m
          ↔ Numbered (n + 1) hops (fun hop => hop.responds = false) m := by
        intro m
        rw [numbered_cons, hresponds]
        simp
      rw [silentRows_of_answered hresponds]
      cases begun with
      | none => exact hrest.of_iff (fun m => (hsilent m).symm.trans pending_none.symm) fun _ h => h
      | some start =>
        have hstart := hbegun start rfl
        have hrow : SilentRuns _ _ (⟨start, n - 1⟩ :: silentRows none (n + 1) hops) :=
          hrest.cons (Nat.le_sub_one_of_lt hstart) (Nat.sub_one_lt_of_lt hstart)
            (numbered_cons.mpr (.inl ⟨rfl, hresponds⟩)) fun m hm => le_of_numbered hm
        refine hrow.of_iff (fun m => ?_) fun _ h => h
        rw [pending_some, hsilent, Segment.Holds]
        exact or_congr_left (by simp only; omega)

end Pass

/-! ## 3. Texts -/

/-- A row can be read off its text. -/
theorem Segment.text_injective : Function.Injective Segment.text := by
  rintro ⟨first, last⟩ ⟨first', last'⟩ h
  obtain ⟨hfirst, rfl⟩ : "Hops " ++ toString first = "Hops " ++ toString first' ∧ last = last' :=
    (Text.append_toString_inj "-" rfl (by decide)).mp h
  rw [Nat.repr_injective ((String.append_right_inj "Hops ").mp hfirst)]

/-! ## 4. Losses that the end does not share -/

section Losses

variable [Scalar α]

/-- What is lost of a hop that limits the rate of its answers is too much for a last hop. -/
theorem not_clean_of_limited (h : Order.Comparable α)
    (hnumber : Order.isNumber (limitedLoss : α) = true)
    (hless : ¬ (limitedLoss : α) < cleanEndLoss) {loss : α} (hlimited : limitedLoss < loss) :
    ¬ loss < cleanEndLoss := by
  intro hclean
  rcases h.between hclean hnumber with hbad | hbad
  · exact h.asymm hlimited hbad
  · exact hless hbad

/-- A step is limited when it loses much on the way to an end that loses little. -/
theorem mem_rateLimitedHops {trace : Trace α} {m : Nat} :
    m ∈ rateLimitedHops trace ↔ (∃ last ∈ trace.hops.getLast?, last.loss < cleanEndLoss) ∧
      Numbered 1 trace.hops (fun hop => hop.responds = true ∧ limitedLoss < hop.loss) m := by
  rw [rateLimitedHops, mem_hopNumbers, endLoss]
  cases hlast : trace.hops.getLast? with
  | none =>
    rw [List.getLast?_eq_none_iff.mp hlast]
    exact ⟨fun h => absurd h not_numbered_nil, fun h => absurd h.2 not_numbered_nil⟩
  | some last =>
    simp only [isRateLimited, Bool.and_eq_true, decide_eq_true_eq, Option.map_some,
      Option.getD_some, Option.mem_def, Option.some.injEq, exists_eq_left', Numbered]
    constructor
    · rintro ⟨hop, hmem, hkind, hclean⟩
      exact ⟨hclean, hop, hmem, hkind⟩
    · rintro ⟨hclean, hop, hmem, hkind⟩
      exact ⟨hop, hmem, hkind, hclean⟩

/-- **The last hop** never limits the rate of its answers. -/
theorem length_notMem_rateLimitedHops (h : Order.Comparable α)
    (hnumber : Order.isNumber (limitedLoss : α) = true)
    (hless : ¬ (limitedLoss : α) < cleanEndLoss) (trace : Trace α) :
    trace.hops.length ∉ rateLimitedHops trace := by
  rw [mem_rateLimitedHops]
  rintro ⟨⟨last, hlast, hclean⟩, hop, hmem, -, hlimited⟩
  have hhop : trace.hops.getLast? = some hop := by
    obtain ⟨-, hget⟩ := List.mk_mem_zipIdx_iff_le_and_getElem?_sub.mp hmem
    rw [List.getLast?_eq_getElem?, hget]
  obtain rfl : hop = last := Option.some.inj (hhop.symm.trans hlast)
  exact not_clean_of_limited h hnumber hless hlimited hclean

end Losses

/-! ## 5. Main result -/

/-- **Artifacts of a trace.**  Its rows of silent hops are told in increasing order, as texts that
tell where they begin and end; no row is empty, any two have a hop between them that answered, and
every silent hop is in one.  The hops that limit the rate of their answers are told in increasing
order as well: those that answered and lost more than ten percent, when the last hop lost less than
one percent, and else none.  So the last hop is never among them. -/
theorem artifacts_of_trace (trace : Trace Float) :
    SilentRuns (Numbered 1 trace.hops fun hop => hop.responds = false)
        (Numbered 1 trace.hops fun hop => hop.responds = true) (silentSegments trace) ∧
      Function.Injective Segment.text ∧
      (rateLimitedHops trace).Pairwise (· < ·) ∧
      (∀ m, m ∈ rateLimitedHops trace ↔
        (∃ last ∈ trace.hops.getLast?, last.loss < cleanEndLoss) ∧
          Numbered 1 trace.hops (fun hop => hop.responds = true ∧ limitedLoss < hop.loss) m) ∧
      trace.hops.length ∉ rateLimitedHops trace := by
  have hruns : SilentRuns (Pending none 1 trace.hops) _ (silentSegments trace) :=
    silentRuns_silentRows nofun
  refine ⟨hruns.of_iff (fun m => pending_none) fun _ h => h, Segment.text_injective,
    hopNumbers_pairwise _ 1 trace.hops, fun m => mem_rateLimitedHops, ?_⟩
  exact length_notMem_rateLimitedHops Order.comparable_float (by decide +kernel) (by decide +kernel)
    trace

end PathAtlas.Analysis
