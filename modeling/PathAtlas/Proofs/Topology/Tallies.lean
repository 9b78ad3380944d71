/-
# Statistics that are kept up to date

A tally takes in one sample at a time and keeps nothing of it but its figures.  Latency and loss of
a sample can each be missing, so two means with two numbers of values run side by side:

* the mean latency goes by the number of latencies and is the mean of all of them
  (`latency_ofSamples`);
* the mean loss goes by the number of ALL samples with a figure.  A sample with a latency alone then
  stands in for a loss: from then on it counts as if it had the mean so far.

The second is the mean of all losses as long as no sample that came without a loss stands before
another loss, or there is one loss only (`Gapless`).  Then the measured values have no say in it,
and otherwise there are some for which the mean is missed (`gapless_iff`).  What is kept stays
between the least and the greatest loss in any case (`loss_bounds`).
-/
import Mathlib.Tactic.FieldSimp
import Mathlib.Tactic.Linarith
import PathAtlas.Proofs.Means
import PathAtlas.Topology.Stats

namespace PathAtlas.Topology

variable {α : Type}

/-- Whether a sample has any figure. -/
def Sample.tells (sample : Sample α) : Bool := sample.latency.isSome || sample.loss.isSome

namespace Tally

/-! ## 1. One sample -/

section Steps

variable [Scalar α] (tally : Tally α) (s : Sample α)

theorem count_add : (tally.add s).count = tally.count + if s.tells then 1 else 0 := by
  obtain ⟨_ | y, _ | x⟩ := s <;> rfl

theorem latency_add :
    (tally.add s).latency = (s.latency.map tally.latency.add).getD tally.latency := by
  obtain ⟨_ | y, _ | x⟩ := s <;> rfl

theorem maxLoss_add : (tally.add s).maxLoss
    = (s.loss.map fun x => some ((tally.maxLoss.map fun old => Scalar.larger old x).getD x)).getD
        tally.maxLoss := by
  obtain ⟨_ | y, _ | x⟩ := s <;> rfl

theorem loss_add_of_none {s : Sample α} (h : s.loss = none) : (tally.add s).loss = tally.loss := by
  obtain ⟨_ | y, _ | x⟩ := s
  · rfl
  · cases h
  · rfl
  · cases h

/-- A loss is taken into the mean as one value of as many as there were samples with a figure. -/
theorem loss_add_of_some {s : Sample α} {x : α} (h : s.loss = some x) : (tally.add s).loss
    = some ((tally.loss.map fun old => Scalar.extendMean old (tally.count + 1) x).getD x) := by
  obtain ⟨_ | y, _ | x'⟩ := s <;> cases h <;> rfl

end Steps

/-! ## 2. All samples -/

section Runs

variable [Scalar α]

theorem ofSamples_concat (samples : List (Sample α)) (s : Sample α) :
    ofSamples (samples ++ [s]) = (ofSamples samples).add s := List.foldl_concat ..

theorem count_ofSamples (samples : List (Sample α)) :
    (ofSamples samples).count = samples.countP Sample.tells := by
  induction samples using List.reverseRecOn with
  | nil => rfl
  | append_singleton samples s ih =>
    rw [ofSamples_concat, count_add, ih, List.countP_append, List.countP_singleton]

/-- **The mean latency** is kept up to date by the latencies alone. -/
theorem latency_ofSamples (samples : List (Sample α)) :
    (ofSamples samples).latency = Scalar.runningMean (samples.filterMap Sample.latency) := by
  induction samples using List.reverseRecOn with
  | nil => rfl
  | append_singleton samples s ih =>
    rw [ofSamples_concat, latency_add, ih, List.filterMap_append]
    cases hs : s.latency with
    | none => simp [hs]
    | some y => simp [hs, Scalar.runningMean]

/-- Samples without a loss leave the mean loss as it is. -/
theorem loss_ofSamples_append {back : List (Sample α)} (h : ∀ s ∈ back, s.loss = none)
    (front : List (Sample α)) : (ofSamples (front ++ back)).loss = (ofSamples front).loss := by
  induction back using List.reverseRecOn with
  | nil => rw [List.append_nil]
  | append_singleton back s ih =>
    have hs : s.loss = none := h s (by simp)
    rw [← List.append_assoc, ofSamples_concat, loss_add_of_none _ hs]
    exact ih fun s hs => h s (by simp [hs])

/-- There is a mean loss when there is a loss. -/
theorem loss_ofSamples_eq_none (samples : List (Sample α)) :
    (ofSamples samples).loss = none ↔ samples.filterMap Sample.loss = [] := by
  induction samples using List.reverseRecOn with
  | nil => exact ⟨fun _ => rfl, fun _ => rfl⟩
  | append_singleton samples s ih =>
    rw [ofSamples_concat]
    cases hs : s.loss with
    | none => simp [loss_add_of_none _ hs, ih, hs]
    | some x => simp [loss_add_of_some _ hs, hs]

end Runs

/-! ## 3. Exact figures -/

theorem maxLoss_ofSamples (samples : List (Sample Rat)) :
    (ofSamples samples).maxLoss = (samples.filterMap Sample.loss).max? := by
  induction samples using List.reverseRecOn with
  | nil => rfl
  | append_singleton samples s ih =>
    rw [ofSamples_concat, maxLoss_add, ih, List.filterMap_append]
    cases hs : s.loss with
    | none => simp [hs]
    | some x => simp [hs, Scalar.max?_concat]

/-- **What is kept of the losses** lies between the least and the greatest of them. -/
theorem loss_bounds {samples : List (Sample Rat)} {lo hi : Rat}
    (h : ∀ x ∈ samples.filterMap Sample.loss, lo ≤ x ∧ x ≤ hi) :
    ∀ y ∈ (ofSamples samples).loss, lo ≤ y ∧ y ≤ hi := by
  induction samples using List.reverseRecOn with
  | nil => exact fun y hy => nomatch hy
  | append_singleton samples s ih =>
    have hall : ∀ x ∈ samples.filterMap Sample.loss, lo ≤ x ∧ x ≤ hi := fun x hx =>
      h x (by simp only [List.filterMap_append, List.mem_append, hx, true_or])
    rw [ofSamples_concat]
    cases hs : s.loss with
    | none =>
      rw [loss_add_of_none _ hs]
      exact ih hall
    | some x =>
      have hx : lo ≤ x ∧ x ≤ hi := h x (by simp [hs])
      rw [loss_add_of_some _ hs]
      intro y hy
      obtain rfl := Option.some.inj hy
      cases hold : (ofSamples samples).loss with
      | none => exact hx
      | some old =>
        obtain ⟨hlo, hhi⟩ := ih hall old hold
        have hn : (0 : Rat) ≤ (ofSamples samples).count := Nat.cast_nonneg _
        rw [Option.map_some, Option.getD_some, Scalar.extendMean_eq, le_div_iff₀ (by linarith),
          div_le_iff₀ (by linarith)]
        constructor <;> nlinarith

/-- Where every sample with a figure has a loss, there are as many losses as are counted. -/
theorem count_ofSamples_of_forall {samples : List (Sample Rat)}
    (h : ∀ s ∈ samples, s.tells = true → s.loss.isSome = true) :
    (ofSamples samples).count = (samples.filterMap Sample.loss).length := by
  rw [count_ofSamples, List.length_filterMap_eq_countP]
  refine List.countP_congr fun s hs => ⟨h s hs, fun hloss => ?_⟩
  simp [Sample.tells, hloss]

/-- ...and the mean loss is the mean of all losses. -/
theorem loss_ofSamples_of_forall {samples : List (Sample Rat)}
    (h : ∀ s ∈ samples, s.tells = true → s.loss.isSome = true) :
    (ofSamples samples).loss = Scalar.average? (samples.filterMap Sample.loss) := by
  induction samples using List.reverseRecOn with
  | nil => rfl
  | append_singleton samples s ih =>
    have hall : ∀ s ∈ samples, s.tells = true → s.loss.isSome = true := fun s hs =>
      h s (by simp [hs])
    rw [ofSamples_concat, List.filterMap_append]
    cases hs : s.loss with
    | none => simp [loss_add_of_none _ hs, ih hall, hs]
    | some x =>
      rw [loss_add_of_some _ hs, ih hall, count_ofSamples_of_forall hall,
        List.filterMap_cons_some hs, List.filterMap_nil, Scalar.average?_concat]

/-! ## 4. Gaps -/

/-- A list of samples without any loss, or its last loss and what stands before and behind it. -/
theorem lastLoss_cases (samples : List (Sample α)) :
    (∀ s ∈ samples, s.loss = none) ∨
      ∃ front last x back, samples = front ++ last :: back ∧ last.loss = some x ∧
        ∀ s ∈ back, s.loss = none := by
  induction samples using List.reverseRecOn with
  | nil => exact .inl fun s hs => nomatch hs
  | append_singleton samples s ih =>
    cases hs : s.loss with
    | some x => exact .inr ⟨samples, s, x, [], rfl, hs, fun s hs => nomatch hs⟩
    | none =>
      rcases ih with hnone | ⟨front, last, x, back, rfl, hlast, hback⟩
      · refine .inl fun s' hs' => ?_
        rcases List.mem_append.mp hs' with hs' | hs'
        · exact hnone s' hs'
        · exact List.mem_singleton.mp hs' ▸ hs
      · refine .inr ⟨front, last, x, back ++ [s], by simp, hlast, fun s' hs' => ?_⟩
        rcases List.mem_append.mp hs' with hs' | hs'
        · exact hback s' hs'
        · exact List.mem_singleton.mp hs' ▸ hs

variable {front back : List (Sample Rat)} {last : Sample Rat} {x : Rat}

theorem loss_at_last (hlast : last.loss = some x) (hback : ∀ s ∈ back, s.loss = none) :
    (ofSamples (front ++ last :: back)).loss
      = some (((ofSamples front).loss.map fun old =>
          Scalar.extendMean old (front.countP Sample.tells + 1) x).getD x) := by
  have hsplit : front ++ last :: back = (front ++ [last]) ++ back := by simp
  rw [hsplit, loss_ofSamples_append hback, ofSamples_concat, loss_add_of_some _ hlast,
    count_ofSamples]

theorem losses_at_last (hlast : last.loss = some x) (hback : ∀ s ∈ back, s.loss = none) :
    (front ++ last :: back).filterMap Sample.loss = front.filterMap Sample.loss ++ [x] := by
  rw [List.filterMap_append, List.filterMap_cons_some hlast, List.filterMap_eq_nil_iff.mpr hback]

end Tally

/-- No sample that comes without a loss stands before another loss, or there is one loss only. -/
def Gapless (samples : List (Sample α)) : Prop :=
  (samples.filterMap Sample.loss).length ≤ 1 ∨
    samples.Pairwise fun a b => b.loss.isSome = true → a.tells = true → a.loss.isSome = true

section Gaps

variable {front back : List (Sample Rat)} {last : Sample Rat} {x : Rat}

/-- Only what stands before the last loss can leave a gap. -/
theorem gapless_at_last (hlast : last.loss = some x) (hback : ∀ s ∈ back, s.loss = none) :
    Gapless (front ++ last :: back) ↔ front.filterMap Sample.loss = [] ∨
      ∀ s ∈ front, s.tells = true → s.loss.isSome = true := by
  rw [Gapless, Tally.losses_at_last hlast hback, List.length_append, List.length_singleton]
  refine or_congr ⟨fun h => List.length_eq_zero_iff.mp (by omega), fun h => by simp [h]⟩ ?_
  constructor
  · intro h s hs
    exact (List.pairwise_append.mp h).2.2 s hs last List.mem_cons_self (by simp [hlast])
  · intro h
    have hlater : ∀ a : Sample Rat, ∀ b ∈ back, b.loss.isSome = true → a.tells = true →
        a.loss.isSome = true := fun a b hb hsome => by simp [hback b hb] at hsome
    refine List.pairwise_append.mpr ⟨?_, List.pairwise_cons.mpr ⟨fun b hb => hlater last b hb, ?_⟩,
      fun a ha b _ _ => h a ha⟩
    · exact List.pairwise_of_forall_mem_list fun a ha b _ _ => h a ha
    · exact List.pairwise_of_forall_mem_list fun a _ b hb => hlater a b hb

/-- **Without a gap** the mean loss is the mean of all losses. -/
theorem Gapless.loss_ofSamples {samples : List (Sample Rat)} (h : Gapless samples) :
    (Tally.ofSamples samples).loss = Scalar.average? (samples.filterMap Sample.loss) := by
  rcases Tally.lastLoss_cases samples with hnone | ⟨front, last, x, back, rfl, hlast, hback⟩
  · have hlosses : samples.filterMap Sample.loss = [] := List.filterMap_eq_nil_iff.mpr hnone
    rw [hlosses]
    exact (Tally.loss_ofSamples_eq_none samples).mpr hlosses
  · rw [Tally.loss_at_last hlast hback, Tally.losses_at_last hlast hback, Scalar.average?_concat]
    rcases (gapless_at_last hlast hback).mp h with hfirst | hall
    · rw [(Tally.loss_ofSamples_eq_none front).mpr hfirst, hfirst]
      rfl
    · rw [Tally.loss_ofSamples_of_forall hall, ← Tally.count_ofSamples,
        Tally.count_ofSamples_of_forall hall]

/-! ## 5. Other values in the same places -/

def Sample.shape (sample : Sample α) : Bool × Bool := (sample.latency.isSome, sample.loss.isSome)

/-- Gaps are known from the shapes of the samples. -/
theorem gapless_iff_shapes (samples : List (Sample α)) :
    Gapless samples ↔ (samples.map Sample.shape).countP Prod.snd ≤ 1 ∨
      (samples.map Sample.shape).Pairwise fun a b => b.2 = true → (a.1 || a.2) = true →
        a.2 = true := by
  rw [Gapless, List.length_filterMap_eq_countP, List.countP_map, List.pairwise_map]
  rfl

/-- A sample with another value in the place of its loss, if it has one. -/
def Sample.withLoss (sample : Sample α) (x : α) : Sample α :=
  { sample with loss := sample.loss.map fun _ => x }

theorem shape_withLoss (s : Sample α) (x : α) : (s.withLoss x).shape = s.shape := by
  simp [Sample.shape, Sample.withLoss]

theorem tells_withLoss (s : Sample α) (x : α) : (s.withLoss x).tells = s.tells := by
  simp [Sample.tells, Sample.withLoss]

theorem losses_withLoss (samples : List (Sample α)) (x : α) :
    (samples.map (·.withLoss x)).filterMap Sample.loss
      = (samples.filterMap Sample.loss).map fun _ => x := by
  rw [List.filterMap_map, List.map_filterMap]
  rfl

/-- When there are as many losses as samples with a figure, each of those has a loss. -/
theorem forall_of_countP_eq {samples : List (Sample α)}
    (h : samples.countP Sample.tells = (samples.filterMap Sample.loss).length) :
    ∀ s ∈ samples, s.tells = true → s.loss.isSome = true := by
  have hcount : (samples.filter Sample.tells).countP (fun s => s.loss.isSome)
      = (samples.filter Sample.tells).length := by
    rw [← List.countP_eq_length_filter, h, List.length_filterMap_eq_countP, List.countP_filter]
    refine List.countP_congr fun s _ => ?_
    simp +contextual [Sample.tells]
  intro s hs htells
  exact List.countP_eq_length.mp hcount s (List.mem_filter.mpr ⟨hs, htells⟩)

/-- Of losses that are all nought the mean is nought, with or without gaps. -/
theorem loss_of_noughts {samples : List (Sample Rat)} (hne : samples.filterMap Sample.loss ≠ []) :
    (Tally.ofSamples (samples.map (·.withLoss 0))).loss = some 0 := by
  have hlosses := losses_withLoss samples (0 : Rat)
  cases hloss : (Tally.ofSamples (samples.map (·.withLoss 0))).loss with
  | none =>
    rw [Tally.loss_ofSamples_eq_none, hlosses, List.map_eq_nil_iff] at hloss
    exact absurd hloss hne
  | some y =>
    have hbounds : 0 ≤ y ∧ y ≤ 0 := Tally.loss_bounds (fun z hz => by
      rw [hlosses] at hz
      obtain ⟨_, -, rfl⟩ := List.mem_map.mp hz
      exact ⟨le_rfl, le_rfl⟩) y hloss
    rw [le_antisymm hbounds.2 hbounds.1]

theorem average?_of_noughts {xs : List Rat} (hne : xs ≠ []) :
    Scalar.average? (xs.map fun _ => (0 : Rat)) = some 0 := by
  rw [Scalar.average?, if_neg (by simpa using hne), List.sum_eq_zero, zero_div]
  intro z hz
  obtain ⟨_, -, rfl⟩ := List.mem_map.mp hz
  rfl

/-- **Behind a gap** the mean of noughts and a one is missed. -/
theorem gapless_of_forall {samples : List (Sample Rat)}
    (h : ∀ samples' : List (Sample Rat), samples'.map Sample.shape = samples.map Sample.shape →
      (Tally.ofSamples samples').loss = Scalar.average? (samples'.filterMap Sample.loss)) :
    Gapless samples := by
  rcases Tally.lastLoss_cases samples with hnone | ⟨front, last, x, back, rfl, hlast, hback⟩
  · exact .inl (by rw [List.filterMap_eq_nil_iff.mpr hnone]; exact Nat.zero_le 1)
  rw [gapless_at_last hlast hback]
  by_cases hfirst : front.filterMap Sample.loss = []
  · exact .inl hfirst
  refine .inr (forall_of_countP_eq ?_)
  have hone : (last.withLoss 1).loss = some 1 := by simp [Sample.withLoss, hlast]
  have hloss := h (front.map (·.withLoss 0) ++ last.withLoss 1 :: back) (by
    simp [Function.comp_def, shape_withLoss])
  have htells : (front.map (·.withLoss (0 : Rat))).countP Sample.tells
      = front.countP Sample.tells := by
    rw [List.countP_map]
    exact List.countP_congr fun s _ => by rw [Function.comp_apply, tells_withLoss]
  rw [Tally.loss_at_last hone hback, Tally.losses_at_last hone hback, loss_of_noughts hfirst,
    htells, losses_withLoss, Scalar.average?_concat, average?_of_noughts hfirst,
    List.length_map] at hloss
  -- the one is as much of either mean as there are values that the mean is taken of
  have hshare : (0 * front.countP Sample.tells + 1 : Rat) / (front.countP Sample.tells + 1)
      = (0 * (front.filterMap Sample.loss).length + 1)
          / ((front.filterMap Sample.loss).length + 1) := by
    simpa only [Option.map_some, Option.getD_some, Scalar.extendMean_eq] using Option.some.inj hloss
  have hparts : (front.countP Sample.tells + 1 : Rat)
      = (front.filterMap Sample.loss).length + 1 := by
    simpa only [zero_mul, zero_add, one_div, inv_inj] using hshare
  exact_mod_cast add_right_cancel hparts

/-- **A mean loss that is kept up to date** is the mean of all losses, whatever they are, just when
they leave no gap. -/
theorem gapless_iff {samples : List (Sample Rat)} :
    Gapless samples ↔
      ∀ samples' : List (Sample Rat), samples'.map Sample.shape = samples.map Sample.shape →
        (Tally.ofSamples samples').loss = Scalar.average? (samples'.filterMap Sample.loss) := by
  refine ⟨fun h samples' hshape => Gapless.loss_ofSamples ?_, gapless_of_forall⟩
  rwa [gapless_iff_shapes, hshape, ← gapless_iff_shapes]

end Gaps

/-! ## 6. Main result -/

/-- What is kept up to date of some samples, either figure of which may be missing. -/
structure KeptUp (samples : List (Sample Rat)) (stats : Stats Rat) : Prop where
  count : stats.count = samples.countP Sample.tells
  latency : stats.latency = Scalar.average? (samples.filterMap Sample.latency)
  maxLoss : stats.maxLoss = (samples.filterMap Sample.loss).max?
  loss_eq_none : stats.loss = none ↔ samples.filterMap Sample.loss = []
  loss_bounds : ∀ lo hi, (∀ x ∈ samples.filterMap Sample.loss, lo ≤ x ∧ x ≤ hi) →
    ∀ y ∈ stats.loss, lo ≤ y ∧ y ≤ hi
  loss : Gapless samples → stats.loss = Scalar.average? (samples.filterMap Sample.loss)

/-- **Statistics of samples.**  The count, the mean latency and the greatest loss are those of all
samples, and so is the mean loss where the samples leave no gap.  Where they leave one, the mean
loss is missed for some values in the same places. -/
theorem ofSamples_keptUp (samples : List (Sample Rat)) :
    KeptUp samples (Stats.ofSamples samples) ∧
      (Gapless samples ↔
        ∀ samples' : List (Sample Rat), samples'.map Sample.shape = samples.map Sample.shape →
          (Stats.ofSamples samples').loss = Scalar.average? (samples'.filterMap Sample.loss)) := by
  refine ⟨?_, gapless_iff⟩
  exact
    { count := Tally.count_ofSamples samples
      latency := by
        change (Tally.ofSamples samples).latency.mean = _
        rw [Tally.latency_ofSamples, Scalar.runningMean_eq]
      maxLoss := Tally.maxLoss_ofSamples samples
      loss_eq_none := Tally.loss_ofSamples_eq_none samples
      loss_bounds := fun lo hi h => Tally.loss_bounds h
      loss := Gapless.loss_ofSamples }

/-- A latency without a loss between two losses. -/
def gapped : List (Sample Rat) := [⟨none, some 10⟩, ⟨some 5, none⟩, ⟨none, some 20⟩]

/-- A latency alone between two losses weighs in the mean of the losses. -/
theorem loss_gapped :
    (Stats.ofSamples gapped).loss = some (40 / 3) ∧
      Scalar.average? (gapped.filterMap Sample.loss) = some 15 ∧
      ¬ ∀ samples : List (Sample Rat), (Stats.ofSamples samples).loss
        = Scalar.average? (samples.filterMap Sample.loss) := by
  have hkept : (Stats.ofSamples gapped).loss = some (40 / 3) := by decide +kernel
  have hmean : Scalar.average? (gapped.filterMap Sample.loss) = some 15 := by decide +kernel
  refine ⟨hkept, hmean, fun h => ?_⟩
  have hsame := h gapped
  rw [hkept, hmean] at hsame
  exact absurd (Option.some.inj hsame) (by norm_num)

end PathAtlas.Topology
