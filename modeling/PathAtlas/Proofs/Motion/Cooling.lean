/-
# Cooling down

Over the real numbers a step takes the heat a fixed share of the way to its target.  What is left of
the way shrinks by one factor between nought and one, so the heat comes as near to its target as one
likes and never passes it (`iterate_step`).

A run ends when the heat falls below the least one.  If the target lies below that, it has to
(`Cools.exists_settled`).  If the target does not, the heat never falls below it, and so it never
falls below the least one either (`Cools.not_settled`).  This rests on an invariant of everything
that can be done with a simulation: a target that is no lower than the least heat is no higher than
the heat (`Cools`), since such a target is only ever set together with the heat, and letting go sets
a target of nought.

Steps can fail for reasons that have nothing to do with heat, and a run ends with such a step.  With
settings that can be reckoned with (`Settings.Sound`) there are none.
-/
import PathAtlas.Proofs.Motion.Runs
import PathAtlas.Proofs.Reals

namespace PathAtlas.Motion

open PathAtlas.Topology PathAtlas.Layout

/-! ## 1. The way to the target -/

namespace Cooling

variable {c c' : Cooling ℝ} {least target q : ℝ}

/-- A heat that cools down: by a share of the way that leaves a part of it, and from above where the
target is no lower than the least heat. -/
structure Cools (least : ℝ) (c : Cooling ℝ) : Prop where
  real : c.lost = false
  least_eq : c.least = least
  share : ∃ q ∈ Set.Ioo (0 : ℝ) 1, c.decay = some (1 - q)
  above : least ≤ c.target → c.target ≤ c.alpha

theorem step_eq (h : c.decay = some (1 - q)) :
    c.step = { c with alpha := c.target + (c.alpha - c.target) * q } := by
  have halpha : c.alpha + (c.target - c.alpha) * (1 - q)
      = c.target + (c.alpha - c.target) * q := by ring
  simp only [step, h, halpha]

/-- **After some steps** the way to the target has shrunk by as many factors. -/
theorem iterate_step (h : c.decay = some (1 - q)) (n : Nat) :
    step^[n] c = { c with alpha := c.target + (c.alpha - c.target) * q ^ n } := by
  induction n with
  | zero => simp
  | succ n ih =>
    have hdecay : ({ c with alpha := c.target + (c.alpha - c.target) * q ^ n } : Cooling ℝ).decay
        = some (1 - q) := h
    rw [Function.iterate_succ_apply', ih, step_eq hdecay]
    simp only [add_sub_cancel_left, pow_succ, mul_assoc]

theorem settled_iff : c.settled = true ↔ c.alpha < c.least := decide_eq_true_iff

theorem reheat_eq (h : c.lost = false) (target : ℝ) :
    c.reheat target = (.ok (), { c with target, alpha := max c.alpha target }) := by
  rw [Simulation.reheat_of_real h, max_def_lt]

/-- Full heat cools down by the share that a root of the least heat leaves. -/
theorem Cools.start (hpos : 0 < least) (hlt : least < 1) : Cools least (start least) where
  real := rfl
  least_eq := rfl
  share := by
    have hexponent : (0 : ℝ) < ((1 : Int) : ℝ) / ((300 : Int) : ℝ) := by norm_num
    refine ⟨least ^ (((1 : Int) : ℝ) / ((300 : Int) : ℝ)),
      ⟨Real.rpow_pos_of_pos hpos _, Real.rpow_lt_one hpos.le hlt hexponent⟩, ?_⟩
    have hzero : decide (least < Scalar.zero) = false := by
      rw [Scalar.zero_real]
      exact decide_eq_false hpos.le.not_gt
    simp only [Cooling.start, share?, hzero, Bool.false_and, Bool.false_eq_true, if_false,
      Scalar.fraction_real, Scalar.ofInt_real, Int.cast_one]
    rfl
  above h := by
    have hzero : least ≤ 0 := Scalar.zero_real ▸ h
    exact absurd hpos hzero.not_gt

theorem Cools.step (h : Cools least c) : Cools least c.step := by
  obtain ⟨q, hq, hdecay⟩ := h.share
  rw [step_eq hdecay]
  refine ⟨h.real, h.least_eq, ⟨q, hq, hdecay⟩, fun hle => ?_⟩
  have := mul_nonneg (sub_nonneg.mpr (h.above hle)) hq.1.le
  exact le_add_of_nonneg_right this

theorem Cools.reheat (h : Cools least c) (target : ℝ) : Cools least (c.reheat target).2 := by
  rw [reheat_eq h.real]
  exact ⟨h.real, h.least_eq, h.share, fun _ => le_max_right _ _⟩

theorem Cools.relax (hpos : 0 < least) (h : Cools least c) : Cools least c.relax := by
  refine ⟨h.real, h.least_eq, h.share, fun hle => ?_⟩
  have hzero : least ≤ 0 := Scalar.zero_real ▸ hle
  exact absurd hpos hzero.not_gt

/-- **A target below the least heat** brings the heat down to it. -/
theorem Cools.exists_settled (h : Cools least c) (hlt : c.target < least) :
    ∃ n ≠ 0, (Cooling.step^[n] c).settled = true := by
  obtain ⟨q, hq, hdecay⟩ := h.share
  obtain ⟨n, hn⟩ : ∃ n, (c.alpha - c.target) * q ^ (n + 1) < least - c.target := by
    rcases le_or_gt c.alpha c.target with hle | hgt
    · refine ⟨0, lt_of_le_of_lt ?_ (sub_pos.mpr hlt)⟩
      exact mul_nonpos_of_nonpos_of_nonneg (sub_nonpos.mpr hle) (pow_nonneg hq.1.le _)
    · have hway := sub_pos.mpr hgt
      obtain ⟨n, hn⟩ := exists_pow_lt_of_lt_one (div_pos (sub_pos.mpr hlt) hway) hq.2
      have hnext : q ^ (n + 1) < (least - c.target) / (c.alpha - c.target) :=
        (pow_le_pow_of_le_one hq.1.le hq.2.le n.le_succ).trans_lt hn
      exact ⟨n, by rwa [lt_div_iff₀' hway] at hnext⟩
  refine ⟨n + 1, n.succ_ne_zero, ?_⟩
  rw [iterate_step hdecay, settled_iff, h.least_eq]
  show c.target + (c.alpha - c.target) * q ^ (n + 1) < least
  linarith

/-- **A target as high as the least heat** keeps the heat above it. -/
theorem Cools.not_settled (h : Cools least c) (hle : least ≤ c.target) (n : Nat) :
    (Cooling.step^[n] c).settled = false := by
  obtain ⟨q, hq, hdecay⟩ := h.share
  rw [← Bool.not_eq_true, iterate_step hdecay, settled_iff, h.least_eq, not_lt]
  have := mul_nonneg (sub_nonneg.mpr (h.above hle)) (pow_nonneg hq.1.le n)
  exact hle.trans (le_add_of_nonneg_right this)

end Cooling

/-! ## 2. Settings that can be reckoned with -/

/-- All settings are numbers, and links have no length below nought. -/
structure Settings.Sound (settings : Settings ℝ) : Prop where
  link : ∃ k, settings.linkLength = .ok k ∧ 0 ≤ k
  distance : ¬ Fails settings.leastDistance
  center : ∃ x y, settings.center = .ok (x, y) ∧ ¬ Fails (x.quantity "-") ∧ ¬ Fails (y.quantity "-")
  strength : ¬ Fails (settings.centerStrength.quantity "*")
  kept : ¬ Fails settings.velocityKept

/-- The standard settings can be reckoned with. -/
theorem Settings.sound_standard : (standard : Settings ℝ).Sound where
  link := ⟨(60 : Int), rfl, Int.cast_nonneg (by decide)⟩
  distance := not_fails_ok _
  center := ⟨_, _, rfl, not_fails_ok _, not_fails_ok _⟩
  strength := not_fails_ok _
  kept := not_fails_ok _

section Sound

variable {settings : Settings ℝ} {k alpha : ℝ} {bodies : List (Body ℝ)} {places : Table (ℝ × ℝ)}

/-- Only a link of negative length could be longer than a step without length. -/
theorem not_fails_shorten (hk : 0 ≤ k) (dx dy : ℝ) : ¬ Fails (shorten k dx dy) := by
  unfold shorten
  simp only
  split
  · rename_i hlt
    have hne : Planar.hypot dx dy ≠ 0 := (hk.trans_lt hlt).ne'
    rw [if_neg (by simpa [Scalar.isZero, Scalar.zero_real] using hne)]
    exact not_fails_ok _
  · exact not_fails_ok _

theorem not_fails_pullBody (hk : 0 ≤ k) (body : Body ℝ) :
    ¬ Fails (pullBody k alpha places body) := by
  unfold pullBody
  split
  · exact not_fails_ok _
  · simp [not_fails_shorten hk]

theorem pullAll_ok (hk : 0 ≤ k) (bodies : List (Body ℝ)) :
    (pullAll k alpha places bodies).1 = .ok () := by
  induction bodies with
  | nil => rfl
  | cons body rest ih =>
    have hpulled : ¬ Fails (pullBody k alpha places body) := not_fails_pullBody hk body
    obtain ⟨body', hbody⟩ := not_fails_iff.mp hpulled
    rw [pullAll, hbody]
    exact ih

namespace Settings.Sound

theorem applySprings_ok (h : settings.Sound) : (applySprings settings alpha bodies).1 = .ok () := by
  obtain ⟨k, hlink, hk⟩ := h.link
  rw [applySprings]
  split
  · rfl
  · rw [hlink]
    exact pullAll_ok hk bodies

/-- Nothing fails after the springs when the settings can be reckoned with. -/
theorem not_fails_moveAll (h : settings.Sound) : ¬ Fails (moveAll settings alpha bodies) := by
  obtain ⟨x, y, hcenter, hx, hy⟩ := h.center
  have hcollide : ¬ Fails (applyCollide settings bodies) := by
    unfold applyCollide
    split
    · exact not_fails_ok _
    · simp [h.distance]
  have hcenter : ∀ bodies, ¬ Fails (applyCenter settings alpha bodies) := by
    intro bodies
    simp [applyCenter, hcenter, Body.centered, hx, hy, h.strength]
  have hmove : ∀ body, ¬ Fails (Body.move settings body) := by
    intro body
    unfold Body.move
    split
    · exact not_fails_ok _
    · simp [h.kept]
  simp [moveAll, hcollide, hcenter, hmove]

/-- **A step does not fail** with settings that can be reckoned with, unless the heat is lost. -/
theorem advance_ok {s : Simulation ℝ} (h : s.settings.Sound) (hreal : s.cooling.step.lost = false) :
    ∃ goesOn, s.advance.1 = .ok goesOn := by
  have hsprung : (applySprings s.settings s.cooling.step.alpha s.bodies).1 = .ok () :=
    h.applySprings_ok
  have hall : ¬ Fails (moveAll s.settings s.cooling.step.alpha
      (applySprings s.settings s.cooling.step.alpha s.bodies).2) := h.not_fails_moveAll
  obtain ⟨moved, hmoved⟩ := not_fails_iff.mp hall
  have hsplit : applySprings s.settings s.cooling.step.alpha s.bodies
      = (.ok (), (applySprings s.settings s.cooling.step.alpha s.bodies).2) :=
    Prod.ext hsprung rfl
  rw [Simulation.advance, hsplit]
  simp only [hreal, Bool.false_eq_true, if_false, hmoved]
  split
  · exact ⟨false, rfl⟩
  · exact ⟨true, rfl⟩

end Settings.Sound

end Sound

/-! ## 3. Simulations -/

namespace Simulation

variable {settings : Settings ℝ} {s : Simulation ℝ} {least : ℝ}

/-- **Whatever is done** with a simulation, its heat cools down. -/
theorem cools_after (hpos : 0 < settings.alphaMin) (hlt : settings.alphaMin < 1) (g : Graph ℝ)
    (starts : Positions ℝ) (pinned : List String) (acts : List (Act ℝ)) :
    Cooling.Cools settings.alphaMin (after acts (create settings g starts pinned)).cooling :=
  after_keeps (P := fun s => Cooling.Cools settings.alphaMin s.cooling)
    (fun act h => perform_keeps_cooling (P := Cooling.Cools settings.alphaMin) (fun h => h.step)
      (fun target h => h.reheat target) (fun h => h.relax hpos) act h)
    (Cooling.Cools.start hpos hlt) acts

theorem exists_ends (h : Cooling.Cools least s.cooling) (hlt : s.cooling.target < least) :
    ∃ n r, Ends s n r := by
  obtain ⟨n, hn, hsettled⟩ := h.exists_settled hlt
  rcases ends_or_lasts s n with ⟨k, -, r, hends⟩ | ⟨s', hlasts⟩
  · exact ⟨k, r, hends⟩
  · have hgoes := hlasts.settled hn
    rw [hlasts.cooling, hsettled] at hgoes
    cases hgoes

theorem target_lt_of_ends (h : Cooling.Cools least s.cooling) {n : Nat}
    {r : Except Fault Unit × Simulation ℝ} (hends : Ends s n r) (hok : r.1 = .ok ()) :
    s.cooling.target < least := by
  by_contra hge
  have hsettled := hends.settled hok
  rw [hends.cooling, h.not_settled (not_lt.mp hge)] at hsettled
  cases hsettled

theorem settings_advance (s : Simulation ℝ) : s.advance.2.settings = s.settings := by
  have hsteps := s.stepsTo_advance
  generalize s.advance = r at hsteps
  cases hsteps <;> rfl

/-- A run does not fail with settings that can be reckoned with. -/
theorem ends_ok_of_sound (h : Cooling.Cools least s.cooling) (hsound : s.settings.Sound) {n : Nat}
    {r : Except Fault Unit × Simulation ℝ} (hends : Ends s n r) : r.1 = .ok () := by
  induction hends with
  | settles last => rfl
  | fails last =>
    obtain ⟨goesOn, hok⟩ := hsound.advance_ok h.step.real
    rw [last] at hok
    cases hok
  | @step s s' n r first _ ih =>
    refine ih ?_ ?_
    · have hcooling := cooling_advance s
      rw [first] at hcooling
      exact hcooling ▸ h.step
    · have hsettings := settings_advance s
      rw [first] at hsettings
      exact hsettings ▸ hsound

/-- How a simulation cools down to a least heat. -/
structure CoolsDown (least : ℝ) (s : Simulation ℝ) : Prop where
  decay : ∃ decay ∈ Set.Ioo (0 : ℝ) 1, s.cooling.decay = some decay
  /-- A run without a limit takes finitely many steps, and comes to what they come to. -/
  run_none : ∀ r, (s.runOut = some r ↔ ∃ n, Ends s n r) ∧ (s.runOut = some r → s.run none = r)
  /-- It is over at some time when the target lies below the least heat, or with a fault. -/
  ends_iff : (∃ r, s.runOut = some r) ↔
    s.cooling.target < least ∨ ∃ n fault s', Ends s n (.error fault, s')
  /-- There are no faults when the settings can be reckoned with. -/
  sound : s.settings.Sound → ((∃ r, s.runOut = some r) ↔ s.cooling.target < least) ∧
    ∀ r, s.runOut = some r → r.1 = .ok ()
  /-- A run with a limit takes no more steps than that, and none when the limit is negative. -/
  run_some : ∀ limit : Int, ∃ n : Nat, n ≤ max limit 0 ∧ (Ends s n (s.run (some limit)) ∨
    n = max limit 0 ∧ (s.run (some limit)).1 = .ok () ∧ Lasts s n (s.run (some limit)).2)
  /-- A step brings the heat nearer to the target, and not past it. -/
  tick : s.tick.2.cooling.target = s.cooling.target ∧
    (s.cooling.target < s.cooling.alpha →
      s.tick.2.cooling.alpha ∈ Set.Ioo s.cooling.target s.cooling.alpha) ∧
    (s.cooling.alpha < s.cooling.target →
      s.tick.2.cooling.alpha ∈ Set.Ioo s.cooling.alpha s.cooling.target) ∧
    (s.cooling.alpha = s.cooling.target → s.tick.2.cooling.alpha = s.cooling.target)
  restart : ∀ target, ∃ s', s.restart target = .ok s' ∧ s'.cooling.target = target ∧
    s.cooling.alpha ≤ s'.cooling.alpha ∧ target ≤ s'.cooling.alpha

theorem run_some_cases (halive : s.destroyed = false) (limit : Int) :
    ∃ n : Nat, n ≤ max limit 0 ∧ (Ends s n (s.run (some limit)) ∨
      n = max limit 0 ∧ (s.run (some limit)).1 = .ok () ∧ Lasts s n (s.run (some limit)).2) := by
  rw [run_some halive]
  rcases advanceUpTo_cases limit.toNat s with ⟨n, hn, hends⟩ | ⟨hok, hlasts⟩
  · exact ⟨n, by omega, .inl hends⟩
  · exact ⟨limit.toNat, by omega, .inr ⟨by omega, hok, hlasts⟩⟩

/-- A step brings the heat nearer to the target, and not past it. -/
theorem tick_nears (h : Cooling.Cools least s.cooling) (halive : s.destroyed = false) :
    s.tick.2.cooling.target = s.cooling.target ∧
      (s.cooling.target < s.cooling.alpha →
        s.tick.2.cooling.alpha ∈ Set.Ioo s.cooling.target s.cooling.alpha) ∧
      (s.cooling.alpha < s.cooling.target →
        s.tick.2.cooling.alpha ∈ Set.Ioo s.cooling.alpha s.cooling.target) ∧
      (s.cooling.alpha = s.cooling.target → s.tick.2.cooling.alpha = s.cooling.target) := by
  obtain ⟨q, ⟨hpos, hlt⟩, hdecay⟩ := h.share
  rw [tick_eq halive, cooling_advance, Cooling.step_eq hdecay]
  refine ⟨rfl, fun hgt => ⟨?_, ?_⟩, fun hless => ⟨?_, ?_⟩, fun heq => ?_⟩
  · exact lt_add_of_pos_right _ (mul_pos (sub_pos.mpr hgt) hpos)
  · have := mul_lt_of_lt_one_right (sub_pos.mpr hgt) hlt
    show s.cooling.target + (s.cooling.alpha - s.cooling.target) * q < s.cooling.alpha
    linarith
  · have := mul_lt_of_lt_one_right (sub_pos.mpr hless) hlt
    show s.cooling.alpha < s.cooling.target + (s.cooling.alpha - s.cooling.target) * q
    linarith
  · exact add_lt_of_neg_right _ (mul_neg_of_neg_of_pos (sub_neg.mpr hless) hpos)
  · simp [heq]

theorem restart_heats (h : Cooling.Cools least s.cooling) (halive : s.destroyed = false)
    (target : ℝ) : ∃ s', s.restart target = .ok s' ∧ s'.cooling.target = target ∧
      s.cooling.alpha ≤ s'.cooling.alpha ∧ target ≤ s'.cooling.alpha := by
  obtain ⟨s', hs'⟩ : ∃ s', s.restart target = .ok s' := restart_ok halive h.real
  refine ⟨s', hs', ?_⟩
  rw [(heatUp_eq_ok (restart_eq_ok.mp hs')).2, Cooling.reheat_eq h.real]
  exact ⟨rfl, le_max_left _ _, le_max_right _ _⟩

/-- **Cooling down.**  Whatever was done with a simulation short of ending it, a run without a limit
ends just when the target lies below the least heat, apart from steps that fail. -/
theorem coolsDown_after (hpos : 0 < settings.alphaMin) (hlt : settings.alphaMin < 1) (g : Graph ℝ)
    (starts : Positions ℝ) (pinned : List String) (acts : List (Act ℝ))
    (hacts : .destroy ∉ acts) :
    CoolsDown settings.alphaMin (after acts (create settings g starts pinned)) := by
  have h := cools_after hpos hlt g starts pinned acts
  have halive := (endures_after hacts (create settings g starts pinned)).alive rfl
  generalize after acts (create settings g starts pinned) = s at h halive
  have hruns : s.cooling.target < settings.alphaMin → ∃ r, s.runOut = some r := by
    intro htarget
    obtain ⟨n, r, hends⟩ := exists_ends h htarget
    exact ⟨r, runOut_eq_some_iff.mpr ⟨n, hends⟩⟩
  refine
    { decay := ?_
      run_none := fun r => ⟨runOut_eq_some_iff, fun hr => ?_⟩
      ends_iff := ⟨?_, ?_⟩
      sound := fun hsound => ⟨⟨?_, hruns⟩, fun r hr => ?_⟩
      run_some := run_some_cases halive
      tick := tick_nears h halive
      restart := restart_heats h halive }
  · obtain ⟨q, ⟨hq, hq'⟩, hdecay⟩ := h.share
    exact ⟨1 - q, ⟨sub_pos.mpr hq', sub_lt_self 1 hq⟩, hdecay⟩
  · obtain ⟨n, hends⟩ := runOut_eq_some_iff.mp hr
    exact run_of_ends halive hends
  · rintro ⟨⟨outcome, s'⟩, hr⟩
    obtain ⟨n, hends⟩ := runOut_eq_some_iff.mp hr
    cases outcome with
    | ok _ => exact .inl (target_lt_of_ends h hends rfl)
    | error fault => exact .inr ⟨n, fault, s', hends⟩
  · rintro (htarget | ⟨n, fault, s', hends⟩)
    · exact hruns htarget
    · exact ⟨_, runOut_eq_some_iff.mpr ⟨n, hends⟩⟩
  · rintro ⟨r, hr⟩
    obtain ⟨n, hends⟩ := runOut_eq_some_iff.mp hr
    exact target_lt_of_ends h hends (ends_ok_of_sound h hsound hends)
  · obtain ⟨n, hends⟩ := runOut_eq_some_iff.mp hr
    exact ends_ok_of_sound h hsound hends

noncomputable def couple : Graph ℝ :=
  { nodes :=
      [⟨"a", .text "a", {}, [], .unknown, .agent "1"⟩,
        ⟨"b", .text "b", {}, [], .unknown, .hop none .null 1 none []⟩]
    edges := [⟨edgeId "a" "b", "a", "b", 0, 1, {}, [], .unknown⟩]
    paths := []
    generatedAt := Scalar.zero }

/-- A node is dragged and let go, and the simulation heated up meanwhile. -/
noncomputable def hands : List (Act ℝ) :=
  [.tick, .dragStart "b", .dragTo "b" (Scalar.ofInt 30) (Scalar.ofInt 40), .tick,
    .restart (Scalar.fraction 1 2), .dragEnd "b" true]

theorem coolsDown_after_hands :
    (0 < (Settings.standard : Settings ℝ).alphaMin ∧ (Settings.standard : Settings ℝ).alphaMin < 1 ∧
        .destroy ∉ hands) ∧
      CoolsDown (Settings.standard : Settings ℝ).alphaMin
        (after hands (create .standard couple [] [])) := by
  have hleast : (Settings.standard : Settings ℝ).alphaMin = 1 / 1000 := by
    show Scalar.fraction 1 1000 = (1 : ℝ) / 1000
    rw [Scalar.fraction_real]
    norm_num
  have hpos : 0 < (Settings.standard : Settings ℝ).alphaMin := by
    rw [hleast]
    norm_num
  have hlt : (Settings.standard : Settings ℝ).alphaMin < 1 := by
    rw [hleast]
    norm_num
  have hacts : .destroy ∉ hands := by simp [hands]
  exact ⟨⟨hpos, hlt, hacts⟩, coolsDown_after hpos hlt couple [] [] hands hacts⟩

end Simulation

end PathAtlas.Motion
