/-
# The range of floating point numbers

A quotient has no floating point number when the nearest one would be an infinity.  The greatest
finite number is `(2 ^ 53 - 1) · 2 ^ 971`, and what is nearer to it than to `2 ^ 1024` is still
rounded to it.  Halfway between the two the tie goes to the even side, which is out of range.  So
the range ends at `(2 ^ 54 - 1) · 2 ^ 970` (`quotientFloat?_eq_none_iff`).

The exponent that `scaleOf` finds puts a quotient between `2 ^ 52` and `2 ^ 53` units
(`lt_scaleOf`, `scaleOf_le`), and of these only the greatest, at the greatest exponent, is rounded
up out of range.
-/
import Mathlib.Algebra.Order.Field.Basic
import Mathlib.Data.Rat.Cast.Order
import Mathlib.Tactic.Linarith
import Mathlib.Tactic.NormNum
import Mathlib.Tactic.Positivity
import Mathlib.Tactic.Ring
import PathAtlas.Proofs.Decimal.Bits

namespace PathAtlas.Decimal

/-! ## 1. Rounding up -/

/-- What lies below an even number is rounded up to it from half a unit below it on. -/
theorem roundDiv_eq_iff {n d j : Nat} (hd : 0 < d) (hj : 0 < j) (h : n < 2 * j * d) :
    roundDiv n d = 2 * j ↔ (4 * j - 1) * d ≤ 2 * n := by
  have hn := Nat.div_add_mod n d
  have hr := Nat.mod_lt n hd
  have hq : n / d < 2 * j := (Nat.div_lt_iff_lt_mul hd).mpr h
  unfold roundDiv
  simp only
  generalize n / d = q at *
  generalize n % d = r at *
  subst hn
  rcases Nat.lt_or_ge (q + 1) (2 * j) with hlow | hlast
  · -- a whole unit is missing
    have hsmall : 2 * (d * q + r) < (4 * j - 1) * d := by
      have hstep : (2 * (q + 1)) * d ≤ (4 * j - 1) * d := Nat.mul_le_mul_right d (by omega)
      have hexpand : (2 * (q + 1)) * d = 2 * (d * q) + 2 * d := by ring
      omega
    refine iff_of_false ?_ (by omega)
    split
    · omega
    · split <;> omega
  · obtain rfl : q = 2 * j - 1 := by omega
    have hexpand : (4 * j - 1) * d = 2 * (d * (2 * j - 1)) + d := by
      obtain ⟨i, rfl⟩ : ∃ i, j = i + 1 := ⟨j - 1, by omega⟩
      rw [show 4 * (i + 1) - 1 = 4 * i + 3 by omega, show 2 * (i + 1) - 1 = 2 * i + 1 by omega]
      ring
    rw [hexpand]
    split
    · omega
    · split <;> omega

/-! ## 2. Units -/

/-- A quotient against so many units of a power of two. -/
theorem scaled_lt_iff {n d k : Nat} (hd : 0 < d) (e : Int) :
    n * 2 ^ (-e).toNat < k * (d * 2 ^ e.toNat) ↔ (n : Rat) / d < k * 2 ^ e := by
  have hd' : (0 : Rat) < d := by exact_mod_cast hd
  rw [div_lt_iff₀ hd']
  obtain ⟨m, rfl | rfl⟩ := e.eq_nat_or_neg
  · rw [show (-(m : Int)).toNat = 0 by omega, Int.toNat_natCast, zpow_natCast, pow_zero, mul_one,
      show (k : Rat) * 2 ^ m * d = ((k * (d * 2 ^ m) : Nat) : Rat) by push_cast; ring]
    exact Nat.cast_lt.symm
  · have hpow : (0 : Rat) < 2 ^ m := by positivity
    rw [neg_neg, Int.toNat_natCast, show (-(m : Int)).toNat = 0 by omega, pow_zero, mul_one,
      zpow_neg, zpow_natCast, mul_right_comm, ← div_eq_mul_inv, lt_div_iff₀ hpow]
    exact_mod_cast Iff.rfl

/-- The number of binary digits tells a quotient up to a factor of two. -/
theorem log2_bounds {n d : Nat} (hn : n ≠ 0) (hd : d ≠ 0) :
    (2 : Rat) ^ ((n.log2 : Int) - d.log2 - 1) < n / d ∧
      (n : Rat) / d < 2 ^ ((n.log2 : Int) - d.log2 + 1) := by
  have hd' : (0 : Rat) < d := by exact_mod_cast Nat.pos_of_ne_zero hd
  have hnlow : (2 : Rat) ^ (n.log2 : Int) ≤ n := by
    rw [zpow_natCast]
    exact_mod_cast Nat.log2_self_le hn
  have hnhigh : (n : Rat) < 2 ^ ((n.log2 : Int) + 1) := by
    exact_mod_cast (Nat.lt_log2_self (n := n))
  have hdlow : (2 : Rat) ^ (d.log2 : Int) ≤ d := by
    rw [zpow_natCast]
    exact_mod_cast Nat.log2_self_le hd
  have hdhigh : (d : Rat) < 2 ^ ((d.log2 : Int) + 1) := by
    exact_mod_cast (Nat.lt_log2_self (n := d))
  constructor
  · rw [lt_div_iff₀ hd']
    calc (2 : Rat) ^ ((n.log2 : Int) - d.log2 - 1) * d
        < 2 ^ ((n.log2 : Int) - d.log2 - 1) * 2 ^ ((d.log2 : Int) + 1) :=
          mul_lt_mul_of_pos_left hdhigh (zpow_pos (by norm_num) _)
      _ = 2 ^ (n.log2 : Int) := by
          rw [← zpow_add₀ (by norm_num)]
          congr 1
          ring
      _ ≤ n := hnlow
  · rw [div_lt_iff₀ hd']
    calc (n : Rat) < 2 ^ ((n.log2 : Int) + 1) := hnhigh
      _ = 2 ^ ((n.log2 : Int) - d.log2 + 1) * 2 ^ (d.log2 : Int) := by
          rw [← zpow_add₀ (by norm_num)]
          congr 1
          ring
      _ ≤ 2 ^ ((n.log2 : Int) - d.log2 + 1) * d :=
          mul_le_mul_of_nonneg_left hdlow (zpow_nonneg (by norm_num) _)

theorem two_zpow_add (k : Nat) (e : Int) : (2 : Rat) ^ ((k : Int) + e) = (2 ^ k : Nat) * 2 ^ e := by
  rw [zpow_add₀ (by norm_num), zpow_natCast]
  push_cast
  rfl

section Scale

variable {n d : Nat}

/-- The exponent before it is kept from falling below the least one. -/
theorem scaleOf_eq (hn : n ≠ 0) (hd : d ≠ 0) :
    ∃ e : Int, scaleOf n d = max (-1074) e ∧
      ((2 ^ 52 : Nat) : Rat) * 2 ^ e ≤ n / d ∧ (n : Rat) / d < ((2 ^ 53 : Nat) : Rat) * 2 ^ e := by
  obtain ⟨hlow, hhigh⟩ := log2_bounds hn hd
  have hpos := Nat.pos_of_ne_zero hd
  unfold scaleOf
  simp only
  rw [show Int.ofNat n.log2 - Int.ofNat d.log2 - 53 = (n.log2 : Int) - d.log2 - 53 from rfl]
  generalize hl : (n.log2 : Int) - d.log2 - 53 = low at *
  have hcond : n * 2 ^ (-low).toNat / (d * 2 ^ low.toNat) < 2 ^ 53
      ↔ (n : Rat) / d < ((2 ^ 53 : Nat) : Rat) * 2 ^ low := by
    rw [Nat.div_lt_iff_lt_mul (Nat.mul_pos hpos (Nat.two_pow_pos _)), scaled_lt_iff hpos]
  split
  · rename_i hlt
    refine ⟨low, rfl, ?_, hcond.mp hlt⟩
    rw [← two_zpow_add, show ((52 : Nat) : Int) + low = n.log2 - d.log2 - 1 by omega]
    exact hlow.le
  · rename_i hge
    refine ⟨low + 1, rfl, ?_, ?_⟩
    · have hge := not_lt.mp (hcond.not.mp hge)
      rw [← two_zpow_add] at hge ⊢
      rwa [show ((52 : Nat) : Int) + (low + 1) = (53 : Nat) + low by omega]
    · rw [← two_zpow_add, show ((53 : Nat) : Int) + (low + 1) = n.log2 - d.log2 + 1 by omega]
      exact hhigh

theorem lt_scaleOf (hn : n ≠ 0) (hd : d ≠ 0) :
    (n : Rat) / d < ((2 ^ 53 : Nat) : Rat) * 2 ^ scaleOf n d := by
  obtain ⟨e, he, -, hhigh⟩ := scaleOf_eq hn hd
  refine hhigh.trans_le ?_
  have hle : e ≤ scaleOf n d := he ▸ le_max_right _ _
  gcongr
  norm_num

theorem scaleOf_le (hn : n ≠ 0) (hd : d ≠ 0) (h : -1074 < scaleOf n d) :
    ((2 ^ 52 : Nat) : Rat) * 2 ^ scaleOf n d ≤ n / d := by
  obtain ⟨e, he, hlow, -⟩ := scaleOf_eq hn hd
  have heq : scaleOf n d = e := by omega
  exact heq ▸ hlow

/-- A quotient at its exponent, rounded, has at most `2 ^ 53` units. -/
theorem roundDiv_scaled_le (hn : n ≠ 0) (hd : d ≠ 0) :
    roundDiv (n * 2 ^ (-scaleOf n d).toNat) (d * 2 ^ (scaleOf n d).toNat) ≤ 2 ^ 53 := by
  have hpos := Nat.pos_of_ne_zero hd
  have hlt := (scaled_lt_iff hpos (scaleOf n d)).mpr (lt_scaleOf hn hd)
  have hq := (Nat.div_lt_iff_lt_mul (Nat.mul_pos hpos (Nat.two_pow_pos _))).mpr hlt
  unfold roundDiv
  simp only
  split
  · exact hq.le
  · split <;> omega

end Scale

/-! ## 3. The end of the range -/

/-- Where numbers begin to be rounded to an infinity. -/
def rangeEnd : Nat := (2 ^ 54 - 1) * 2 ^ 970

/-- A number that is put together is infinite only for the greatest significand at the greatest
exponent. -/
theorem isInf_compose {m : Nat} {e : Int} (hm : m ≤ 2 ^ 53) (he : -1074 ≤ e) (he' : e ≤ 971) :
    (compose m e).isInf = true ↔ e = 971 ∧ m = 2 ^ 53 := by
  obtain ⟨k, hk⟩ : ∃ k : Nat, e + 1074 = k := ⟨(e + 1074).toNat, by omega⟩
  have hword : (UInt64.ofNat ((e + 1074).toNat * 2 ^ 52 + m)).toNat = k * 2 ^ 52 + m := by
    rw [hk, Int.toNat_natCast, UInt64.toNat_ofNat']
    exact Nat.mod_eq_of_lt (by omega)
  rw [compose, isInf_ofBits, exponentField, fractionField, hword]
  omega

theorem rangeEnd_pos : 0 < rangeEnd := by
  unfold rangeEnd
  positivity

theorem cast_rangeEnd : (rangeEnd : Rat) = (2 ^ 54 - 1) * 2 ^ (970 : Int) := by
  rw [rangeEnd, Nat.cast_mul, Nat.cast_pow, ← zpow_natCast]
  norm_num

/-- At the greatest exponent, the quotients that are rounded up to `2 ^ 53` units are those out of
range. -/
theorem roundDiv_top_iff {n d : Nat} (hd : 0 < d) (h : n < 2 * 2 ^ 52 * (d * 2 ^ 971)) :
    roundDiv n (d * 2 ^ 971) = 2 ^ 53 ↔ rangeEnd * d ≤ n := by
  have hunits : 0 < d * 2 ^ 971 := by positivity
  have hdouble : (4 * 2 ^ 52 - 1) * (d * 2 ^ 971) = 2 * (rangeEnd * d) := by
    rw [rangeEnd, pow_succ 2 970]
    generalize 2 ^ 970 = p
    rw [show 4 * 2 ^ 52 - 1 = 2 ^ 54 - 1 by norm_num]
    ring
  rw [show 2 ^ 53 = 2 * 2 ^ 52 by norm_num, roundDiv_eq_iff hunits (by norm_num) h, hdouble]
  omega

/-- **The nearest number is infinite** from the end of the range on. -/
theorem isInf_nearest {n d : Nat} (hd : d ≠ 0) :
    (nearest n d).isInf = true ↔ rangeEnd * d ≤ n := by
  have hpos := Nat.pos_of_ne_zero hd
  have hd' : (0 : Rat) < d := by exact_mod_cast hpos
  have hratio : rangeEnd * d ≤ n ↔ (2 ^ 54 - 1) * (2 : Rat) ^ (970 : Int) ≤ n / d := by
    rw [le_div_iff₀ hd', ← cast_rangeEnd]
    exact_mod_cast Iff.rfl
  by_cases hn : n = 0
  · have hzero : (0.0 : Float).isInf = false := by decide +kernel
    have hfar : ¬ rangeEnd * d ≤ 0 := not_le.mpr (Nat.mul_pos rangeEnd_pos hpos)
    simp [nearest, hn, hzero, hfar]
  have hhigh := lt_scaleOf hn hd
  have hleast : -1074 ≤ scaleOf n d := le_max_left _ _
  have hround := roundDiv_scaled_le hn hd
  have hscale := (scaled_lt_iff (k := 2 ^ 53) hpos (scaleOf n d)).mpr hhigh
  have hlow := scaleOf_le hn hd
  have hpower : (0 : Rat) < 2 ^ (970 : Int) := zpow_pos (by norm_num) _
  unfold nearest
  simp only [beq_iff_eq, hn, if_false]
  generalize scaleOf n d = e at *
  rcases lt_trichotomy e 971 with he | rfl | he
  · -- the quotient lies below the power of two in front of the end
    rw [if_neg (by omega), isInf_compose hround hleast (by omega), hratio]
    refine iff_of_false (fun h => by omega) (not_le.mpr (hhigh.trans_le ?_))
    calc ((2 ^ 53 : Nat) : Rat) * 2 ^ e
        ≤ ((2 ^ 53 : Nat) : Rat) * 2 ^ (970 : Int) :=
          mul_le_mul_of_nonneg_left (zpow_le_zpow_right₀ (by norm_num) (by omega)) (by positivity)
      _ ≤ (2 ^ 54 - 1) * 2 ^ (970 : Int) := by
          refine mul_le_mul_of_nonneg_right ?_ hpower.le
          norm_num
  · rw [if_neg (by omega), isInf_compose hround hleast le_rfl]
    have htop : (971 : Int).toNat = 971 := rfl
    have hbelow : (-971 : Int).toNat = 0 := rfl
    rw [htop, hbelow, pow_zero, mul_one] at hscale ⊢
    simp only [true_and]
    exact roundDiv_top_iff hpos hscale
  · rw [if_pos he, hratio]
    refine iff_of_true (by decide +kernel) (le_trans ?_ (hlow (by omega)))
    calc (2 ^ 54 - 1) * (2 : Rat) ^ (970 : Int)
        ≤ 2 ^ 54 * 2 ^ (970 : Int) := mul_le_mul_of_nonneg_right (by norm_num) hpower.le
      _ = ((2 ^ 52 : Nat) : Rat) * 2 ^ (972 : Int) := by
          rw [show (972 : Int) = 2 + 970 by norm_num, zpow_add₀ (by norm_num), ← mul_assoc]
          norm_num
      _ ≤ ((2 ^ 52 : Nat) : Rat) * 2 ^ e :=
          mul_le_mul_of_nonneg_left (zpow_le_zpow_right₀ (by norm_num) (by omega)) (by positivity)

theorem isInf_nearestSigned (negative : Bool) (n d : Nat) :
    (nearestSigned negative n d).isInf = (nearest n d).isInf := by
  simp only [nearestSigned]
  split
  · exact isInf_neg _
  · rfl

/-- **A quotient is out of range** from the end of the range on. -/
theorem quotientFloat?_eq_none_iff {n d : Int} (hd : d ≠ 0) :
    quotientFloat? n d = none ↔ rangeEnd * d.natAbs ≤ n.natAbs := by
  rw [← isInf_nearest (Int.natAbs_ne_zero.mpr hd)]
  simp only [quotientFloat?, isInf_nearestSigned]
  split
  · rename_i h
    simp [h]
  · rename_i h
    simp [h]

/-- **A whole number is out of range** from the end of the range on. -/
theorem wholeFloat?_eq_none_iff {n : Int} : wholeFloat? n = none ↔ rangeEnd ≤ n.natAbs := by
  rw [wholeFloat?, quotientFloat?_eq_none_iff (by decide), Int.natAbs_one, mul_one]

end PathAtlas.Decimal
