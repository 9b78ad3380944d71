/-
# Minus one times a number

A word spells a number in one form only: with as many bits in its mantissa as there is room for, or
with the least exponent that there is (`canonical_unpack`).  A product with a power of two has the
same mantissa with noughts behind it.  Rounding takes these away again and nothing else
(`roundWithAccuracy_scaled`), at the lower end of the range too, so that minus one times a number
is the number with the other sign and no digit of it is lost (`ofInt_neg_one_mul`).

Drawing a picture takes minus one times a height, since heights grow upwards there, and this is
what makes the two directions agree for every number, infinities and NaN included.
-/
import PathAtlas.Proofs.Decimal.Bits

namespace PathAtlas.Decimal

open Float.Model (Format UnpackedFloat totalExponent)
open Float.Model.UnpackedFloat

/-! ## 1. The form of a number -/

/-- A mantissa of 53 bits, or one of fewer with the least exponent. -/
def Settled (m : Nat) (e : Int) : Prop := max (m.log2 + e - 52) (-1074) = e

/-- A number as a word spells it. -/
def Canonical : UnpackedFloat → Prop
  | .finite _ m e _ => Settled m e
  | _ => True

theorem log2_normal {m : Nat} (hm : m < 2 ^ 52) : (2 ^ 52 + m).log2 = 52 :=
  (Nat.log2_eq_iff (by omega)).mpr (by omega)

theorem toNat_leading_append (w : UInt64) :
    (1#1 ++ @unpackMantissa Format.binary64 w.toBitVec).toNat = 2 ^ 52 + fractionField w := by
  have hfraction : fractionField w < 2 ^ 52 := Nat.mod_lt _ (by decide)
  rw [BitVec.toNat_append, toNat_unpackMantissa, ← Nat.shiftLeft_add_eq_or_of_lt hfraction]
  rfl

/-- **A word spells a number** in its form. -/
theorem canonical_unpack (w : UInt64) : Canonical (unpack Format.binary64 w.toBitVec) := by
  have hfraction : fractionField w < 2 ^ 52 := Nat.mod_lt _ (by decide)
  unfold unpack
  simp only
  split
  · split <;> trivial
  · split
    · rename_i hexponent
      split
      · trivial
      · rename_i hne
        have hlog : (fractionField w).log2 < 52 :=
          (Nat.log2_lt ((unpackMantissa_eq_iff w).not.mp hne)).mpr hfraction
        simp only [Canonical, Settled, hexponent, toNat_unpackMantissa, Format.exponentBias]
        rw [BitVec.toNat_ofNat, Nat.zero_mod]
        omega
    · rename_i hexponent
      have hpos : exponentField w ≠ 0 := by
        rw [← toNat_unpackExponent]
        exact fun h => hexponent (BitVec.eq_of_toNat_eq h)
      simp only [Canonical, Settled, toNat_unpackExponent, Format.exponentBias]
      rw [toNat_leading_append, log2_normal hfraction]
      omega

/-! ## 2. Noughts behind a mantissa -/

theorem targetExponent_eq (m : Nat) (e : Int) :
    Format.binary64.targetExponent (totalExponent m e) = max (m.log2 + e - 52) (-1074) := by
  simp only [Format.targetExponent, totalExponent, Format.mantissaBits, Format.minExponent]
  omega

theorem log2_scaled {m : Nat} (hm : m ≠ 0) (n : Nat) : (2 ^ n * m).log2 = n + m.log2 := by
  have hscaled : 2 ^ n * m ≠ 0 := Nat.mul_ne_zero (Nat.two_pow_pos n).ne' hm
  rw [Nat.log2_eq_iff hscaled, Nat.pow_add, Nat.add_assoc, Nat.pow_add]
  exact ⟨Nat.mul_le_mul_left _ (Nat.log2_self_le hm),
    Nat.mul_lt_mul_of_pos_left Nat.lt_log2_self (Nat.two_pow_pos n)⟩

theorem shiftRight_scaled (n m : Nat) :
    (⟨2 ^ n * m, false, false⟩ : ExtendedMantissa) >>> n = ⟨m, false, false⟩ := by
  change n.repeat ExtendedMantissa.shiftRightOne _ = _
  induction n generalizing m with
  | zero => simp [Nat.repeat]
  | succ n ih =>
    rw [Nat.pow_succ, Nat.mul_assoc, Nat.repeat, ih]
    simp [ExtendedMantissa.shiftRightOne]

variable {m : Nat} {e : Int}

/-- A significand that was scaled up by a power of two goes back without a loss. -/
theorem shiftToTargetExponent_scaled (hm : m ≠ 0) (h : Settled m e) (n : Nat) :
    shiftToTargetExponent Format.binary64 (2 ^ n * m) (e - n) .exact
      = (⟨m, false, false⟩, e) := by
  have htarget : Format.binary64.targetExponent (totalExponent (2 ^ n * m) (e - n)) = e := by
    rw [targetExponent_eq, log2_scaled hm]
    unfold Settled at h
    omega
  have hshift : (e - (e - n)).toNat = n := by omega
  simp only [shiftToTargetExponent, shiftToExponent, htarget, hshift]
  exact Prod.ext (shiftRight_scaled n m) (Int.sub_add_cancel e n)

/-- **Rounding** takes away the noughts behind the mantissa of a number in its form. -/
theorem roundWithAccuracy_scaled (hm : 0 < m) (h : Settled m e) (n : Nat) (s : Sign) :
    roundWithAccuracy Format.binary64 s (2 ^ n * m) (e - n) .exact = .finite s m e hm := by
  have hagain := shiftToTargetExponent_scaled hm.ne' h 0
  simp only [Nat.pow_zero, Nat.one_mul, Int.natCast_zero, Int.sub_zero] at hagain
  simp only [roundWithAccuracy, shiftToTargetExponent_scaled hm.ne' h n,
    ExtendedMantissa.roundedMantissa, ExtendedMantissa.accuracy, Accuracy.roundToNearestEven,
    hagain, dif_neg hm.ne']

/-! ## 3. The other sign -/

theorem negative_mul (s : Sign) : Sign.negative * s = -s := by
  cases s <;> rfl

/-- To multiply with minus one is to turn the sign. -/
theorem mul_of_canonical {u : UnpackedFloat} (h : Canonical u) :
    UnpackedFloat.mul Format.binary64 (.finite .negative (2 ^ 52) (-52) (by decide)) u
      = u.neg := by
  cases u with
  | infinity s => exact congrArg UnpackedFloat.infinity (negative_mul s)
  | notANumber => rfl
  | zero s => exact congrArg UnpackedFloat.zero (negative_mul s)
  | finite s m e hm =>
    have hexponent : -52 + e = e - (52 : Nat) := by omega
    simp only [UnpackedFloat.mul, UnpackedFloat.neg, hexponent, negative_mul]
    exact roundWithAccuracy_scaled hm h 52 (-s)

/-- **Minus one times a number** is the number with the other sign, bit by bit. -/
theorem ofInt_neg_one_mul (x : Float) : Scalar.ofInt (-1) * x = -x := by
  have hone : (Scalar.ofInt (-1) : Float).toModel.unpack
      = .finite .negative (2 ^ 52) (-52) (by decide) := rfl
  have hproduct : UnpackedFloat.mul Format.binary64
      (Scalar.ofInt (-1) : Float).toModel.unpack x.toModel.unpack = x.toModel.unpack.neg := by
    rw [hone]
    exact mul_of_canonical (canonical_unpack x.toBits)
  exact congrArg (fun u => Float.ofModel (Float.Model.pack u)) hproduct

end PathAtlas.Decimal
