/-
# The bits of a floating point number

A floating point number is a word of 64 bits, and what its operations do is said on the unpacked
word.  Two questions are settled from the bits alone: whether a number is finite, and whether it is
an infinity.  The fields of a word are read as natural numbers, as `Binary.ofFloat?` reads them.

A number is an infinity just when its negative is one (`isInf_neg`), and packing a number that fits
makes none of it (`isInf_pack`).  Nothing here is about the values of finite numbers; that is what
the modules on rounding, range and comparison are for.
-/
import Mathlib
import PathAtlas.Decimal.Rounding

namespace PathAtlas.Decimal

open Float.Model (Format UnpackedFloat)
open Float.Model.UnpackedFloat

/-! ## 1. Fields -/

def exponentField (w : UInt64) : Nat := w.toNat / 2 ^ 52 % 2 ^ 11

def fractionField (w : UInt64) : Nat := w.toNat % 2 ^ 52

theorem toNat_unpackExponent (w : UInt64) :
    (@unpackExponent Format.binary64 w.toBitVec).toNat = exponentField w := by
  rw [unpackExponent, BitVec.toNat_cast, BitVec.extractLsb_toNat, Nat.shiftRight_eq_div_pow]
  rfl

theorem toNat_unpackMantissa (w : UInt64) :
    (@unpackMantissa Format.binary64 w.toBitVec).toNat = fractionField w := by
  rw [unpackMantissa, BitVec.toNat_cast, BitVec.extractLsb_toNat, Nat.shiftRight_zero]
  rfl

theorem unpackExponent_eq_iff (w : UInt64) :
    @unpackExponent Format.binary64 w.toBitVec = -1#_ ↔ exponentField w = 2047 := by
  rw [← BitVec.toNat_inj, toNat_unpackExponent]
  rfl

theorem unpackMantissa_eq_iff (w : UInt64) :
    @unpackMantissa Format.binary64 w.toBitVec = 0#_ ↔ fractionField w = 0 := by
  rw [← BitVec.toNat_inj, toNat_unpackMantissa]
  rfl

/-! ## 2. Finite numbers -/

/-- A word spells a finite number unless its exponent is all ones. -/
theorem isFinite_unpack (w : UInt64) :
    (unpack Format.binary64 w.toBitVec).isFinite = true ↔ exponentField w ≠ 2047 := by
  rw [← not_iff_not, not_not, ← unpackExponent_eq_iff]
  unfold unpack
  simp only
  split
  · rename_i hones
    split
    · exact iff_of_true (by simp [UnpackedFloat.isFinite]) hones
    · exact iff_of_true (by simp [UnpackedFloat.isFinite]) hones
  · rename_i hones
    split
    · split
      · exact iff_of_false (fun h => h rfl) hones
      · exact iff_of_false (fun h => h rfl) hones
    · exact iff_of_false (fun h => h rfl) hones

/-- **A number has an exact value** just when it is finite. -/
theorem ofFloat?_eq_none_iff (x : Float) : Binary.ofFloat? x = none ↔ x.isFinite = false := by
  have hfinite : x.isFinite = true ↔ exponentField x.toBits ≠ 2047 := isFinite_unpack x.toBits
  rw [← Bool.not_eq_true, hfinite, not_not, Binary.ofFloat?]
  simp only [beq_iff_eq]
  change (if exponentField x.toBits = 2047 then _ else _) = none ↔ _
  split
  · rename_i h
    exact iff_of_true rfl h
  · rename_i h
    refine iff_of_false ?_ h
    split <;> exact Option.some_ne_none _

/-! ## 3. Infinities -/

/-- An exponent of all ones and no fraction spell an infinity. -/
theorem isInf_unpack (w : UInt64) :
    (unpack Format.binary64 w.toBitVec).isInf = true
      ↔ exponentField w = 2047 ∧ fractionField w = 0 := by
  rw [← unpackExponent_eq_iff, ← unpackMantissa_eq_iff]
  unfold unpack
  simp only
  split
  · rename_i h
    split <;> simp_all [UnpackedFloat.isInf]
  · rename_i h
    split
    · split <;> simp_all [UnpackedFloat.isInf]
    · simp_all [UnpackedFloat.isInf]

/-- An unpacked number whose exponent fits into its field. -/
def Fits : UnpackedFloat → Prop
  | .finite _ _ e _ => (e + 1075).toNat + 1 < 2 ^ 11
  | _ => True

/-- What a word spells fits into a word. -/
theorem fits_unpack (w : UInt64) : Fits (unpack Format.binary64 w.toBitVec) := by
  have hlt : exponentField w < 2 ^ 11 := Nat.mod_lt _ (by decide)
  unfold unpack
  simp only
  split
  · split <;> trivial
  · rename_i hones
    rw [unpackExponent_eq_iff] at hones
    split
    · split
      · trivial
      · rename_i hzero _
        simp only [Fits, hzero]
        decide
    · simp only [Fits, toNat_unpackExponent, Format.exponentBias]
      omega

theorem fits_neg {u : UnpackedFloat} (h : Fits u) : Fits u.neg := by
  cases u <;> exact h

theorem isInf_neg_unpacked (u : UnpackedFloat) : u.neg.isInf = u.isInf := by
  cases u <;> rfl

/-- A word with an exponent that is not all ones is no infinity. -/
theorem isInf_unpack_packComponents {s : Sign} {e : BitVec 11} {m : BitVec 52} (h : e ≠ -1#_) :
    (unpack Format.binary64 (packComponents Format.binary64 s e m)).isInf = false := by
  unfold unpack
  simp only [unpackExponent_packComponents, unpackMantissa_packComponents, if_neg h]
  split
  · split <;> rfl
  · rfl

/-- Packing keeps infinities and makes no new ones. -/
theorem isInf_pack {u : UnpackedFloat} (h : Fits u) :
    (Float.Model.pack u).isInf = u.isInf := by
  change (unpack Format.binary64 (pack Format.binary64 u)).isInf = _
  cases u with
  | infinity s => simp [pack, packedInfinity, unpack, UnpackedFloat.isInf]
  | notANumber => simp [pack, packedNaN, unpack, UnpackedFloat.isInf]
  | zero s => exact isInf_unpack_packComponents (by decide)
  | finite s m e hm =>
    have hbiased : e + Format.binary64.exponentBias + Format.binary64.mantissaBitsWithoutImplicit
        = e + 1075 := by
      simp only [Format.exponentBias]
      omega
    have hfits : (e + 1075).toNat + 1 < 2 ^ 11 := h
    unfold pack
    simp only [hbiased]
    rw [if_neg (by omega)]
    split
    · refine isInf_unpack_packComponents fun hones => ?_
      have hones := congrArg BitVec.toNat hones
      rw [BitVec.toNat_ofNat, Nat.mod_eq_of_lt (by omega)] at hones
      have hall : (-1#11).toNat = 2047 := rfl
      omega
    · exact isInf_unpack_packComponents (by decide)

/-- **A word spells an infinity** when its exponent is all ones and its fraction nought. -/
theorem isInf_ofBits (w : UInt64) :
    (Float.ofBits w).isInf = true ↔ exponentField w = 2047 ∧ fractionField w = 0 := by
  rw [← isInf_unpack]
  exact Bool.eq_iff_iff.mp (isInf_pack (fits_unpack w))

/-- A sign makes no infinity. -/
theorem isInf_neg (x : Float) : (-x).isInf = x.isInf :=
  (isInf_pack (fits_neg (fits_unpack x.toBits))).trans (isInf_neg_unpacked _)

end PathAtlas.Decimal
