/-
# Which results are numbers

Subtracting two infinities, dividing nought by nought or multiplying it by an infinity gives NaN,
and from then on every result is NaN.  Nothing else does, whatever is rounded and however far it is
out of range (`isNaN_pack`, `isNaN_nearest`).

So a quotient that is rounded down and taken times its divisor again is a number when both sides are
finite, and none when the dividend is infinite.  An infinite divisor goes into a finite number no
times, and into a negative one minus one times, so that the multiple is NaN for the former and the
least of all numbers for the latter (`isNaN_floorDivFloat_mul`).
-/
import PathAtlas.Order
import PathAtlas.Proofs.Decimal.Comparison
import PathAtlas.Proofs.Decimal.Range

namespace PathAtlas.Decimal

open Float.Model (Format UnpackedFloat)
open Float.Model.UnpackedFloat

/-! ## 1. Words -/

/-- A number that is neither infinite nor nought. -/
def Proper : UnpackedFloat → Prop
  | .finite .. => True
  | _ => False

/-- A word spells no NaN when its exponent is not all ones, or its fraction is nought. -/
theorem isNaN_unpack_packComponents {s : Sign} {e : BitVec 11} {m : BitVec 52}
    (h : e ≠ -1#_ ∨ m = 0#_) :
    (unpack Format.binary64 (packComponents Format.binary64 s e m)).isNaN = false := by
  unfold unpack
  simp only [unpackExponent_packComponents, unpackMantissa_packComponents]
  split
  · rename_i hones
    rw [if_pos (h.resolve_left (not_not_intro hones))]
    rfl
  · split
    · split <;> rfl
    · rfl

/-- **Packing** keeps NaN and makes no new one, however large the number is. -/
theorem isNaN_pack (u : UnpackedFloat) : (Float.Model.pack u).isNaN = u.isNaN := by
  change (unpack Format.binary64 (pack Format.binary64 u)).isNaN = _
  cases u with
  | infinity s => exact isNaN_unpack_packComponents (.inr rfl)
  | notANumber => simp [pack, packedNaN, unpack, UnpackedFloat.isNaN]
  | zero s => exact isNaN_unpack_packComponents (.inl (by decide))
  | finite s m e hm =>
    unfold pack
    simp only
    split
    · exact isNaN_unpack_packComponents (.inr rfl)
    · rename_i hfits
      split
      · refine isNaN_unpack_packComponents (.inl fun hones => ?_)
        have hones := congrArg BitVec.toNat hones
        have hbits : 2 ^ Format.binary64.exponentBits = 2 ^ 11 := rfl
        rw [BitVec.toNat_ofNat, Nat.mod_eq_of_lt (by omega)] at hones
        have hall : (-1#11).toNat = 2047 := rfl
        omega
      · exact isNaN_unpack_packComponents (.inl (by decide))

/-- An exponent of all ones and a fraction spell what is no number. -/
theorem isNaN_unpack (w : UInt64) :
    (unpack Format.binary64 w.toBitVec).isNaN = true
      ↔ exponentField w = 2047 ∧ fractionField w ≠ 0 := by
  rw [← unpackExponent_eq_iff, Ne, ← unpackMantissa_eq_iff]
  unfold unpack
  simp only
  split
  · rename_i h
    split <;> simp_all [UnpackedFloat.isNaN]
  · rename_i h
    split
    · split <;> simp_all [UnpackedFloat.isNaN]
    · simp_all [UnpackedFloat.isNaN]

/-- Two empty fields spell nought. -/
theorem not_proper_of_fields {w : UInt64} (he : exponentField w = 0) (hm : fractionField w = 0) :
    ¬ Proper (unpack Format.binary64 w.toBitVec) := by
  have hexponent : @unpackExponent Format.binary64 w.toBitVec = 0#_ := by
    rw [← BitVec.toNat_inj, toNat_unpackExponent, he]
    rfl
  unfold unpack
  simp only [hexponent, (unpackMantissa_eq_iff w).mpr hm]
  exact id

theorem isNaN_ofBits (w : UInt64) :
    (Float.ofBits w).isNaN = true ↔ exponentField w = 2047 ∧ fractionField w ≠ 0 := by
  rw [← isNaN_unpack]
  exact Bool.eq_iff_iff.mp (isNaN_pack _)

/-! ## 2. Operations -/

section Unpacked

variable {spec : Format} {x y : UnpackedFloat}

theorem isNaN_roundWithAccuracy (s : Sign) (m : Nat) (e : Int) (a : Accuracy) :
    (roundWithAccuracy spec s m e a).isNaN = false := by
  unfold roundWithAccuracy
  simp only
  split <;> rfl

theorem isNaN_normalize (m e : Int) (s : Sign) :
    (UnpackedFloat.normalize spec m e s).isNaN = false := by
  unfold UnpackedFloat.normalize
  split
  · exact isNaN_roundWithAccuracy _ _ _ _
  · rfl
  · exact isNaN_roundWithAccuracy _ _ _ _

theorem isNaN_add_unpacked (hx : x.isNaN = false) (hy : y.isFinite = true) :
    (UnpackedFloat.add spec x y).isNaN = false := by
  cases x <;> cases y <;>
    simp_all [UnpackedFloat.isNaN, UnpackedFloat.isFinite, UnpackedFloat.add]
  case zero.zero s s' => cases s <;> cases s' <;> rfl
  case finite.finite => exact isNaN_normalize _ _ _

theorem isNaN_sub_unpacked (h : x.isNaN = false ∧ y.isFinite = true ∨
    x.isFinite = true ∧ y.isNaN = false) : (UnpackedFloat.sub spec x y).isNaN = false := by
  cases x <;> cases y <;>
    simp_all [UnpackedFloat.isNaN, UnpackedFloat.isFinite, UnpackedFloat.sub]
  case zero.zero s s' => cases s <;> cases s' <;> rfl
  case finite.finite => exact isNaN_normalize _ _ _

theorem isNaN_div_unpacked (hx : x.isNaN = false) (hy : Proper y) :
    (UnpackedFloat.div spec x y).isNaN = false := by
  cases x <;> cases y <;> simp_all [UnpackedFloat.isNaN, Proper, UnpackedFloat.div]
  case finite.finite => exact isNaN_roundWithAccuracy _ _ _ _

theorem isNaN_mul_unpacked (hx : x.isNaN = false) (hy : y.isNaN = false)
    (h : Proper x ∨ Proper y) : (UnpackedFloat.mul spec x y).isNaN = false := by
  cases x <;> cases y <;> simp_all [UnpackedFloat.isNaN, Proper, UnpackedFloat.mul]
  case finite.finite => exact isNaN_roundWithAccuracy _ _ _ _

/-- NaN is comparable with nothing. -/
theorem isNaN_of_compare {o : Ordering} (h : x.compare y = some o) :
    x.isNaN = false ∧ y.isNaN = false := by
  cases x <;> cases y <;> simp_all [UnpackedFloat.compare, UnpackedFloat.isNaN]

theorem compare_self_of_isNaN (h : x.isNaN = true) : x.compare x = none := by
  cases x <;> simp_all [UnpackedFloat.compare, UnpackedFloat.isNaN]

/-- What lies above nought is infinite or proper. -/
theorem of_zero_compare {s : Sign} (h : (UnpackedFloat.zero s).compare x = some .lt) :
    x = .infinity .positive ∨ Proper x := by
  rcases x with (_ | _) | _ | _ | ⟨_ | _, m, e, hm⟩ <;>
    simp_all [UnpackedFloat.compare, Proper]

end Unpacked

section Operations

variable {x y : Float}

theorem isFinite_of_proper (h : Proper x.toModel.unpack) : x.isFinite = true := by
  change x.toModel.unpack.isFinite = true
  cases hx : x.toModel.unpack <;> simp_all [Proper, UnpackedFloat.isFinite]

theorem isFinite_of_infinity {s : Sign} (h : x.toModel.unpack = .infinity s) :
    x.isFinite = false := by
  change x.toModel.unpack.isFinite = false
  rw [h]
  rfl

theorem isNaN_of_isFinite (h : x.isFinite = true) : x.isNaN = false := by
  change x.toModel.unpack.isFinite = true at h
  change x.toModel.unpack.isNaN = false
  cases hx : x.toModel.unpack <;> simp_all [UnpackedFloat.isFinite, UnpackedFloat.isNaN]

theorem isNaN_add (hx : x.isNaN = false) (hy : y.isFinite = true) : (x + y).isNaN = false :=
  (isNaN_pack _).trans (isNaN_add_unpacked hx hy)

theorem isNaN_sub (h : x.isNaN = false ∧ y.isFinite = true ∨ x.isFinite = true ∧ y.isNaN = false) :
    (x - y).isNaN = false :=
  (isNaN_pack _).trans (isNaN_sub_unpacked h)

theorem isNaN_div (hx : x.isNaN = false) (hy : Proper y.toModel.unpack) : (x / y).isNaN = false :=
  (isNaN_pack _).trans (isNaN_div_unpacked hx hy)

theorem isNaN_mul (hx : x.isNaN = false) (hy : y.isNaN = false)
    (h : Proper x.toModel.unpack ∨ Proper y.toModel.unpack) : (x * y).isNaN = false :=
  (isNaN_pack _).trans (isNaN_mul_unpacked hx hy h)

theorem isNaN_neg : (-x).isNaN = x.isNaN := by
  refine (isNaN_pack _).trans ?_
  change x.toModel.unpack.neg.isNaN = x.toModel.unpack.isNaN
  cases x.toModel.unpack <;> rfl

/-! NaN stays NaN. -/

theorem unpack_of_isNaN (h : x.isNaN = true) : x.toModel.unpack = .notANumber := by
  change x.toModel.unpack.isNaN = true at h
  cases hx : x.toModel.unpack <;> simp_all [UnpackedFloat.isNaN]

theorem nan_add (h : x.isNaN = true) (y : Float) : (x + y).isNaN = true := by
  refine (isNaN_pack _).trans ?_
  rw [unpack_of_isNaN h]
  rfl

theorem nan_sub (h : x.isNaN = true) (y : Float) : (x - y).isNaN = true := by
  refine (isNaN_pack _).trans ?_
  rw [unpack_of_isNaN h]
  rfl

theorem sub_nan (x : Float) (h : y.isNaN = true) : (x - y).isNaN = true := by
  refine (isNaN_pack _).trans ?_
  rw [unpack_of_isNaN h]
  cases x.toModel.unpack <;> rfl

theorem nan_div (h : x.isNaN = true) (y : Float) : (x / y).isNaN = true := by
  refine (isNaN_pack _).trans ?_
  rw [unpack_of_isNaN h]
  rfl

theorem nan_mul (h : x.isNaN = true) (y : Float) : (x * y).isNaN = true := by
  refine (isNaN_pack _).trans ?_
  rw [unpack_of_isNaN h]
  rfl

theorem lt_iff_compare : x < y ↔ x.toModel.unpack.compare y.toModel.unpack = some .lt :=
  decide_eq_true_iff.trans beq_iff_eq

theorem isNaN_of_lt (h : x < y) : x.isNaN = false ∧ y.isNaN = false :=
  isNaN_of_compare (lt_iff_compare.mp h)

theorem isNaN_of_beq (h : (x == y) = true) : x.isNaN = false ∧ y.isNaN = false := by
  have hequal : (x == y) = (x.toModel.unpack.compare y.toModel.unpack == some .eq) := rfl
  exact isNaN_of_compare (beq_iff_eq.mp (hequal ▸ h))

/-- Being the same is an equivalence among numbers, and NaN is the same as nothing. -/
instance partialEquivBEqFloat : PartialEquivBEq Float where
  symm {x y} h := by
    obtain ⟨hx, hy⟩ := isNaN_of_beq h
    rw [beq_iff_place_eq hx hy] at h
    exact (beq_iff_place_eq hy hx).mpr h.symm
  trans {x y z} hxy hyz := by
    obtain ⟨hx, hy⟩ := isNaN_of_beq hxy
    obtain ⟨-, hz⟩ := isNaN_of_beq hyz
    rw [beq_iff_place_eq hx hy] at hxy
    rw [beq_iff_place_eq hy hz] at hyz
    exact (beq_iff_place_eq hx hz).mpr (hxy.trans hyz)

/-- What is comparable with itself is no NaN. -/
theorem isNumber_eq (x : Float) : Order.isNumber x = !x.isNaN := by
  cases hx : x.isNaN with
  | false => exact beq_self_of_not_nan hx
  | true =>
    have hself : Order.isNumber x = (x.toModel.unpack.compare x.toModel.unpack == some .eq) := rfl
    rw [hself, compare_self_of_isNaN hx]
    rfl

/-- What lies above nought is infinite or proper. -/
theorem of_pos (h : 0 < x) : x.toModel.unpack = .infinity .positive ∨ Proper x.toModel.unpack := by
  have hzero : (0 : Float).toModel.unpack = .zero .positive := rfl
  rw [lt_iff_compare, hzero] at h
  exact of_zero_compare h

end Operations

/-! ## 3. Rounding -/

theorem isNaN_compose {m : Nat} {e : Int} (hm : m ≤ 2 ^ 53) (he : -1074 ≤ e) (he' : e ≤ 971) :
    (compose m e).isNaN = false := by
  obtain ⟨k, hk⟩ : ∃ k : Nat, e + 1074 = k := ⟨(e + 1074).toNat, by omega⟩
  have hword : (UInt64.ofNat ((e + 1074).toNat * 2 ^ 52 + m)).toNat = k * 2 ^ 52 + m := by
    rw [hk, Int.toNat_natCast, UInt64.toNat_ofNat']
    exact Nat.mod_eq_of_lt (by omega)
  rw [← Bool.not_eq_true, compose, isNaN_ofBits, exponentField, fractionField, hword]
  omega

/-- **The nearest number** to a quotient is one. -/
theorem isNaN_nearest (n : Nat) {d : Nat} (hd : d ≠ 0) : (nearest n d).isNaN = false := by
  unfold nearest
  simp only [beq_iff_eq]
  split
  · decide +kernel
  · rename_i hn
    split
    · decide +kernel
    · exact isNaN_compose (roundDiv_scaled_le hn hd) (le_max_left _ _) (by omega)

theorem isNaN_nearestSigned (negative : Bool) (n : Nat) {d : Nat} (hd : d ≠ 0) :
    (nearestSigned negative n d).isNaN = false := by
  simp only [nearestSigned]
  split
  · exact isNaN_neg.trans (isNaN_nearest n hd)
  · exact isNaN_nearest n hd

theorem isNaN_floorFloat (x : Float) : (floorFloat x).isNaN = x.isNaN := by
  unfold floorFloat
  split
  · rfl
  · rename_i b hb
    have hx : x.isFinite = true := by
      rw [← Bool.not_eq_false, ← ofFloat?_eq_none_iff, hb]
      exact Option.some_ne_none b
    rw [isNaN_nearestSigned _ _ one_ne_zero, isNaN_of_isFinite hx]

/-- What is put on the nearest whole number is a number when it was one. -/
theorem isNaN_toWhole (q : Float) : (toWhole q).isNaN = q.isNaN := by
  unfold toWhole
  split
  · rename_i hzero
    rw [(isNaN_of_beq hzero).1]
    decide +kernel
  · simp only
    split
    · have hone : (1.0 : Float).isFinite = true := by decide +kernel
      rw [← isNaN_floorFloat q]
      cases hq : (floorFloat q).isNaN with
      | true => exact nan_add hq 1.0
      | false => exact isNaN_add hq hone
    · exact isNaN_floorFloat q

/-! ## 4. Quotients rounded down -/

section Quotients

variable {x y : Float}

/-- A number that is not nought has a significand that is not. -/
theorem significand_ne_zero {b : Binary} (hb : Binary.ofFloat? y = some b)
    (hy : Proper y.toModel.unpack) : b.significand ≠ 0 := by
  replace hy : ¬ (exponentField y.toBits = 0 ∧ fractionField y.toBits = 0) := fun h =>
    not_proper_of_fields h.1 h.2 hy
  simp only [Binary.ofFloat?, beq_iff_eq] at hb
  change (if exponentField y.toBits = 2047 then none else
    if exponentField y.toBits = 0 then some ⟨_, fractionField y.toBits, _⟩
    else some ⟨_, fractionField y.toBits + 2 ^ 52, _⟩) = some b at hb
  split at hb
  · cases hb
  · split at hb
    · rename_i hexponent
      obtain rfl := Option.some.inj hb
      exact fun hfraction => hy ⟨hexponent, hfraction⟩
    · obtain rfl := Option.some.inj hb
      exact Nat.ne_of_gt (Nat.add_pos_right _ (by decide))

theorem exists_ofFloat? (hx : x.isFinite = true) : ∃ b, Binary.ofFloat? x = some b := by
  rw [← Option.ne_none_iff_exists', Ne, ofFloat?_eq_none_iff, hx]
  exact Bool.noConfusion

theorem isNaN_remainder (hx : x.isFinite = true) (hy : Proper y.toModel.unpack) :
    (remainder x y).isNaN = false := by
  obtain ⟨a, ha⟩ := exists_ofFloat? hx
  obtain ⟨b, hb⟩ := exists_ofFloat? (isFinite_of_proper hy)
  simp only [remainder, ha, hb, beq_iff_eq, if_neg (significand_ne_zero hb hy)]
  exact isNaN_nearestSigned _ _ (by positivity)

theorem isNaN_remainder_of_infinite (hx : x.isFinite = false) (y : Float) :
    (remainder x y).isNaN = true := by
  have hnan : (0.0 / 0.0 : Float).isNaN = true := by decide +kernel
  rwa [remainder, (ofFloat?_eq_none_iff x).mpr hx]

/-- **Finite numbers** have a quotient that can be rounded down. -/
theorem isNaN_floorDivFloat (hx : x.isFinite = true) (hy : Proper y.toModel.unpack) :
    (floorDivFloat x y).isNaN = false := by
  have hone : (1.0 : Float).isFinite = true := by decide +kernel
  have hquotient : ((x - remainder x y) / y).isNaN = false :=
    isNaN_div (isNaN_sub (.inr ⟨hx, isNaN_remainder hx hy⟩)) hy
  rw [floorDivFloat, isNaN_toWhole]
  split
  · exact isNaN_sub (.inl ⟨hquotient, hone⟩)
  · exact hquotient

/-- **An infinite number** has none. -/
theorem isNaN_floorDivFloat_of_infinite (hx : x.isFinite = false) (y : Float) :
    (floorDivFloat x y).isNaN = true := by
  have hquotient : ((x - remainder x y) / y).isNaN = true :=
    nan_div (sub_nan x (isNaN_remainder_of_infinite hx y)) y
  rw [floorDivFloat, isNaN_toWhole]
  split
  · exact nan_sub hquotient 1.0
  · exact hquotient

/-! ## 5. Infinite divisors -/

/-- Nought with a sign. -/
def nought (s : Sign) : Float := ⟨Float.Model.pack (.zero s)⟩

theorem unpack_nought (s : Sign) : (nought s).toModel.unpack = .zero s := by
  cases s <;> rfl

/-- A finite number taken away from itself leaves nought. -/
theorem exists_sub_self (hx : x.isFinite = true) : ∃ s, x - x = nought s := by
  have hzero : ∃ s, UnpackedFloat.sub Format.binary64 x.toModel.unpack x.toModel.unpack
      = .zero s := by
    change x.toModel.unpack.isFinite = true at hx
    generalize x.toModel.unpack = u at hx
    cases u with
    | infinity s => cases hx
    | notANumber => cases hx
    | zero s => cases s <;> exact ⟨_, rfl⟩
    | finite s m e hm =>
      exact ⟨.positive, by simp [UnpackedFloat.sub, UnpackedFloat.normalize]⟩
  obtain ⟨s, hs⟩ := hzero
  exact ⟨s, congrArg (fun u => Float.ofModel (Float.Model.pack u)) hs⟩

/-- An infinite number goes into a finite one not at all, and the finite one is left. -/
theorem quotient_of_infinity (hx : x.isFinite = true)
    (hy : y.toModel.unpack = .infinity .positive) :
    remainder x y = x ∧ ∃ s, (x - x) / y = nought s := by
  constructor
  · obtain ⟨a, ha⟩ := exists_ofFloat? hx
    have hinf : y.isInf = true := by
      change y.toModel.unpack.isInf = true
      rw [hy]
      rfl
    simp only [remainder, ha, (ofFloat?_eq_none_iff y).mpr (isFinite_of_infinity hy), hinf, if_true]
  · obtain ⟨s, hs⟩ := exists_sub_self hx
    refine ⟨s / .positive, ?_⟩
    change Float.ofModel (Float.Model.pack
      (UnpackedFloat.div Format.binary64 (x - x).toModel.unpack y.toModel.unpack)) = _
    rw [hs, unpack_nought, hy]
    rfl

theorem not_infinity_lt_zero (hy : y.toModel.unpack = .infinity .positive) : ¬ y < 0.0 := by
  have hzero : (0.0 : Float).toModel.unpack = .zero .positive := rfl
  rw [lt_iff_compare, hy, hzero]
  exact fun h => nomatch h

/-- A number below nought, divided by infinity and rounded down, gives minus one. -/
theorem floorDivFloat_of_neg (hx : x.isFinite = true) (hneg : x < 0.0)
    (hy : y.toModel.unpack = .infinity .positive) : floorDivFloat x y = -1.0 := by
  obtain ⟨hrest, s, hs⟩ := quotient_of_infinity hx hy
  have hne : (x != 0.0) = true := by
    have hequal : (x == 0.0)
      = (x.toModel.unpack.compare (0.0 : Float).toModel.unpack == some .eq) := rfl
    rw [bne, hequal, lt_iff_compare.mp hneg]
    rfl
  simp only [floorDivFloat, hrest, hs, hne, not_infinity_lt_zero hy, hneg]
  cases s <;> decide +kernel

theorem floorDivFloat_of_not_neg (hx : x.isFinite = true) (hneg : ¬ x < 0.0)
    (hy : y.toModel.unpack = .infinity .positive) : floorDivFloat x y = 0.0 := by
  obtain ⟨hrest, s, hs⟩ := quotient_of_infinity hx hy
  simp only [floorDivFloat, hrest, hs, not_infinity_lt_zero hy, hneg, bne_self_eq_false,
    Bool.and_false]
  cases s <;> decide +kernel

/-- **The greatest multiple** of a divisor above nought that is not above a number is a number
itself, unless that number is infinite, or the divisor is and the number not negative. -/
theorem isNaN_floorDivFloat_mul (hy : 0 < y) :
    (floorDivFloat x y * y).isNaN = true ↔
      x.isFinite = false ∨ y.isFinite = false ∧ ¬ x < 0.0 := by
  have hynumber : y.isNaN = false := (isNaN_of_lt hy).2
  cases hx : x.isFinite with
  | false =>
    exact iff_of_true (nan_mul (isNaN_floorDivFloat_of_infinite hx y) y) (.inl rfl)
  | true =>
    rcases of_pos hy with hinf | hproper
    · have hfinite : y.isFinite = false := isFinite_of_infinity hinf
      by_cases hneg : x < 0.0
      · have hone : Proper (-1.0 : Float).toModel.unpack := trivial
        have hnumber : (-1.0 * y).isNaN = false :=
          isNaN_mul (by decide +kernel) hynumber (.inl hone)
        rw [floorDivFloat_of_neg hx hneg hinf, hnumber]
        simp [hneg]
      · have hnan : (0.0 * y).isNaN = true := by
          refine (isNaN_pack _).trans ?_
          rw [hinf]
          rfl
        rw [floorDivFloat_of_not_neg hx hneg hinf, hnan]
        simp [hneg, hfinite]
    · have hnumber := isNaN_mul (isNaN_floorDivFloat hx hproper) hynumber (.inr hproper)
      rw [hnumber, isFinite_of_proper hproper]
      simp

end Quotients

/-! ## 6. The ends of the row -/

section Ends

variable {x y : Float}

/-- What stands above the least of all numbers and is not finite is the greatest. -/
theorem of_not_finite (h : -1.0 / 0.0 < x) (hx : x.isFinite = false) :
    x.toModel.unpack = .infinity .positive := by
  have hleast : (-1.0 / 0.0 : Float).toModel.unpack = .infinity .negative := rfl
  rw [lt_iff_compare, hleast] at h
  change x.toModel.unpack.isFinite = false at hx
  generalize x.toModel.unpack = u at h hx
  rcases u with (_ | _) | _ | _ | _
  · cases h
  · rfl
  · cases h
  · cases hx
  · cases hx

/-- Finite numbers lie below the greatest of all. -/
theorem lt_infinity (hx : x.isFinite = true) (hy : y.toModel.unpack = .infinity .positive) :
    x < y := by
  rw [lt_iff_compare, hy]
  change x.toModel.unpack.isFinite = true at hx
  generalize x.toModel.unpack = u at hx
  rcases u with _ | _ | _ | ⟨_ | _, m, e, hm⟩ <;> first | rfl | cases hx

/-- What lies above nought does not lie at it or below. -/
theorem le_zero_of_pos (h : 0 < x) : Scalar.le x Scalar.zero = false := by
  have habove : x.toModel.unpack.compare (.zero .positive) = some .gt := by
    have hzero : (0 : Float).toModel.unpack = .zero .positive := rfl
    rw [lt_iff_compare, hzero] at h
    generalize x.toModel.unpack = u at h
    rcases u with (_ | _) | _ | _ | ⟨_ | _, m, e, hm⟩ <;> first | rfl | cases h
  have hlt : ¬ x < Scalar.zero := fun hlt => by
    have hbelow : x.toModel.unpack.compare (.zero .positive) = some .lt := lt_iff_compare.mp hlt
    cases habove.symm.trans hbelow
  have hbeq : (x == Scalar.zero) = (x.toModel.unpack.compare (.zero .positive) == some .eq) := rfl
  rw [Scalar.le, decide_eq_false hlt, hbeq, habove]
  rfl

/-- Nothing lies between two numbers but what lies above the one or below the other. -/
theorem lt_or_lt {z : Float} (hxz : x < z) (hy : y.isNaN = false) : x < y ∨ y < z := by
  obtain ⟨hx, hz⟩ := isNaN_of_lt hxz
  rw [lt_iff_place_lt hx hy, lt_iff_place_lt hy hz]
  have hplaces := (lt_iff_place_lt hx hz).mp hxz
  exact (lt_or_ge (place x) (place y)).imp_right fun hyx => lt_of_le_of_lt hyx hplaces

end Ends

end PathAtlas.Decimal
