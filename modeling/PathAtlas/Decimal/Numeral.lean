/-
# Writing numbers

How a number is spelled: positional between two exponents, with an exponent outside of
them.  Every such decision is a field of `Style`; `Style.plain` is the spelling that text shows
and `Style.wire` the one that documents carry.

The digits themselves are no decision of a style.  They are the shortest that the number is
nearest to, and `Style.place` only puts a point or an exponent to them.  `fixed` is another way of
writing: a fixed number of decimal places, rounded once from the exact value, with as many digits
before the point as it takes.
-/
import PathAtlas.Decimal.Shortest

namespace PathAtlas.Decimal

/-! ## 1. Digits -/

def digitsOf (n : Nat) : List Char := Nat.toDigits 10 n

/-- Digits filled up with noughts on the left. -/
def padded (width n : Nat) : List Char :=
  let ds := digitsOf n
  List.replicate (width - ds.length) '0' ++ ds

/-! ## 2. Shortest decimals -/

/-- The decisions of a spelling. -/
structure Style where
  /-- The lowest position of the decimal point, counted from the first digit, that is still
  written positionally. -/
  lowestPoint : Int
  /-- The highest such position. -/
  highestPoint : Int
  /-- Least number of digits of an exponent. -/
  exponentWidth : Nat
  /-- Spelling of a negative nought. -/
  negativeZero : String
  infinity : String
  negativeInfinity : String
  notANumber : String

/-- Positional from a ten-thousandth up to sixteen digits before the point. -/
def Style.plain : Style := ⟨-3, 16, 2, "-0.0", "inf", "-inf", "nan"⟩

/-- The same digits, with the names that documents use for what is not finite. -/
def Style.wire : Style := ⟨-3, 16, 2, "-0.0", "Infinity", "-Infinity", "NaN"⟩

/-- The digits of a decimal, with a point after the first `point` of them. -/
def Style.place (style : Style) (digits : List Char) (point : Int) : List Char :=
  let n := Int.ofNat digits.length
  if point < style.lowestPoint || style.highestPoint < point then
    let fraction := digits.drop 1
    let e := point - 1
    digits.take 1 ++ (if fraction.isEmpty then [] else '.' :: fraction)
      ++ ['e', if e < 0 then '-' else '+'] ++ padded style.exponentWidth e.natAbs
  else if point ≤ 0 then
    ['0', '.'] ++ List.replicate (-point).toNat '0' ++ digits
  else if n ≤ point then
    digits ++ List.replicate (point - n).toNat '0' ++ ['.', '0']
  else
    digits.take point.toNat ++ '.' :: digits.drop point.toNat

/-- The spelling of a number by its shortest decimal. -/
def Style.spell (style : Style) (x : Float) : String :=
  match Binary.ofFloat? x with
  | none =>
    if x.isNaN then style.notANumber
    else if x < 0.0 then style.negativeInfinity else style.infinity
  | some b =>
    if b.significand == 0 then (if b.negative then style.negativeZero else "0.0")
    else
      let d := b.shortest
      let ds := digitsOf d.digits
      let body := style.place ds (Int.ofNat ds.length + d.exponent)
      String.ofList (if b.negative then '-' :: body else body)

/-! ## 3. Fixed places -/

/-- A count of units of the last place with the point in front of that many digits. -/
def placePoint (places units : Nat) : List Char :=
  let ds := padded (places + 1) units
  let whole := ds.length - places
  if places == 0 then ds else ds.take whole ++ '.' :: ds.drop whole

/-- The spelling of a number with a fixed number of decimal places. -/
def fixed (places : Nat) (x : Float) : String :=
  match Binary.ofFloat? x with
  | none => Style.plain.spell x
  | some b =>
    let body := placePoint places (b.units places)
    String.ofList (if b.negative then '-' :: body else body)

end PathAtlas.Decimal
