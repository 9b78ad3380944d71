/-
# Reading numerals

A numeral may have blanks around it, a sign, digits of any script, and single underscores
between digits.  Whole numbers are read up to a limit of digits, decimal numbers to the
nearest floating point number.

Both readers take the longest row of digits in front (`digitRow`) and then look at what is left,
so that a text with something behind its digits is refused as a whole.  The limit on whole
numbers is met before that: a row that is too long is reported as such even when the text would
be refused anyway, unless what stands behind it is an underscore that joins nothing.

A decimal is a whole number of digits and a power of ten, both exact, and rounded once
(`nearestDecimal`), so no digit is lost on the way.  Its exponent is read as a number of any
length, and one that is far out of range is settled by the count of digits alone.
-/
import PathAtlas.Decimal.Rounding
import PathAtlas.Fault
import PathAtlas.Text.Blank
import PathAtlas.Text.Digit

namespace PathAtlas.Text

-- Powers are the core ones here, whatever other instances are in scope.
attribute [local instance(2000)] instPowNat

/-! ## 1. Parts of a numeral -/

/-- A sign in front, `true` for minus, and what follows it. -/
def signed : List Char → Bool × List Char
  | '-' :: cs => (true, cs)
  | '+' :: cs => (false, cs)
  | cs => (false, cs)

/-- The row of digits in front, an underscore allowed between two of them, and what follows. -/
def digitRow : List Char → List Nat × List Char
  | [] => ([], [])
  | c :: '_' :: e :: tail =>
    match digitValue? c with
    | none => ([], c :: '_' :: e :: tail)
    | some d =>
      if (digitValue? e).isSome then
        let (ds, left) := digitRow (e :: tail)
        (d :: ds, left)
      else ([d], '_' :: e :: tail)
  | c :: rest =>
    match digitValue? c with
    | none => ([], c :: rest)
    | some d =>
      let (ds, left) := digitRow rest
      (d :: ds, left)

/-! ## 2. Whole numbers -/

/-- The most digits that a whole number is read from. -/
def digitLimit : Nat := 4300

/-- The whole number that a text spells.  Digits are counted before it is seen what stands behind
them, an underscore that joins no digits apart. -/
def readWhole (s : String) : Except Fault Int :=
  let (negative, body) := signed (trimBy isMargin s.toList)
  match digitRow body with
  | ([], _) | (_, '_' :: _) => .error (.notWhole s)
  | (ds, rest) =>
    if digitLimit < ds.length then .error (.tooManyDigits ds.length)
    else if rest.isEmpty then
      let n := Int.ofNat (numberOf ds)
      .ok (if negative then -n else n)
    else .error (.notWhole s)

/-! ## 3. Decimal numbers -/

/-- The number nearest to `± digits · 10 ^ exponent`.  A decimal far out of range is settled
before any power is taken. -/
def nearestDecimal (negative : Bool) (digits : List Nat) (exponent : Int) : Float :=
  let n := numberOf digits
  let top := Int.ofNat digits.length + exponent
  let x :=
    if n == 0 || top < -400 then 0.0
    else if 400 < Int.ofNat (Nat.toDigits 10 n).length + exponent then 1.0 / 0.0
    else Decimal.nearest (n * 10 ^ exponent.toNat) (10 ^ (-exponent).toNat)
  if negative then -x else x

/-- The exponent at the end of a numeral; absent when something else stands there. -/
def exponentPart : List Char → Option Int
  | [] => some 0
  | c :: cs =>
    if c == 'e' || c == 'E' then
      let (negative, body) := signed cs
      match digitRow body with
      | (d :: ds, []) =>
        let n := Int.ofNat (numberOf (d :: ds))
        some (if negative then -n else n)
      | _ => none
    else none

/-- The names of the numbers that are not finite, without their sign. -/
def namedNumber (cs : List Char) : Option Float :=
  match String.ofList (cs.map Char.toLower) with
  | "inf" | "infinity" => some (1.0 / 0.0)
  | "nan" => some (0.0 / 0.0)
  | _ => none

def decimalOf (cs : List Char) : Option Float :=
  let (negative, body) := signed cs
  match namedNumber body with
  | some x => some (if negative then -x else x)
  | none =>
    let (whole, rest) := digitRow body
    let (fraction, rest) :=
      match rest with
      | '.' :: tail => digitRow tail
      | _ => ([], rest)
    if whole.isEmpty && fraction.isEmpty then none
    else
      (exponentPart rest).map fun e =>
        nearestDecimal negative (whole ++ fraction) (e - Int.ofNat fraction.length)

def readDecimal (s : String) : Except Fault Float :=
  match decimalOf (trimBy isMargin s.toList) with
  | some x => .ok x
  | none => .error (.notDecimal s)

end PathAtlas.Text
