/-
# Conversions of document values

Reading a number, a list or an entry out of a value of any kind.  Each conversion says for
every kind what it gives or which fault it ends with.

Three different things can be wanted of a number.  `toWhole` takes anything with a whole part,
texts included; `toDecimal` takes anything that floating point can hold; `toPosition` takes only
what is a whole number already.  A text is read by the grammar of numerals and not by that of
documents, so blanks around it and underscores inside it are allowed.

For the parts of a value, a missing key and a value that can have no keys are kept apart
everywhere.  The forms with a fallback (`memberD`, `decimalD`, `elementsAt`) put it in the place
of a missing key only: a key with null behind it has a value, and null is what is converted.
-/
import PathAtlas.Json.Value
import PathAtlas.Text.Numeral

namespace PathAtlas.Json

/-! ## 1. Numbers -/

/-- The whole part of a decimal number, toward nought. -/
def wholePart (x : Float) : Except Fault Int :=
  match Decimal.Binary.ofFloat? x with
  | some b => .ok b.truncate
  | none => .error (if x.isNaN then .wholeFromNotANumber else .wholeFromInfinity)

def toWhole : Json → Except Fault Int
  | bool b => .ok (if b then 1 else 0)
  | whole n => .ok n
  | decimal x => wholePart x
  | text s => Text.readWhole s
  | v => .error (.wholeFromKind v.kind)

def decimalOfWhole (n : Int) : Except Fault Float :=
  match Decimal.wholeFloat? n with
  | some x => .ok x
  | none => .error .wholeTooLarge

def toDecimal : Json → Except Fault Float
  | bool b => .ok (if b then 1.0 else 0.0)
  | whole n => decimalOfWhole n
  | decimal x => .ok x
  | text s => Text.readDecimal s
  | v => .error (.decimalFromKind v.kind)

/-- A value as a position or a count: only whole numbers and truth values are one. -/
def toPosition : Json → Except Fault Int
  | bool b => .ok (if b then 1 else 0)
  | whole n => .ok n
  | v => .error (.notAPosition v.kind)

/-! ## 2. Parts -/

/-- The elements of a value: of a list its items, of a text its characters, of a mapping its
keys. -/
def elements : Json → Except Fault (List Json)
  | list xs => .ok xs
  | text s => .ok (s.toList.map fun c => text (String.singleton c))
  | mapping es => .ok (es.map fun e => text e.1)
  | v => .error (.noElements v.kind)

/-- The value of a key, absent when the mapping lacks it. -/
def member (doc : Json) (key : String) : Except Fault (Option Json) :=
  match doc with
  | mapping es => .ok (lookUp key es)
  | v => .error (.noMembers v.kind)

/-- The value of a key, with another value in its place when the mapping lacks it. -/
def memberD (doc : Json) (key : String) (fallback : Json) : Except Fault Json :=
  (doc.member key).map (·.getD fallback)

/-- The value of a key that has to be there. -/
def required (doc : Json) (key : String) : Except Fault Json :=
  match doc with
  | mapping es =>
    match lookUp key es with
    | some v => .ok v
    | none => .error (.missingKey key)
  | list _ => .error .listByName
  | text _ => .error .textByName
  | v => .error (.noEntries v.kind)

/-! ## 3. Parts that may be missing -/

/-- The decimal number of a key, with another one in its place when the key is missing. -/
def decimalD (doc : Json) (key : String) (fallback : Float) : Except Fault Float :=
  ((doc.get? key).map toDecimal).getD (.ok fallback)

/-- A decimal number, or none where the value is null. -/
def decimal? (v : Json) : Except Fault (Option Float) :=
  if v.isNull then .ok none else v.toDecimal.map some

/-- Whether the value of a key counts as present, with another answer when the key is missing. -/
def flagD (doc : Json) (key : String) (fallback : Bool) : Bool :=
  ((doc.get? key).map isPresent).getD fallback

/-- The elements of the value of a key; there are none when the key is missing. -/
def elementsAt (doc : Json) (key : String) : Except Fault (List Json) :=
  ((doc.get? key).map elements).getD (.ok [])

/-- The entries of a mapping; null has none. -/
def entriesGiven : Json → Except Fault (List (String × Json))
  | null => .ok []
  | mapping es => .ok es
  | v => .error (.noEntries v.kind)

end PathAtlas.Json
