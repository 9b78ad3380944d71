/-
# Documents

Probe reports, settings and answers are documents: trees of mappings, lists, texts, numbers and
truth values.  Whole and decimal numbers are kept apart, since they are written differently and
a whole number has no bound, and a mapping keeps the order in which its keys first came.

A mapping is a list of entries and nothing keeps a key from standing in it twice; `lookUp` finds
the first, and `put`, which is how the reader and every merge builds one, never adds a second.

Numbers of both kinds are compared by exact value (`rational?`), not by rounding one of them to
the other's kind: above 2^53 the two differ.  Truth values are numbers too, one and nought.
Comparing what has no order, and naming something by a container, are faults (`precedes`,
`checkName`), and they are told by the kinds of the values.
-/
import PathAtlas.Decimal.Rounding
import PathAtlas.Fault

namespace PathAtlas

/-! ## 1. Values -/

/-- A document value. -/
inductive Json where
  | null
  | bool (value : Bool)
  | whole (value : Int)
  | decimal (value : Float)
  | text (value : String)
  | list (items : List Json)
  | mapping (entries : List (String × Json))
  deriving Inhabited

namespace Json

/-- The name of a kind of value, as messages give it. -/
def kind : Json → String
  | null => "NoneType"
  | bool _ => "bool"
  | whole _ => "int"
  | decimal _ => "float"
  | text _ => "str"
  | list _ => "list"
  | mapping _ => "dict"

/-- Whether a value counts as present: not null, false, nought or empty. -/
def isPresent : Json → Bool
  | null => false
  | bool b => b
  | whole n => n != 0
  | decimal x => x != 0.0
  | text s => !s.isEmpty
  | list xs => !xs.isEmpty
  | mapping es => !es.isEmpty

def isNull : Json → Bool
  | null => true
  | _ => false

/-! ## 2. Entries -/

def lookUp (key : String) : List (String × Json) → Option Json
  | [] => none
  | (k, v) :: es => if k = key then some v else lookUp key es

/-- Sets the value of a key, at its place when it has one and else at the end. -/
def put (key : String) (value : Json) : List (String × Json) → List (String × Json)
  | [] => [(key, value)]
  | (k, v) :: es => if k = key then (k, value) :: es else (k, v) :: put key value es

theorem lookUp_put_self (key : String) (value : Json) (es : List (String × Json)) :
    lookUp key (put key value es) = some value := by
  induction es with
  | nil => simp [put, lookUp]
  | cons e es ih =>
    by_cases h : e.1 = key
    · simp [put, lookUp, h]
    · simp [put, lookUp, h, ih]

/-- Other keys keep their values. -/
theorem lookUp_put_of_ne {key other : String} (h : other ≠ key) (value : Json)
    (es : List (String × Json)) : lookUp other (put key value es) = lookUp other es := by
  induction es with
  | nil => simp [put, lookUp, Ne.symm h]
  | cons e es ih =>
    by_cases hk : e.1 = key
    · simp [put, lookUp, hk, Ne.symm h]
    · by_cases ho : e.1 = other
      · simp [put, lookUp, ho, h]
      · simp [put, lookUp, hk, ho, ih]

/-- The value of a key of a mapping; absent for every other value. -/
def get? (doc : Json) (key : String) : Option Json :=
  match doc with
  | mapping es => lookUp key es
  | _ => none

/-- The value of a key, or null. -/
def entry (doc : Json) (key : String) : Json := (doc.get? key).getD null

/-- An optional value, null when absent. -/
def ofOption {β : Type} (f : β → Json) : Option β → Json
  | none => null
  | some b => f b

def nat (n : Nat) : Json := whole (Int.ofNat n)

def texts (xs : List String) : Json := list (xs.map text)

/-! ## 3. Numbers -/

/-- The exact value of a number that is finite; truth values count as one and nought. -/
def rational? : Json → Option Rat
  | bool b => some (if b then 1 else 0)
  | whole n => some (n : Rat)
  | decimal x => (Decimal.Binary.ofFloat? x).map Decimal.Binary.toRat
  | _ => none

/-- Whether a value is a number or a truth value. -/
def isNumber : Json → Bool
  | bool _ | whole _ | decimal _ => true
  | _ => false

/-- A number that is not finite; any finite number is nought beside it. -/
private def unbounded : Json → Float
  | decimal x => if x.isNaN || x.isInf then x else 0.0
  | _ => 0.0

/-- Whether one number is below another, by exact value. -/
def numberBelow (a b : Json) : Bool :=
  match a.rational?, b.rational? with
  | some x, some y => x < y
  | _, _ => unbounded a < unbounded b

/-- Whether two numbers have the same value. -/
def numberSame (a b : Json) : Bool :=
  match a.rational?, b.rational? with
  | some x, some y => x == y
  | none, none => unbounded a == unbounded b
  | _, _ => false

/-- Whether two values that are no containers are the same one; numbers are compared by value,
whatever their kind. -/
def same (a b : Json) : Bool :=
  match a, b with
  | null, null => true
  | text s, text t => s == t
  | _, _ => a.isNumber && b.isNumber && numberSame a b

/-- A name can be any value that is no container. -/
def checkName (name : Json) : Except Fault Unit :=
  match name with
  | list _ | mapping _ => .error (.notInSets name.kind)
  | _ => .ok ()

/-- Whether one value stands before another.  Texts have an order, and numbers have one. -/
def precedes (a b : Json) : Except Fault Bool :=
  match a, b with
  | text s, text t => .ok (decide (s < t))
  | _, _ =>
    if a.isNumber && b.isNumber then .ok (numberBelow a b)
    else .error (.noOrder "<" a.kind b.kind)

end Json

end PathAtlas
