/-
# Figures

A number as somebody gave it: a count that is whole, a quantity that need not be, or whatever
else was put in its place.  A figure is kept and shown as it was given, and only where it is
reckoned with does it have to be a number.

Reckoning keeps whole numbers whole (`combine`), so counts that a report gives as whole numbers
have a whole sum of any size, and a quotient of two of them is rounded once.  A figure that is no
number is a fault only when a sum or a quotient comes to it, and the fault names the sign that
was met: figures that nobody adds up are passed on unseen, whatever they are.
-/
import PathAtlas.Json.Value
import PathAtlas.Scalar

namespace PathAtlas

-- Sums start at the core nought here, whatever other instances are in scope.
attribute [local instance(2000)] Zero.ofOfNat0

/-- A number as it was given. -/
inductive Figure (α : Type) where
  /-- A whole number. -/
  | whole (n : Int)
  /-- A number that need not be whole. -/
  | decimal (x : α)
  /-- Another value; of those only truth values can be reckoned with. -/
  | other (value : Json)

namespace Figure

/-! ## 1. Reckoning -/

variable {α : Type} [Scalar α]

/-- The whole number or quantity that a figure gives, with one and nought for truth values; the
relation says what it is wanted for. -/
def number (use : String) : Figure α → Except Fault (Figure α)
  | whole n => .ok (whole n)
  | decimal x => .ok (decimal x)
  | other (.bool b) => .ok (whole (if b then 1 else 0))
  | other v => .error (.noReckoning use v.kind)

def quantity (use : String) (figure : Figure α) : Except Fault α := do
  match ← figure.number use with
  | whole n =>
    match Scalar.quotient n 1 with
    | some x => .ok x
    | none => .error .wholeTooLarge
  | decimal x => .ok x
  | other v => .error (.noReckoning use v.kind)

/-- Reckons with two figures: whole numbers give a whole number. -/
def combine (use : String) (wholes : Int → Int → Int) (quantities : α → α → α)
    (a b : Figure α) : Except Fault (Figure α) := do
  match ← a.number use, ← b.number use with
  | whole m, whole n => return whole (wholes m n)
  | a, b => return decimal (quantities (← a.quantity use) (← b.quantity use))

def plus (a b : Figure α) : Except Fault (Figure α) := combine "+" (· + ·) (· + ·) a b

def minus (a b : Figure α) : Except Fault (Figure α) := combine "-" (· - ·) (· - ·) a b

def times (a b : Figure α) : Except Fault (Figure α) := combine "*" (· * ·) (· * ·) a b

/-- The sum of some figures, from left to right. -/
def sum (figures : List (Figure α)) : Except Fault (Figure α) := figures.foldlM plus (whole 0)

def isPositive : Figure α → Bool
  | whole n => decide (0 < n)
  | decimal x => decide (Scalar.zero < x)
  | other v => v.isPresent && v.isNumber

/-- One hundred times the quotient of two figures; that of whole numbers is rounded once. -/
def percent (part all : Figure α) : Except Fault α := do
  match part, all with
  | whole m, whole n =>
    match Scalar.percent? m n with
    | some x => .ok x
    | none => .error .quotientTooLarge
  | _, _ => return (← part.quantity "/") / (← all.quantity "/") * Scalar.ofInt 100

/-! ## 2. Whole figures -/

theorem plus_whole (m n : Int) : plus (whole m : Figure α) (whole n) = .ok (whole (m + n)) := rfl

theorem minus_whole (m n : Int) : minus (whole m : Figure α) (whole n) = .ok (whole (m - n)) := rfl

theorem foldlM_plus_whole (ns : List Int) (n : Int) :
    (ns.map (whole (α := α))).foldlM plus (whole n) = .ok (whole (n + ns.sum)) := by
  induction ns generalizing n with
  | nil => simp; rfl
  | cons m ms ih =>
    rw [List.map_cons, List.foldlM_cons, plus_whole]
    exact (ih (n + m)).trans (by rw [List.sum_cons, Int.add_assoc])

/-- Whole figures have a whole sum. -/
theorem sum_whole (ns : List Int) : sum (ns.map (whole (α := α))) = .ok (whole ns.sum) := by
  rw [sum, foldlM_plus_whole, Int.zero_add]

end Figure

/-! ## 3. Documents -/

def Figure.ofJson : Json → Figure Float
  | .whole n => .whole n
  | .decimal x => .decimal x
  | v => .other v

/-- The figure of a key, with another one in its place when the key is missing. -/
def Figure.ofEntry (doc : Json) (key : String) (fallback : Figure Float) : Figure Float :=
  ((doc.get? key).map Figure.ofJson).getD fallback

def Figure.toJson : Figure Float → Json
  | .whole n => .whole n
  | .decimal x => .decimal x
  | .other v => v

end PathAtlas
