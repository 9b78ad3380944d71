/-
# Reading documents

The grammar of documents, with the names of the numbers that are not finite added.  A key that
comes twice keeps its first place and its last value.

The reader goes over a list of characters and gives back what follows the part that it has read.
`readText` and the number runs recurse on the characters themselves.  Values nest, and a value
inside a list is read from what the one before it has left, so `readValue`, `readItems` and
`readEntries` recurse on fuel: `parse?` gives twice the number of characters and two, and every
call takes at least one of them for each character or bracket that it passes.

A text that is no document gives `none`, without a reason: what is said about it depends on who
has asked.  Half of a pair of escapes that stands alone is read as a replacement character, since
a character is always a whole code point here.
-/
import PathAtlas.Json.Value
import PathAtlas.Text.Numeral

namespace PathAtlas.Json

/-! ## 1. Texts -/

def hexDigit? (c : Char) : Option Nat :=
  if '0' ≤ c && c ≤ '9' then some (c.toNat - '0'.toNat)
  else if 'a' ≤ c && c ≤ 'f' then some (c.toNat - 'a'.toNat + 10)
  else if 'A' ≤ c && c ≤ 'F' then some (c.toNat - 'A'.toNat + 10)
  else none

def hexQuad? (a b c d : Char) : Option Nat := do
  some (((← hexDigit? a) * 16 + (← hexDigit? b)) * 256 + (← hexDigit? c) * 16 + (← hexDigit? d))

/-- The character of a one-letter escape. -/
def shortEscape? : Char → Option Char
  | '"' => some '"'
  | '\\' => some '\\'
  | '/' => some '/'
  | 'b' => some '\x08'
  | 'f' => some '\x0c'
  | 'n' => some '\n'
  | 'r' => some '\r'
  | 't' => some '\t'
  | _ => none

/-- The character of two halves that together name one beyond the first plane. -/
def joinHalves (high low : Nat) : Char :=
  Char.ofNat (0x10000 + (high - 0xd800) * 0x400 + (low - 0xdc00))

/-- Whether a number is the first, or the second, half of such a pair. -/
def isHighHalf (n : Nat) : Bool := 0xd800 ≤ n && n < 0xdc00
def isLowHalf (n : Nat) : Bool := 0xdc00 ≤ n && n < 0xe000

/-- The character of a four-digit escape; half a pair alone is a replacement character. -/
def escapeChar (n : Nat) : Char :=
  if isHighHalf n || isLowHalf n then '\ufffd' else Char.ofNat n

/-- The rest of a text up to its closing quote, read onto `done` backwards, and what follows. -/
def readText : List Char → List Char → Option (String × List Char)
  | _, [] => none
  | done, '"' :: cs => some (String.ofList done.reverse, cs)
  | done, '\\' :: 'u' :: a :: b :: c :: d :: '\\' :: 'u' :: e :: f :: g :: h :: cs =>
    match hexQuad? a b c d, hexQuad? e f g h with
    | some m, some n =>
      if isHighHalf m && isLowHalf n then readText (joinHalves m n :: done) cs
      else readText (escapeChar m :: done) ('\\' :: 'u' :: e :: f :: g :: h :: cs)
    | _, _ => none
  | done, '\\' :: 'u' :: a :: b :: c :: d :: cs =>
    match hexQuad? a b c d with
    | some m => readText (escapeChar m :: done) cs
    | none => none
  | done, '\\' :: c :: cs =>
    match shortEscape? c with
    | some x => readText (x :: done) cs
    | none => none
  | done, c :: cs => if c.toNat < 0x20 || c == '\\' then none else readText (c :: done) cs

/-! ## 2. Numbers -/

def digitRun (cs : List Char) : List Char × List Char :=
  (cs.takeWhile Char.isDigit, cs.dropWhile Char.isDigit)

/-- The whole part of a number: one nought, or digits that begin with another one. -/
def wholeRun (cs : List Char) : Option (List Char × List Char) :=
  match cs with
  | '0' :: rest => some (['0'], rest)
  | _ =>
    match digitRun cs with
    | ([], _) => none
    | run => some run

/-- The fraction in front, with its point. -/
def fractionRun (cs : List Char) : List Char × List Char :=
  match cs with
  | '.' :: rest =>
    match digitRun rest with
    | ([], _) => ([], cs)
    | (ds, rest) => ('.' :: ds, rest)
  | _ => ([], cs)

/-- The exponent in front, with its letter and sign. -/
def exponentRun (cs : List Char) : List Char × List Char :=
  match cs with
  | c :: rest =>
    if c == 'e' || c == 'E' then
      let (sign, rest) :=
        match rest with
        | '+' :: r => (['+'], r)
        | '-' :: r => (['-'], r)
        | r => ([], r)
      match digitRun rest with
      | ([], _) => ([], cs)
      | (ds, rest) => (c :: sign ++ ds, rest)
    else ([], cs)
  | [] => ([], [])

def readNumber (negative : Bool) (cs : List Char) : Option (Json × List Char) := do
  let (ds, rest) ← wholeRun cs
  let (fraction, rest) := fractionRun rest
  let (exponent, rest) := exponentRun rest
  let sign := if negative then ['-'] else []
  if fraction.isEmpty && exponent.isEmpty then
    let n ← (Text.readWhole (String.ofList (sign ++ ds))).toOption
    some (whole n, rest)
  else
    let x ← Text.decimalOf (sign ++ ds ++ fraction ++ exponent)
    some (decimal x, rest)

/-! ## 3. Values -/

def skipBlanks (cs : List Char) : List Char :=
  cs.dropWhile fun c => c == ' ' || c == '\t' || c == '\n' || c == '\r'

/-- The words that stand for values. -/
def words : List (List Char × Json) :=
  [("null".toList, null), ("true".toList, bool true), ("false".toList, bool false),
   ("NaN".toList, decimal (0.0 / 0.0)), ("Infinity".toList, decimal (1.0 / 0.0)),
   ("-Infinity".toList, decimal (-1.0 / 0.0))]

def readWord (cs : List Char) : Option (Json × List Char) :=
  (words.find? fun w => w.1.isPrefixOf cs).map fun w => (w.2, cs.drop w.1.length)

mutual

/-- One value and what follows; every level of nesting and every part takes from the fuel. -/
def readValue : Nat → List Char → Option (Json × List Char)
  | 0, _ => none
  | fuel + 1, cs =>
    match cs with
    | '"' :: rest => (readText [] rest).map fun (s, rest) => (text s, rest)
    | '[' :: rest =>
      match skipBlanks rest with
      | ']' :: rest => some (list [], rest)
      | rest => readItems fuel [] rest
    | '\x7b' :: rest =>
      match skipBlanks rest with
      | '\x7d' :: rest => some (mapping [], rest)
      | rest => readEntries fuel [] rest
    | _ =>
      (readWord cs).orElse fun _ =>
        match cs with
        | '-' :: rest => readNumber true rest
        | _ => readNumber false cs

/-- The items of a list up to its end, read onto `done` backwards. -/
def readItems : Nat → List Json → List Char → Option (Json × List Char)
  | 0, _, _ => none
  | fuel + 1, done, cs =>
    match readValue fuel cs with
    | none => none
    | some (v, rest) =>
      match skipBlanks rest with
      | ',' :: rest => readItems fuel (v :: done) (skipBlanks rest)
      | ']' :: rest => some (list (v :: done).reverse, rest)
      | _ => none

/-- The entries of a mapping up to its end. -/
def readEntries : Nat → List (String × Json) → List Char → Option (Json × List Char)
  | 0, _, _ => none
  | fuel + 1, done, cs =>
    match cs with
    | '"' :: rest =>
      match readText [] rest with
      | none => none
      | some (key, rest) =>
        match skipBlanks rest with
        | ':' :: rest =>
          match readValue fuel (skipBlanks rest) with
          | none => none
          | some (v, rest) =>
            match skipBlanks rest with
            | ',' :: rest => readEntries fuel (put key v done) (skipBlanks rest)
            | '\x7d' :: rest => some (mapping (put key v done), rest)
            | _ => none
        | _ => none
    | _ => none

end

/-- The document that a text spells.  Each character is passed at most twice, which bounds the
fuel. -/
def parse? (s : String) : Option Json :=
  let cs := skipBlanks s.toList
  match readValue (2 * cs.length + 2) cs with
  | some (v, rest) => if (skipBlanks rest).isEmpty then some v else none
  | none => none

end PathAtlas.Json
