/-
# Values inside text

How a document value reads where a text is wanted: a text as it is, a number by its shortest
decimal, containers with their texts quoted.

This is not how documents are written.  It is the wording that an identifier or a message takes
when the value behind it is no text, such as an agent named by a number, so two values of
different kinds can read alike (the number 7 and the text `7`) and what is made from the reading
cannot tell them apart.  The theorems about names therefore speak of values, and only those about
identifiers speak of how the values read.
-/
import PathAtlas.Decimal.Numeral
import PathAtlas.Json.Value

namespace PathAtlas.Json

/-! ## 1. Values in containers -/

mutual

/-- A value as it reads inside a container. -/
def inner : Json → String
  | null => "None"
  | bool b => if b then "True" else "False"
  | whole n => toString n
  | decimal x => Decimal.Style.plain.spell x
  | text s => Text.quoted s
  | list xs => "[" ++ innerItems xs ++ "]"
  | mapping es => "\x7b" ++ innerEntries es ++ "\x7d"

def innerItems : List Json → String
  | [] => ""
  | [x] => inner x
  | x :: y :: xs => inner x ++ ", " ++ innerItems (y :: xs)

def innerEntries : List (String × Json) → String
  | [] => ""
  | [(k, v)] => Text.quoted k ++ ": " ++ inner v
  | (k, v) :: e :: es => Text.quoted k ++ ": " ++ inner v ++ ", " ++ innerEntries (e :: es)

end

/-! ## 2. Values alone -/

def display : Json → String
  | text s => s
  | v => inner v

end PathAtlas.Json
