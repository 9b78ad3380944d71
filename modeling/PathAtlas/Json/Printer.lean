/-
# Writing documents

A document is written on one line, with a blank after each comma and colon, keys in the order of
the mapping, and characters beyond the ASCII range as they are.

How a decimal number is spelled depends on who reads it.  Its digits are always the shortest that
give the number back, but where the point and the exponent go, and what stands for a number that
is not finite, is for the style to say: `render` takes one and passes it down the tree.  Whole
numbers are written with all of their digits.
-/
import PathAtlas.Decimal.Numeral
import PathAtlas.Json.Value

namespace PathAtlas.Json

/-- One character of a written text. -/
def writtenChar (c : Char) : List Char :=
  if c == '"' then ['\\', '"']
  else if c == '\\' then ['\\', '\\']
  else if c == '\n' then ['\\', 'n']
  else if c == '\r' then ['\\', 'r']
  else if c == '\t' then ['\\', 't']
  else if c.toNat < 0x20 then '\\' :: 'u' :: Text.hex 4 c.toNat
  else [c]

def written (s : String) : String :=
  "\"" ++ String.ofList (s.toList.flatMap writtenChar) ++ "\""

mutual

/-- The written form of a value, on one line, with numbers spelled as `style` says. -/
def render (style : Decimal.Style) : Json → String
  | null => "null"
  | bool b => if b then "true" else "false"
  | whole n => toString n
  | decimal x => style.spell x
  | text s => written s
  | list xs => "[" ++ renderItems style xs ++ "]"
  | mapping es => "\x7b" ++ renderEntries style es ++ "\x7d"

def renderItems (style : Decimal.Style) : List Json → String
  | [] => ""
  | [x] => render style x
  | x :: y :: xs => render style x ++ ", " ++ renderItems style (y :: xs)

def renderEntries (style : Decimal.Style) : List (String × Json) → String
  | [] => ""
  | [(k, v)] => written k ++ ": " ++ render style v
  | (k, v) :: e :: es =>
    written k ++ ": " ++ render style v ++ ", " ++ renderEntries style (e :: es)

end

end PathAtlas.Json
