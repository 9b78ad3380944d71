/-
# Quoted text

A text inside a message stands between quotes, with everything that would not show written as
an escape.  Single quotes are used unless the text holds one and no double quote.

The chosen quote and the backslash are escaped by themselves, the three common controls by a
letter, and every other character that is not printable by its code point, in as few digits as
its size allows of two, four and eight.  A printable character stands as it is, whatever its
script, so the table of what is printable decides how a message reads.
-/
import PathAtlas.Text.Printable

namespace PathAtlas.Text

/-- Lower-case hexadecimal digits, filled up with noughts. -/
def hex (width n : Nat) : List Char :=
  let ds := Nat.toDigits 16 n
  List.replicate (width - ds.length) '0' ++ ds

/-- How one character is written between the given quotes. -/
def escaped (quote c : Char) : List Char :=
  if c == quote || c == '\\' then ['\\', c]
  else if c == '\n' then ['\\', 'n']
  else if c == '\r' then ['\\', 'r']
  else if c == '\t' then ['\\', 't']
  else if isPrintable c then [c]
  else if c.toNat < 0x100 then '\\' :: 'x' :: hex 2 c.toNat
  else if c.toNat < 0x10000 then '\\' :: 'u' :: hex 4 c.toNat
  else '\\' :: 'U' :: hex 8 c.toNat

def quoteFor (cs : List Char) : Char :=
  if cs.contains '\'' && !cs.contains '"' then '"' else '\''

def quoted (s : String) : String :=
  let cs := s.toList
  let q := quoteFor cs
  String.ofList (q :: cs.flatMap (escaped q) ++ [q])

end PathAtlas.Text
