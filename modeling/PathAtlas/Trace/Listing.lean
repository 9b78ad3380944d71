/-
# Listings

The text that a route tracer prints: a header, then one line per step with its number and
either an address and a latency in milliseconds, or stars.  Any other line is passed over.

A line is looked at as its words (`hopOfWords`).  One with a number in front and the unit at its
end is answered, and its latency is the word before the unit; if that word is no number the line
is passed over, even when there are stars in it.  One with a star among its words and no unit at
its end is silent.  Steps are not counted and may come in any order: each has the number that its
line gives it.

Reading a listing cannot fail.  A text without any step shows no trace.
-/
import PathAtlas.Text.Numeral
import PathAtlas.Trace.Basic

namespace PathAtlas.Listing

/-! ## 1. Lines -/

/-- The unit at the end of an answered line. -/
def unit : String := "ms"

def answered (ttl : Int) (address : String) (latency : Float) : Hop Float :=
  { ttl := .whole ttl, hosts := [{ address }], loss := 0.0, average := some latency,
    best := some latency, worst := some latency, jitter := none, sent := .whole 1,
    received := .whole 1 }

def silent (ttl : Int) : Hop Float :=
  { ttl := .whole ttl, hosts := [], loss := 100.0, average := none, best := none, worst := none,
    jitter := none, sent := .whole 1, received := .whole 0 }

/-- The step of a line given by its words. -/
def hopOfWords (words : List String) : Option (Hop Float) :=
  match words with
  | number :: address :: rest =>
    match Text.readWhole number with
    | .error _ => none
    | .ok ttl =>
      if words.getLast? == some unit && 2 ≤ rest.length then
        match Text.readDecimal (words.getD (words.length - 2) "") with
        | .ok latency => some (answered ttl address latency)
        | .error _ => none
      else if words.contains wildcard then some (silent ttl)
      else none
  | _ => none

def hopOfLine (line : List Char) : Option (Hop Float) :=
  hopOfWords ((Text.words line).map String.ofList)

/-! ## 2. Whole listings -/

def hops (output : String) : List (Hop Float) :=
  ((Text.lines (Text.trimBy Text.isBlank output.toList)).drop 1).filterMap hopOfLine

/-- The trace that a listing shows; absent when it shows no step. -/
def trace (output source target : String) (time : Float) : Option (Trace Float) :=
  match hops output with
  | [] => none
  | first :: rest => some { source, target, hops := first :: rest, time }

end PathAtlas.Listing
