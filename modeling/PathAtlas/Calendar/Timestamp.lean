/-
# Timestamps in text

Dates with or without hyphens or by week, any one character, then a time of day with or
without colons, a fraction of a second and an offset from universal time.  The text is read as
bytes; behind its end stands a nought, which is no digit and no separator.

The result is a number of seconds since the first of January 1970.  It is counted exactly, in
microseconds, and rounded once at the end.  A time without an offset counts as universal time.

The grammar is not regular in its fields: whether colons are used is seen from the byte behind
the hours, and how long the date is from the length of the text and the places of a few marks
(`dateLength`).  The fields are read from the front, each with the number of bytes that its
region has left, and what is behind the last one decides whether the text is a timestamp at all.
What is none gives `none`; who asked for a timestamp says what becomes of that.
-/
import PathAtlas.Calendar.Date
import PathAtlas.Decimal.Rounding
import PathAtlas.Text.Blank

namespace PathAtlas.Calendar

-- Powers are the core ones here, whatever other instances are in scope.
attribute [local instance(2000)] instPowNat

/-- The text that is still to be read. -/
abbrev Rest := List Nat

def front (p : Rest) : Nat := p.headD 0

def isDigit (b : Nat) : Bool := 48 ≤ b && b ≤ 57

/-- The number in the next `n` bytes, all of which have to be digits, and what follows. -/
def digits (n : Nat) (p : Rest) : Option (Nat × Rest) :=
  let ds := p.take n
  if ds.length == n && ds.all isDigit then
    some (ds.foldl (fun v b => 10 * v + (b - 48)) 0, p.drop n)
  else none

/-- Codes of the characters that mean something. -/
def hyphen : Nat := 45
def colon : Nat := 58
def comma : Nat := 44
def point : Nat := 46
def plus : Nat := 43
def weekMark : Nat := 87

/-! ## 1. Dates -/

/-- How many bytes the date takes.  A week date may end with its week or with a day; where the
text leaves that open, the digits up to the next other character decide. -/
def dateLength (bs : Rest) : Option Nat :=
  let n := bs.length
  let byte (i : Nat) : Nat := bs.getD i 0
  if n == 7 then some 7
  else if byte 4 == hyphen then
    if byte 5 == weekMark then
      if n < 8 then none
      else if 8 < n && byte 8 == hyphen then
        if n == 9 then none
        else if 10 < n && isDigit (byte 10) then some 8
        else some 10
      else some 8
    else some 10
  else if byte 4 == weekMark then
    let stop := 7 + ((bs.drop 7).takeWhile isDigit).length
    if stop < 9 then some stop else if stop % 2 == 0 then some 7 else some 8
  else some 8

/-- A hyphen in front when hyphens are used. -/
def skipHyphen (used : Bool) (p : Rest) : Option Rest :=
  if used then (if front p == hyphen then some (p.drop 1) else none) else some p

/-- The day number of the date in the first `n` bytes. -/
def readDate (n : Nat) (bs : Rest) : Option Nat := do
  let (year, p) ← digits 4 bs
  let hyphens := front p == hyphen
  let p := if hyphens then p.drop 1 else p
  if front p == weekMark then
    let (week, p) ← digits 2 (p.drop 1)
    if bs.length - p.length < n then
      let p ← skipHyphen hyphens p
      let (day, _) ← digits 1 p
      dayOfWeek year week day
    else dayOfWeek year week 1
  else
    let (month, p) ← digits 2 p
    let p ← skipHyphen hyphens p
    let (day, p) ← digits 2 p
    if bs.length - p.length == n then dayOf year month day else none

/-! ## 2. Times of day -/

/-- A time of day, or an offset. -/
structure Clock where
  hour : Nat
  minute : Nat
  second : Nat
  micro : Nat
  /-- Something is left behind the last field. -/
  more : Bool

/-- The fraction of a second in front of the last `left` bytes: six digits count and any
further ones are skipped. -/
def readFraction (p : Rest) (left : Nat) : Option (Nat × Bool) := do
  let width := min left 6
  let (value, p) ← digits width p
  some (value * 10 ^ (6 - width), front (p.dropWhile isDigit) != 0)

/-- The fields from the `fields`-th last on, in a region of `left` bytes.  The byte behind the
hours says whether colons are used. -/
def readFields (first : Bool) (colons : Bool) : Nat → Rest → Nat → Option (List Nat × Nat × Bool)
  | 0, p, left => (readFraction p left).map fun (micro, more) => ([], micro, more)
  | fields + 1, p, left => do
    let (value, p) ← digits 2 p
    let mark := front p
    let colons := if first then mark == colon else colons
    if left ≤ 3 then some ([value], 0, mark != 0)
    else if colons && mark == colon then
      let (values, micro, more) ← readFields false colons fields (p.drop 1) (left - 3)
      some (value :: values, micro, more)
    else if mark == point || mark == comma then
      let (micro, more) ← readFraction (p.drop 1) (left - 3)
      some ([value], micro, more)
    else if !colons then
      let (values, micro, more) ← readFields false colons fields p (left - 2)
      some (value :: values, micro, more)
    else none

/-- The time of day in a region of `left` bytes. -/
def readClock (p : Rest) (left : Nat) : Option Clock :=
  (readFields true false 3 p left).map fun (values, micro, more) =>
    ⟨values.getD 0 0, values.getD 1 0, values.getD 2 0, micro, more⟩

def Clock.seconds (c : Clock) : Nat := c.hour * 3600 + c.minute * 60 + c.second

/-- Whether the fields are those of a time of day. -/
def Clock.isTimeOfDay (c : Clock) : Bool := c.hour < 24 && c.minute < 60 && c.second < 60

/-- The offset of a zone in microseconds; one without whole seconds is universal time.  An
offset of a day or more is none. -/
def zoneOffset (negative : Bool) (c : Clock) : Option Int :=
  let micros := Int.ofNat (c.seconds * 1000000 + c.micro)
  if c.more then none
  else if c.seconds == 0 then some 0
  else if micros < 86400000000 then some (if negative then -micros else micros)
  else none

/-- Microseconds since midnight of a time with its offset taken off. -/
def readTime (p : Rest) : Option Int := do
  let zone := (p.takeWhile fun b => b != plus && b != hyphen).length
  let clock ← readClock p zone
  let offset ←
    if zone == p.length then (if clock.more then none else some 0)
    else
      (readClock (p.drop (zone + 1)) (p.length - zone - 1)).bind
        (zoneOffset (front (p.drop zone) == hyphen))
  if clock.isTimeOfDay then
    some (Int.ofNat (clock.seconds * 1000000 + clock.micro) - offset)
  else none

/-! ## 3. Timestamps -/

/-- How many bytes a character takes, by its first one. -/
def characterLength (first : Nat) : Nat :=
  if first < 0x80 then 1 else if first / 16 == 14 then 3 else if first / 16 == 15 then 4 else 2

/-- Microseconds since 1970 of a date and time. -/
def readMicros (bs : Rest) : Option Int := do
  let n ← dateLength bs
  let day ← readDate n bs
  let rest := bs.drop n
  let time ← if rest.isEmpty then some 0 else readTime (rest.drop (characterLength (front rest)))
  some ((Int.ofNat day - Int.ofNat epochDay) * 86400000000 + time)

/-- Every `Z` stands for universal time. -/
def spellOutZulu (s : String) : String :=
  String.ofList (s.toList.flatMap fun c => if c == 'Z' then "+00:00".toList else [c])

/-- Seconds since 1970 of the date and time that a text spells, without the blanks around
it. -/
def readTimestamp? (s : String) : Option Float := do
  let bytes := (spellOutZulu (Text.strip s)).toUTF8.toList.map UInt8.toNat
  let micros ← readMicros bytes
  Decimal.quotientFloat? micros 1000000

end PathAtlas.Calendar
