/-
# Faults

Everything that can go wrong, by cause.  A step that can fail gives an `Except Fault`, so which
failure it was is part of its answer and not only that there was one: a theorem that says how a
reading ends names the cause, and with it the value that was at fault.

`Fault.message` is the one place where the wording of each is kept.  A cause carries what its
wording needs, mostly the offending text or the `kind` of the offending value; two causes with
the same wording stay apart when the steps that give them do.  The last few stand for parties
outside of the library (the feed, the store, a listener), whose own words are passed on as they
are.

`Fault.isUnusableValue` marks off the causes that a value of the right kind can give.  The edges
of the library that answer a bad request rather than fail tell their faults apart by it.
-/
import PathAtlas.Text.Quoted

namespace PathAtlas

/-! ## 1. Causes -/

/-- What went wrong.  A `kind` is the name of a kind of document value. -/
inductive Fault where
  /-- A text that spells no whole number. -/
  | notWhole (text : String)
  /-- A text that spells no decimal number. -/
  | notDecimal (text : String)
  /-- A whole number spelled with more digits than are read. -/
  | tooManyDigits (count : Nat)
  /-- A whole number with more digits than are written. -/
  | wholeTooLong
  /-- A value of this kind is no whole number. -/
  | wholeFromKind (kind : String)
  /-- A value of this kind is no decimal number. -/
  | decimalFromKind (kind : String)
  /-- A whole number too large for floating point. -/
  | wholeTooLarge
  /-- An infinite number has no whole part. -/
  | wholeFromInfinity
  /-- What is not a number has no whole part. -/
  | wholeFromNotANumber
  /-- A quotient of whole numbers too large for floating point. -/
  | quotientTooLarge
  /-- A value of this kind has no named members. -/
  | noMembers (kind : String)
  /-- A value of this kind has no elements. -/
  | noElements (kind : String)
  /-- A value of this kind cannot be looked into. -/
  | noEntries (kind : String)
  /-- A list is looked into by position, not by name. -/
  | listByName
  /-- A text is looked into by position, not by name. -/
  | textByName
  /-- A mapping without the wanted entry. -/
  | missingKey (key : String)
  /-- A value of this kind cannot be a member of a set. -/
  | notInSets (kind : String)
  /-- Values of these kinds have no order. -/
  | noOrder (relation : String) (left right : String)
  /-- A value of this kind cannot be reckoned with; the sign says how it was to be. -/
  | noReckoning (sign kind : String)
  /-- A value of this kind has no length. -/
  | noLength (kind : String)
  /-- A value of this kind is no position. -/
  | notAPosition (kind : String)
  /-- Another number of values than wanted. -/
  | wrongCount (wanted count : Nat)
  /-- There is nothing to take the maximum of. -/
  | nothingToCompare
  /-- A division by nought. -/
  | divisionByZero
  /-- A step without length was to be brought to a length below nought. -/
  | stepWithoutLength
  /-- The heat of a simulation has no real value. -/
  | heatNotReal
  /-- A position outside of a list. -/
  | outOfRange
  /-- A named argument that is not known. -/
  | unknownArgument (name : String)
  /-- An order of route groups that is not known. -/
  | unknownTieBreak (text : String)
  /-- A layout that is not known. -/
  | unknownLayoutMode (text : String)
  /-- A simulation event that is not known. -/
  | unknownEvent (name : String)
  /-- A time window without width. -/
  | widthNotPositive
  /-- Loss thresholds in the wrong order. -/
  | healthyLossAboveCritical
  /-- Latency thresholds in the wrong order. -/
  | healthyLatencyAboveCritical
  /-- A simulation has no such node. -/
  | unknownNode (id : String)
  /-- A simulation was used after its end. -/
  | simulationDestroyed
  /-- A workspace that nobody has added records to. -/
  | unknownWorkspace (name : String)
  /-- The feed answered with this status. -/
  | feedStatus (status : String)
  /-- The feed answered with something other than a list of records. -/
  | feedNotRecords
  /-- The feed could not be reached. -/
  | connectionFailed (text : String)
  /-- A request was to go through a session that is closed. -/
  | sessionClosed
  /-- The store could not be reached. -/
  | storeUnreachable (text : String)
  /-- The store took a command for no good one. -/
  | storeRefused (text : String)
  /-- A party outside of the library refused. -/
  | refused (text : String)
  deriving Repr, DecidableEq

/-! ## 2. Wording -/

private def unlike (kind : String) : String := ", not '" ++ kind ++ "'"

def Fault.message : Fault → String
  | notWhole text =>
    "invalid literal for int() with base 10: "
      ++ String.ofList ((Text.quoted text).toList.take 200)
  | notDecimal text => "could not convert string to float: " ++ Text.quoted text
  | tooManyDigits count =>
    "Exceeds the limit (4300 digits) for integer string conversion: value has "
      ++ toString count ++ " digits; use sys.set_int_max_str_digits() to increase the limit"
  | wholeTooLong =>
    "Exceeds the limit (4300 digits) for integer string conversion; "
      ++ "use sys.set_int_max_str_digits() to increase the limit"
  | wholeFromKind kind =>
    "int() argument must be a string, a bytes-like object or a real number" ++ unlike kind
  | decimalFromKind kind => "float() argument must be a string or a real number" ++ unlike kind
  | wholeTooLarge => "int too large to convert to float"
  | wholeFromInfinity => "cannot convert float infinity to integer"
  | wholeFromNotANumber => "cannot convert float NaN to integer"
  | quotientTooLarge => "integer division result too large for a float"
  | noMembers kind => "'" ++ kind ++ "' object has no attribute 'get'"
  | noElements kind => "'" ++ kind ++ "' object is not iterable"
  | noEntries kind => "'" ++ kind ++ "' object is not subscriptable"
  | listByName => "list indices must be integers or slices, not str"
  | textByName => "string indices must be integers, not 'str'"
  | missingKey key => Text.quoted key
  | notInSets kind => "unhashable type: '" ++ kind ++ "'"
  | noOrder relation left right =>
    "'" ++ relation ++ "' not supported between instances of '" ++ left ++ "' and '" ++ right
      ++ "'"
  | noReckoning sign kind =>
    "unsupported operand type(s) for " ++ sign ++ ": 'int' and '" ++ kind ++ "'"
  | noLength kind => "object of type '" ++ kind ++ "' has no len()"
  | notAPosition kind => "'" ++ kind ++ "' object cannot be interpreted as an integer"
  | wrongCount wanted count =>
    if count < wanted then
      "not enough values to unpack (expected " ++ toString wanted ++ ", got " ++ toString count
        ++ ")"
    else "too many values to unpack (expected " ++ toString wanted ++ ")"
  | nothingToCompare => "max() arg is an empty sequence"
  | divisionByZero => "float floor division by zero"
  | stepWithoutLength => "float division by zero"
  | heatNotReal => "must be real number, not complex"
  | outOfRange => "list index out of range"
  | unknownArgument name => "unexpected keyword argument '" ++ name ++ "'"
  | unknownTieBreak text => "Unknown tie_break: " ++ text
  | unknownLayoutMode text => "Unknown layout mode: " ++ text
  | unknownEvent name => "Unknown simulation event: " ++ name
  | widthNotPositive => "bucket_seconds must be positive"
  | healthyLossAboveCritical => "healthy_loss_pct must not exceed critical_loss_pct"
  | healthyLatencyAboveCritical => "healthy_latency_ms must not exceed critical_latency_ms"
  | unknownNode id => id
  | simulationDestroyed => "Simulation has been destroyed"
  | unknownWorkspace name => "Unknown workspace: " ++ name
  | feedStatus status => "Upstream returned HTTP " ++ status
  | feedNotRecords => "Upstream response is not a record list"
  | connectionFailed text => text
  | sessionClosed => "Session is closed"
  | storeUnreachable text => text
  | storeRefused text => text
  | refused text => text

/-! ## 3. Kinds of causes -/

/-- Whether a value was of the right kind, but could not be used. -/
def Fault.isUnusableValue : Fault → Bool
  | notWhole _ | notDecimal _ | tooManyDigits _ | wholeTooLong | wholeFromNotANumber
  | wrongCount _ _ | nothingToCompare | unknownTieBreak _ | unknownLayoutMode _ | unknownEvent _
  | widthNotPositive | healthyLossAboveCritical | healthyLatencyAboveCritical | refused _ => true
  | _ => false

end PathAtlas
