import TypedQuery.External
import TypedQuery.Text.Blank
import TypedQuery.Text.Case
import TypedQuery.Text.Search
import TypedQuery.Value.Convert
import TypedQuery.Value.Order

/-!
# Scalar functions

What the functions of scalar values give. Positions and lengths of text count characters.

* `ScalarFunction.apply`: a function on its arguments.
-/

namespace TypedQuery

/-- The day of a value that has one. -/
def Value.dayPart? : Value → Option Day
  | .date d => some d.day
  | .dateTime t => some t.date.day
  | .dateTimeOffset t => some t.day
  | _ => none

/-- Hour, minute, second and nanosecond. -/
structure TimeParts where
  hour : Int
  minute : Int
  second : Int
  nanos : Int

/-- The parts of a time of day. -/
def Time.parts (t : Time) : TimeParts := ⟨t.hourPart, t.minutePart, t.secondPart, t.nanos⟩

/-- The parts of a span beyond its whole days. -/
def Span.parts (s : Span) : TimeParts :=
  ⟨(s.seconds.tdiv 3600).tmod 24, (s.seconds.tdiv 60).tmod 60, s.seconds.tmod 60, s.subsecond⟩

/-- The parts of the time of a value that has one. -/
def Value.timeParts? : Value → Option TimeParts
  | .timeOfDay t => some t.parts
  | .dateTime t => some t.time.parts
  | .dateTimeOffset t => some t.time.parts
  | .timeSpan s => some s.parts
  | _ => none

/-- The order as -1, 0 or 1. -/
def orderValue : Ordering → Value
  | .lt => .int32 (-1)
  | .eq => .int32 0
  | .gt => .int32 1

/-- The order of two values where null comes first. -/
def Value.compareNullFirst? (a b : Value) : Option Ordering :=
  match a.isNull, b.isNull with
  | true, true => some .eq
  | true, false => some .lt
  | false, true => some .gt
  | false, false => a.compare? b

/-- Whether all bits of a flag are set, of 128 bits. -/
def hasBits (n flag : Int) : Bool :=
  BitVec.ofInt 128 n &&& BitVec.ofInt 128 flag == BitVec.ofInt 128 flag

namespace ScalarFunction

/-- A part of a text: from a position on, or a number of characters from there. -/
def substring? (s : String) (start : Int) (count : Option Int) : Option String :=
  if start < 0 then none
  else
    match count with
    | none => some (Text.slice s start.toNat s.length)
    | some n => if n < 0 then none else some (Text.slice s start.toNat n.toNat)

/-- The functions of text. -/
def text? (f : ScalarFunction) (args : List Value) : Option Value :=
  match f, args with
  | .contains, [.string s, .string t] => some (.bool (Text.contains s t))
  | .startsWith, [.string s, .string t] => some (.bool (Text.startsWith s t))
  | .endsWith, [.string s, .string t] => some (.bool (Text.endsWith s t))
  | .length, [.string s] => some (.int32 s.length)
  | .substring, [.string s, start] =>
    start.asInt?.bind fun n => (substring? s n none).map .string
  | .substring, [.string s, start, count] =>
    start.asInt?.bind fun n => count.asInt?.bind fun m => (substring? s n (some m)).map .string
  | .toLower, [.string s] => some (.string (Text.toLower s))
  | .toUpper, [.string s] => some (.string (Text.toUpper s))
  | .trim, [.string s] => some (.string (Text.trim s))
  | .concat, [a, b] => some (.string (a.asString?.getD "" ++ b.asString?.getD ""))
  | _, _ => none

/-- The functions of dates and times. -/
def temporal? (f : ScalarFunction) (args : List Value) : Option Value :=
  match f, args with
  | .year, [v] => v.dayPart?.map fun d => .int32 d.year
  | .month, [v] => v.dayPart?.map fun d => .int32 d.month
  | .day, [v] => v.dayPart?.map fun d => .int32 d.day
  | .hour, [v] => v.timeParts?.map fun t => .int32 t.hour
  | .minute, [v] => v.timeParts?.map fun t => .int32 t.minute
  | .second, [v] => v.timeParts?.map fun t => .int32 t.second
  | .millisecond, [v] => v.timeParts?.map fun t => .int32 (t.nanos.tdiv 1000000)
  | .fractionalSeconds, [v] =>
    v.timeParts?.map fun t => .ofDecimal (Float.ofInt t.nanos / 1000000000.0)
  | _, _ => none

/-- The functions that compare. -/
def comparison? (f : ScalarFunction) (args : List Value) : Option Value :=
  match f, args with
  | .compare, [a, b] => (a.compareNullFirst? b).map orderValue
  | .bytesEqual, [.null, .null] => some (.bool true)
  | .bytesEqual, [.null, _] => some (.bool false)
  | .bytesEqual, [_, .null] => some (.bool false)
  | .bytesEqual, [.bytes a, .bytes b] => some (.bool (a == b))
  | .hasFlag, [v, flag] =>
    v.asInt?.bind fun n => flag.asInt?.map fun flag => .bool (hasBits n flag)
  | _, _ => none

/-- The place of a part in a text. It is found among the bytes, and counts the characters before it; -1 stands for
none. -/
def positionOf (s part : String) : Outcome Value :=
  match Text.find? s part with
  | none => .ok (.int32 (-1))
  | some byte => (orAbort (Text.before? s byte)).map fun before => .int32 before.length

/-- Whether a pattern matches somewhere in a text. -/
def matchPattern [External] (s pattern : String) : Outcome Value :=
  match External.pattern pattern with
  | .ok found => .ok (.bool (found s))
  | .error reason => EvalError.fail (.invalidPattern reason)

/-- Rounds a number to an integer of its own type; an integer stays. -/
def roundValue (f : ScalarFunction) (mode : Number.Rounding) (v : Value) : Outcome Value :=
  match v, v.asFloat?, v.hostType? with
  | .int n, _, _ => .ok (.int n)
  | _, some x, some t => Value.ofFloat (Number.roundFloat mode x) t
  | v, _, _ => EvalError.fail (.notApplicable f [v])

/-- A function on its arguments. -/
def apply [External] (f : ScalarFunction) (args : List Value) : Outcome Value :=
  match f, args with
  | .indexOf, [.string s, .string part] => positionOf s part
  | .matchesPattern, [.string s, .string pattern] => matchPattern s pattern
  | .datePart, [v] => v.convert .date
  | .timePart, [v] => v.convert .timeOfDay
  | .round, [v] => roundValue f .halfToEven v
  | .floor, [v] => roundValue f .down v
  | .ceiling, [v] => roundValue f .up v
  | f, args =>
    orFail (.notApplicable f args)
      ((f.text? args).orElse fun _ => (f.temporal? args).orElse fun _ => f.comparison? args)

end ScalarFunction

end TypedQuery
