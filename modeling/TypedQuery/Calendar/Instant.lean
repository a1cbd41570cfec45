import TypedQuery.Calendar.Date
import TypedQuery.Calendar.Time

/-!
# Dates with times

A `DateTime` is a date and a time of day. An `OffsetDateTime` is one in universal time together with
an offset in seconds; two of them are equal, or ordered, as the instants they name, whatever their
offsets.

* `DateTime.add?`: later by a span, unless the calendar ends before.
* `OffsetDateTime.shown`: the day and the time that the offset shows.
-/

namespace TypedQuery

/-- A date and a time of day. -/
structure DateTime where
  date : Date
  time : Time
  deriving DecidableEq

namespace DateTime

/-- The order of dates with times. -/
def compare (a b : DateTime) : Ordering := (a.date.compare b.date).then (a.time.compare b.time)

/-- Date, blank, time. -/
def text (t : DateTime) : String := t.date.text ++ " " ++ t.time.text

/-- Later by a span, unless the calendar ends before. -/
def add? (t : DateTime) (s : Span) : Option DateTime :=
  let (time, passed) := t.time.add s
  (t.date.addDays? (passed.tdiv 86400)).map fun date => ⟨date, time⟩

/-- Nanoseconds from `b` to `a`. -/
def since (a b : DateTime) : Int :=
  (a.date.day.number - b.date.day.number) * (secondsPerDay * nanosPerSecond)
    + a.time.since b.time

end DateTime

/-- An instant, shown with an offset from universal time in seconds, of less than a day. -/
structure OffsetDateTime where
  utc : DateTime
  offset : Int
  bounded : offset.natAbs < 86400
  deriving DecidableEq

namespace OffsetDateTime

/-- The instant in universal time. -/
def ofUtc (t : DateTime) : OffsetDateTime := ⟨t, 0, by decide⟩

/-- The day and the time that the offset shows. -/
def shown (t : OffsetDateTime) : Day × Time :=
  let (time, passed) := Time.normalize (t.utc.time.second + t.offset) t.utc.time.nanos
  (Day.ofNumber (t.utc.date.day.number + passed / 86400), time)

/-- The day that the offset shows. -/
def day (t : OffsetDateTime) : Day := t.shown.1

/-- The time of day that the offset shows. -/
def time (t : OffsetDateTime) : Time := t.shown.2

/-- The date and time that the offset shows, unless the calendar ends before. -/
def shown? (t : OffsetDateTime) : Option DateTime :=
  (Date.ofDay? t.day).map fun date => ⟨date, t.time⟩

/-- The instant that shows as `t` with an offset, if there is such an offset. -/
def ofShown? (t : DateTime) (offset : Int) : Option OffsetDateTime :=
  if h : offset.natAbs < 86400 then
    let (time, passed) := Time.normalize (t.time.second - offset) t.time.nanos
    (t.date.addDays? (passed / 86400)).map fun date => ⟨⟨date, time⟩, offset, h⟩
  else none

/-- The order of the instants. -/
def compare (a b : OffsetDateTime) : Ordering := a.utc.compare b.utc

/-- The offset in hours and minutes. -/
def offsetText (offset : Int) : String :=
  let minutes := (offset.natAbs + 30) / 60
  (if offset < 0 then "-" else "+") ++ padded 2 (minutes / 60) ++ ":" ++ padded 2 (minutes % 60)

/-- Date, `T`, time and offset. -/
def text (t : OffsetDateTime) : String :=
  t.day.text ++ "T" ++ t.time.text ++ offsetText t.offset

/-- Later by a span, unless the calendar ends before. -/
def add? (t : OffsetDateTime) (s : Span) : Option OffsetDateTime :=
  (t.utc.add? s).map fun utc => ⟨utc, t.offset, t.bounded⟩

end OffsetDateTime

end TypedQuery
