import TypedQuery.Calendar.Span

/-!
# Times of day

A time of day is a second of the day and nanoseconds within it. A leap second has nanoseconds from
one second on: it is written as second sixty and behaves as an extra second when times are added.

* `Time.add`: a time later by a span, and the seconds of the days passed.
* `Time.since`: the span between two times.
-/

namespace TypedQuery

/-- A time of day. -/
structure Time where
  second : Nat
  nanos : Nat
  bounded : second < 86400 ∧ nanos < 2000000000
  deriving DecidableEq

namespace Time

/-- The time of a second of the day and nanoseconds within it. -/
def of? (second nanos : Nat) : Option Time :=
  if h : second < 86400 ∧ nanos < 2000000000 then some ⟨second, nanos, h⟩ else none

/-- The start of the day. -/
def midnight : Time := ⟨0, 0, by decide⟩

/-- Hour of the day. -/
def hourPart (t : Time) : Nat := t.second / 3600

/-- Minute of the hour. -/
def minutePart (t : Time) : Nat := t.second / 60 % 60

/-- Second of the minute; the second before a leap second and the leap second share it. -/
def secondPart (t : Time) : Nat := t.second % 60

/-- The order of times. -/
def compare (a b : Time) : Ordering :=
  (Ord.compare a.second b.second).then (Ord.compare a.nanos b.nanos)

/-- The fraction of a second: three, six or nine digits, the fewest that are exact. -/
def fractionText (nanos : Nat) : String :=
  if nanos = 0 then ""
  else if nanos % 1000000 = 0 then "." ++ padded 3 (nanos / 1000000)
  else if nanos % 1000 = 0 then "." ++ padded 6 (nanos / 1000)
  else "." ++ padded 9 nanos

/-- Hour, minute and second with colons, and the fraction. -/
def text (t : Time) : String :=
  let leap := decide (1000000000 ≤ t.nanos)
  let second := if leap then t.secondPart + 1 else t.secondPart
  let nanos := if leap then t.nanos - 1000000000 else t.nanos
  padded 2 t.hourPart ++ ":" ++ padded 2 t.minutePart ++ ":" ++ padded 2 second
    ++ fractionText nanos

/-- The time at a second counted from midnight and nanoseconds within it, and the seconds of the
whole days before it. -/
def normalize (second : Int) (nanos : Nat) : Time × Int :=
  let ofDay := (second % 86400).toNat
  ((of? ofDay nanos).getD midnight, second - ofDay)

/-- The time a span later, and the seconds of the whole days passed. Leaving a leap second skips
it; staying within it or the second before keeps the second of the day. -/
def add (t : Time) (s : Span) : Time × Int :=
  let seconds := s.seconds
  let fraction := s.subsecond
  let nanos : Int := t.nanos
  let leap := decide (1000000000 ≤ nanos)
  let leaves :=
    decide (0 < seconds) || (decide (0 < fraction) && decide (2000000000 ≤ nanos + fraction))
  let returns := decide (seconds < 0)
  if leap && !leaves && !returns then
    ((of? t.second (nanos + fraction).toNat).getD t, 0)
  else
    let start : Int := if leap && !leaves then t.second + 1 else t.second
    let nanos := (if leap then nanos - 1000000000 else nanos) + fraction
    normalize (start + seconds + nanos / 1000000000) (nanos % 1000000000).toNat

/-- Nanoseconds from `b` to `a` on one day. -/
def since (a b : Time) : Int :=
  let leap : Int :=
    if b.second < a.second then (if 1000000000 ≤ b.nanos then 1 else 0)
    else if a.second < b.second then (if 1000000000 ≤ a.nanos then -1 else 0)
    else 0
  ((a.second : Int) - b.second + leap) * 1000000000 + ((a.nanos : Int) - b.nanos)

/-- Ticks of 100 ns since midnight. -/
def ticks (t : Time) : Int := t.second * 10000000 + t.nanos / 100

end Time

end TypedQuery
