/-!
# Spans of time

A signed length of time in nanoseconds. Its size is at most `2^63 - 1` milliseconds, so sums are
partial: `Span.ofNanos?` refuses what is too long.

* `Span.text`: the ISO 8601 form in seconds.
-/

namespace TypedQuery

/-- Nanoseconds in a second. -/
def nanosPerSecond : Int := 1000000000

/-- Seconds in a day. -/
def secondsPerDay : Int := 86400

/-- The longest span, in nanoseconds. -/
def longestSpan : Int := 9223372036854775807000000

/-- A signed length of time. -/
structure Span where
  nanos : Int
  bounded : -longestSpan ≤ nanos ∧ nanos ≤ longestSpan
  deriving DecidableEq

namespace Span

/-- The span of a number of nanoseconds, unless it is too long. -/
def ofNanos? (n : Int) : Option Span :=
  if h : -longestSpan ≤ n ∧ n ≤ longestSpan then some ⟨n, h⟩ else none

/-- The same length the other way. -/
def neg (s : Span) : Span := ⟨-s.nanos, by have := s.bounded; omega⟩

/-- Whole seconds, toward zero. -/
def seconds (s : Span) : Int := s.nanos.tdiv nanosPerSecond

/-- Nanoseconds beyond the whole seconds, with the sign of the span. -/
def subsecond (s : Span) : Int := s.nanos.tmod nanosPerSecond

/-- Whole days, toward zero. -/
def days (s : Span) : Int := s.nanos.tdiv (secondsPerDay * nanosPerSecond)

/-- Ticks of 100 ns in the whole microseconds, if those fit in 64 bits. -/
def ticks? (s : Span) : Option Int :=
  let micros := s.nanos.tdiv 1000
  if -9223372036854775808 ≤ micros ∧ micros ≤ 9223372036854775807 then some (micros * 10) else none

end Span

/-- A number in decimal with at least `width` digits. -/
def padded (width n : Nat) : String :=
  let text := toString n
  "".pushn '0' (width - text.length) ++ text

/-- Drops trailing zeros of a fraction with the given number of places. -/
def trimFraction : Nat → Nat → Nat × Nat
  | 0, n => (0, n)
  | places + 1, n => if n % 10 = 0 then trimFraction places (n / 10) else (places + 1, n)

/-- ISO 8601 in seconds: `P0D`, or a sign, `PT`, the seconds with no trailing zeros, and `S`. -/
def Span.text (s : Span) : String :=
  if s.nanos = 0 then "P0D"
  else
    let total := s.nanos.natAbs
    let sign := if s.nanos < 0 then "-" else ""
    let (places, fraction) := trimFraction 9 (total % 1000000000)
    let tail := if places = 0 then "" else "." ++ padded places fraction
    sign ++ "PT" ++ toString (total / 1000000000) ++ tail ++ "S"

end TypedQuery
