import TypedQuery.Calendar.Instant
import TypedQuery.Number.Decimal
import TypedQuery.Text.Blank

/-!
# Reading dates and times

Dates and times as text. The plain forms take unpadded numbers with white space before them, and a
year has at most four digits unless it has a sign; the form with an offset is strict about widths.

* `readDate?`: `2020-02-29`. `readTime?`: `12:34:56.789`. `readDateTime?`: both, with a `T` between.
* `readOffsetDateTime?`: `2020-02-29T12:34:56.789+02:00`, or `Z` for no offset.
-/

namespace TypedQuery.Calendar

open Number (isDigit ofDigits)

/-- A number of at least `least` and at most `most` digits, and the rest. -/
def number? (least most : Nat) (cs : List Char) : Option (Nat × List Char) :=
  let digits := (cs.take most).takeWhile isDigit
  if digits.length < least then none else some (ofDigits digits, cs.drop digits.length)

/-- A number whose value is bounded. -/
def field? (least most low high : Nat) (cs : List Char) : Option (Nat × List Char) := do
  let (n, rest) ← number? least most cs
  if low ≤ n ∧ n ≤ high then some (n, rest) else none

/-- A character, then the rest. -/
def char? (c : Char) : List Char → Option (List Char)
  | [] => none
  | d :: rest => if d = c then some rest else none

/-- A fraction of a second in nanoseconds; digits past the ninth do not count. -/
def fraction? (cs : List Char) : Option (Nat × List Char) :=
  match cs with
  | '.' :: rest =>
    let digits := rest.takeWhile isDigit
    if digits.isEmpty then none
    else
      let kept := digits.take 9
      some (ofDigits kept * Nat.pow 10 (9 - kept.length), rest.drop digits.length)
  | _ => some (0, cs)

/-- A year: four digits at most, or any number of them after a sign. -/
def year? (cs : List Char) : Option (Int × List Char) := do
  match Text.trimStart cs with
  | '-' :: rest =>
    let (n, rest) ← number? 1 rest.length rest
    some (-(n : Int), rest)
  | '+' :: rest =>
    let (n, rest) ← number? 1 rest.length rest
    some ((n : Int), rest)
  | cs =>
    let (n, rest) ← number? 1 4 cs
    some ((n : Int), rest)

/-- One or two digits, after white space. -/
def short? (low high : Nat) (cs : List Char) : Option (Nat × List Char) :=
  field? 1 2 low high (Text.trimStart cs)

/-- A year, a month and a day with hyphens. -/
def date? (cs : List Char) : Option (Date × List Char) := do
  let (year, cs) ← year? cs
  let cs ← char? '-' cs
  let (month, cs) ← short? 1 12 cs
  let cs ← char? '-' cs
  let (day, cs) ← short? 1 31 cs
  let date ← Date.ofDay? ⟨year, month, day⟩
  some (date, cs)

/-- The time of an hour, a minute, a second and nanoseconds; second sixty is a leap second. -/
def timeOf? (hour minute second nanos : Nat) : Option Time :=
  if second = 60 then Time.of? (hour * 3600 + minute * 60 + 59) (1000000000 + nanos)
  else Time.of? (hour * 3600 + minute * 60 + second) nanos

/-- An hour, a minute and a second with colons, and a fraction. -/
def time? (cs : List Char) : Option (Time × List Char) := do
  let (hour, cs) ← short? 0 23 cs
  let cs ← char? ':' cs
  let (minute, cs) ← short? 0 59 cs
  let cs ← char? ':' cs
  let (second, cs) ← short? 0 60 cs
  let (nanos, cs) ← fraction? cs
  let time ← timeOf? hour minute second nanos
  some (time, cs)

/-- All of the text, and nothing after it. -/
def whole? {α : Type} (r : Option (α × List Char)) : Option α :=
  match r with
  | some (a, []) => some a
  | _ => none

/-- Reads a date. -/
def readDate? (s : String) : Option Date := whole? (date? s.toList)

/-- Reads a time of day. -/
def readTime? (s : String) : Option Time := whole? (time? s.toList)

/-- Reads a date and a time with a `T` between them. -/
def readDateTime? (s : String) : Option DateTime := whole? do
  let (date, cs) ← date? s.toList
  let cs ← char? 'T' cs
  let (time, cs) ← time? cs
  some (⟨date, time⟩, cs)

/-- An offset from universal time in seconds. -/
def offset? (cs : List Char) : Option (Int × List Char) := do
  match cs with
  | [] => none
  | c :: rest =>
    if c = 'Z' ∨ c = 'z' then some (0, rest)
    else if c = '+' ∨ c = '-' ∨ c = '−' then
      let (hours, rest) ← field? 2 2 0 23 rest
      let rest ← char? ':' rest
      let (minutes, rest) ← field? 2 2 0 59 rest
      let seconds : Int := hours * 3600 + minutes * 60
      some (if c = '+' then seconds else -seconds, rest)
    else none

/-- Reads a date, a time and an offset. -/
def readOffsetDateTime? (s : String) : Option OffsetDateTime := do
  let (year, cs) ← number? 4 4 s.toList
  let cs ← char? '-' cs
  let (month, cs) ← field? 2 2 1 12 cs
  let cs ← char? '-' cs
  let (day, cs) ← field? 2 2 1 31 cs
  let cs ←
    match cs with
    | c :: rest => if c = 'T' ∨ c = 't' ∨ c = ' ' then some rest else none
    | [] => none
  let (hour, cs) ← field? 2 2 0 23 cs
  let cs ← char? ':' cs
  let (minute, cs) ← field? 2 2 0 59 cs
  let cs ← char? ':' cs
  let (second, cs) ← field? 2 2 0 60 cs
  let (nanos, cs) ← fraction? cs
  let offset ← whole? (offset? cs)
  let date ← Date.ofDay? ⟨year, month, day⟩
  let time ← timeOf? hour minute second nanos
  OffsetDateTime.ofShown? ⟨date, time⟩ offset

end TypedQuery.Calendar
