import TypedQuery.Number.Binary

/-!
# Shortest decimal digits

The fewest decimal digits that still read back as the same binary number, and of those the nearest
to it. The value `m * 2^e` is read back from every decimal inside an interval around it; the
interval includes its ends when `m` is even. For one digit, two digits, and so on, the two
neighbours of the value on that decimal grid are tried, all in exact arithmetic.

* `Digits`: a decimal `digits * 10^exponent`.
* `shortest`: the search.
-/

namespace TypedQuery.Number

/-- The decimal `digits * 10^exponent`. -/
structure Digits where
  digits : Nat
  exponent : Int
  deriving DecidableEq, Repr

/-- Drops trailing zeros, at most `fuel` of them. -/
def Digits.strip : Nat → Digits → Digits
  | 0, d => d
  | fuel + 1, d =>
    if d.digits ≠ 0 ∧ d.digits % 10 = 0 then strip fuel ⟨d.digits / 10, d.exponent + 1⟩ else d

/-- The numbers that read back as one binary number, as fractions over `unit`: its value, and the
ends of the interval. -/
structure Interval where
  low : Nat
  value : Nat
  high : Nat
  unit : Nat
  closed : Bool

/-- The interval of `mantissa * 2^exponent`; below a power of two the gap is half as wide. -/
def Interval.around (mantissa : Nat) (exponent : Int) (narrowBelow : Bool) : Interval :=
  let scale := Nat.pow 2 (exponent - 2).toNat
  { low := (4 * mantissa - if narrowBelow then 1 else 2) * scale
    value := 4 * mantissa * scale
    high := (4 * mantissa + 2) * scale
    unit := Nat.pow 2 (2 - exponent).toNat
    closed := mantissa % 2 == 0 }

/-- Whether `n * 10^s` lies in the interval. -/
def Interval.holds (i : Interval) (n : Nat) (s : Int) : Bool :=
  let x := n * Nat.pow 10 s.toNat * i.unit
  let k := Nat.pow 10 (-s).toNat
  if i.closed then decide (i.low * k ≤ x ∧ x ≤ i.high * k)
  else decide (i.low * k < x ∧ x < i.high * k)

/-- The nearest decimal with the grid `10^s` in the interval, if there is one. -/
def Interval.onGrid? (i : Interval) (s : Int) : Option Nat :=
  let num := i.value * Nat.pow 10 (-s).toNat
  let den := i.unit * Nat.pow 10 s.toNat
  let below := num / den
  let rest := num % den
  match i.holds below s, i.holds (below + 1) s with
  | true, true =>
    if 2 * rest < den then some below
    else if den < 2 * rest then some (below + 1)
    else some (below + below % 2)
  | true, false => some below
  | false, true => some (below + 1)
  | false, false => none

/-- Tries finer and finer grids. -/
def Interval.search (i : Interval) : Nat → Int → Digits
  | 0, s => ⟨i.value * Nat.pow 10 (-s).toNat / (i.unit * Nat.pow 10 s.toNat), s⟩
  | tries + 1, s =>
    match i.onGrid? s with
    | some n => ⟨n, s⟩
    | none => i.search tries (s - 1)

/-- The greatest `p` with `10^p` at most the value, found from below within `fuel` steps. -/
def leadingPower (i : Interval) : Nat → Int → Int
  | 0, p => p
  | fuel + 1, p =>
    if i.unit * Nat.pow 10 (p + 1).toNat ≤ i.value * Nat.pow 10 (-(p + 1)).toNat then
      leadingPower i fuel (p + 1)
    else p

/-- A power of ten that is at most the value and within a few steps of it. -/
def roughPower (i : Interval) : Int :=
  (((Nat.log2 i.value : Int) - Nat.log2 i.unit) * 30103).fdiv 100000 - 1

/-- The fewest digits that read back as `mantissa * 2^exponent`, the mantissa not being zero. -/
def shortest (mantissa : Nat) (exponent : Int) (narrowBelow : Bool) : Digits :=
  let i := Interval.around mantissa exponent narrowBelow
  (i.search 17 (leadingPower i 4 (roughPower i))).strip 20

/-- The fewest digits of a magnitude in a format with `frac` fraction bits, whose least exponent is
`lowest`. -/
def Dyadic.shortestDigits (d : Dyadic) (frac : Nat) (lowest : Int) : Digits :=
  if d.mantissa = 0 then ⟨0, 0⟩
  else
    shortest d.mantissa d.exponent
      (d.mantissa == Nat.pow 2 frac && decide (lowest < d.exponent))

end TypedQuery.Number
