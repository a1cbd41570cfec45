import TypedQuery.Json
import TypedQuery.Guid

/-!
# Reading JSON

The grammar of RFC 8259. An integer that fits in 64 bits, with or without a sign, is an integer;
every other number is a float, minus zero and integers that are too long included. A float is scaled
from at most 64 bits of its digits by a power of ten, in floating point; one that is out of range is
infinite.

* `Json.ofText?`: the reader.
-/

namespace TypedQuery.Json

open Number (isDigit digit? withSign)

/-- The characters after white space. -/
def skipBlank (cs : List Char) : List Char :=
  cs.dropWhile fun c => c == ' ' || c == '\n' || c == '\t' || c == '\r'

/-! ## Numbers -/

/-- The greatest number of 64 bits. -/
def greatestWord : Nat := 18446744073709551615

/-- The significand of a run of digits, and how many digits no longer fit in 64 bits. -/
def significand (digits : List Char) : Nat × Nat :=
  digits.foldl (fun (s, dropped) c =>
    let next := s * 10 + (digit? c).getD 0
    if dropped = 0 ∧ next ≤ greatestWord then (next, 0) else (s, dropped + 1)) (0, 0)

/-- Continues a significand with the digits after the point: the significand, how many digits it
took, and whether it is full. -/
def fraction (s : Nat) (digits : List Char) : Nat × Nat :=
  let (s, taken, _) := digits.foldl (fun (s, taken, full) c =>
    let next := s * 10 + (digit? c).getD 0
    if !full && decide (next ≤ greatestWord) then (next, taken + 1, false) else (s, taken, true))
    (s, 0, false)
  (s, taken)

/-- Multiplies by a power of ten in floating point; beyond the range of floats, infinity. -/
def scale : Nat → Float → Int → Float
  | 0, x, _ => x
  | fuel + 1, x, e =>
    if e.natAbs ≤ 308 then
      let power := Float.ofScientific 1 false e.natAbs
      if 0 ≤ e then x * power else x / power
    else if x == 0.0 then x
    else if 0 ≤ e then 1.0 / 0.0
    else scale fuel (x / 1e308) (e + 308)

/-- The exponent that follows, if one does. -/
def exponent? : List Char → Option (Option Int × List Char)
  | [] => some (none, [])
  | c :: rest =>
    if c == 'e' || c == 'E' then
      let (negative, rest) := Number.splitSign rest
      let digits := rest.takeWhile isDigit
      if digits.isEmpty then none
      else some (some (Number.signed negative (Number.ofDigits digits)), rest.dropWhile isDigit)
    else some (none, c :: rest)

/-- The digits after a point, if there is one. -/
def fractionDigits? : List Char → Option (Option (List Char) × List Char)
  | '.' :: rest =>
    let digits := rest.takeWhile isDigit
    if digits.isEmpty then none else some (some digits, rest.dropWhile isDigit)
  | cs => some (none, cs)

/-- An integer as a document: minus zero and what does not fit are floats. -/
def ofInteger (negative : Bool) (s : Nat) : Json :=
  if negative then
    if 0 < s ∧ s ≤ 9223372036854775808 then .int (-(s : Int)) else .float (-(Float.ofNat s))
  else .int s

/-- Reads the digits of a number after its sign. -/
def readNumber? (negative : Bool) (cs : List Char) : Option (Json × List Char) := do
  let whole := cs.takeWhile isDigit
  let rest := cs.dropWhile isDigit
  if whole.isEmpty ∨ (whole.head? = some '0' ∧ whole.length ≠ 1) then none
  let (fractional, rest) ← fractionDigits? rest
  let (exponent, rest) ← exponent? rest
  let (s, dropped) := significand whole
  match fractional, exponent, dropped with
  | none, none, 0 => some (ofInteger negative s, rest)
  | _, _, _ =>
    let (s, taken) := fraction s (fractional.getD [])
    let e : Int := dropped - taken + exponent.getD 0
    some (.float (withSign negative (scale 20 (Float.ofNat s) e)), rest)

/-! ## Strings -/

/-- Four hexadecimal digits. -/
def readHex? : List Char → Option (Nat × List Char)
  | a :: b :: c :: d :: rest => (Guid.ofHex? [a, b, c, d]).map (·, rest)
  | _ => none

/-- A character written by its code, a pair of surrogates included. -/
def readCode? (cs : List Char) : Option (Char × List Char) := do
  let (n, rest) ← readHex? cs
  if 0xD800 ≤ n ∧ n < 0xDC00 then
    match rest with
    | '\\' :: 'u' :: rest =>
      let (m, rest) ← readHex? rest
      if 0xDC00 ≤ m ∧ m < 0xE000 then
        some (Char.ofNat (0x10000 + (n - 0xD800) * 0x400 + (m - 0xDC00)), rest)
      else none
    | _ => none
  else if 0xDC00 ≤ n ∧ n < 0xE000 then none
  else some (Char.ofNat n, rest)

/-- The character of a one-letter escape. -/
def escaped? : Char → Option Char
  | '"' => some '"'
  | '\\' => some '\\'
  | '/' => some '/'
  | 'b' => some '\x08'
  | 'f' => some '\x0C'
  | 'n' => some '\n'
  | 'r' => some '\r'
  | 't' => some '\t'
  | _ => none

/-- Reads up to the closing quote; `read` are the characters before, last one first. -/
def readString? : Nat → List Char → List Char → Option (String × List Char)
  | 0, _, _ => none
  | fuel + 1, read, cs =>
    match cs with
    | [] => none
    | '"' :: rest => some (String.ofList read.reverse, rest)
    | '\\' :: 'u' :: rest =>
      match readCode? rest with
      | some (c, rest) => readString? fuel (c :: read) rest
      | none => none
    | '\\' :: e :: rest =>
      match escaped? e with
      | some c => readString? fuel (c :: read) rest
      | none => none
    | c :: rest => if c.toNat < 0x20 then none else readString? fuel (c :: read) rest

/-! ## Documents -/

mutual

/-- Reads a document; the fuel bounds the characters. -/
def readValue? : Nat → List Char → Option (Json × List Char)
  | 0, _ => none
  | fuel + 1, cs =>
    match skipBlank cs with
    | 'n' :: 'u' :: 'l' :: 'l' :: rest => some (.null, rest)
    | 't' :: 'r' :: 'u' :: 'e' :: rest => some (.bool true, rest)
    | 'f' :: 'a' :: 'l' :: 's' :: 'e' :: rest => some (.bool false, rest)
    | '"' :: rest => (readString? fuel [] rest).map fun (s, rest) => (.string s, rest)
    | '[' :: rest =>
      match skipBlank rest with
      | ']' :: rest => some (.array [], rest)
      | rest => readItems? fuel [] rest
    | '{' :: rest =>
      match skipBlank rest with
      | '}' :: rest => some (.object [], rest)
      | rest => readFields? fuel [] rest
    | '-' :: rest => readNumber? true rest
    | cs => readNumber? false cs

/-- Reads items up to the closing bracket. -/
def readItems? : Nat → List Json → List Char → Option (Json × List Char)
  | 0, _, _ => none
  | fuel + 1, read, cs =>
    match readValue? fuel cs with
    | none => none
    | some (j, rest) =>
      match skipBlank rest with
      | ']' :: rest => some (.array (j :: read).reverse, rest)
      | ',' :: rest => readItems? fuel (j :: read) rest
      | _ => none

/-- Reads fields up to the closing brace. -/
def readFields? : Nat → List (String × Json) → List Char → Option (Json × List Char)
  | 0, _, _ => none
  | fuel + 1, read, cs =>
    match skipBlank cs with
    | '"' :: rest =>
      match readString? fuel [] rest with
      | none => none
      | some (name, rest) =>
        match skipBlank rest with
        | ':' :: rest =>
          match readValue? fuel rest with
          | none => none
          | some (j, rest) =>
            match skipBlank rest with
            | '}' :: rest => some (.object ((name, j) :: read).reverse, rest)
            | ',' :: rest => readFields? fuel ((name, j) :: read) rest
            | _ => none
        | _ => none
    | _ => none

end

/-- The document that a text spells, with nothing after it. -/
def ofText? (s : String) : Option Json :=
  match readValue? (2 * s.length + 2) s.toList with
  | some (j, rest) => if (skipBlank rest).isEmpty then some j else none
  | none => none

end TypedQuery.Json
