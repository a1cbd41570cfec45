import TypedQuery.Number.Decimal

/-!
# Globally unique identifiers

A 128-bit identifier. It is written in lower-case hexadecimal with hyphens, and read with or without
them, in braces, or as a `urn:uuid:` name.
-/

namespace TypedQuery

/-- A 128-bit identifier. -/
structure Guid where
  bits : BitVec 128
  deriving DecidableEq

namespace Guid

/-- The value of a hexadecimal digit. -/
def hexDigit? (c : Char) : Option Nat :=
  if '0' ≤ c ∧ c ≤ '9' then some (c.toNat - '0'.toNat)
  else if 'a' ≤ c ∧ c ≤ 'f' then some (c.toNat - 'a'.toNat + 10)
  else if 'A' ≤ c ∧ c ≤ 'F' then some (c.toNat - 'A'.toNat + 10)
  else none

/-- The digits of a number in base sixteen, `n` of them. -/
def hexDigits : Nat → Nat → List Char
  | 0, _ => []
  | n + 1, x => hexDigits n (x / 16) ++ [Nat.digitChar (x % 16)]

/-- The number that hexadecimal digits spell. -/
def ofHex? (cs : List Char) : Option Nat :=
  cs.foldlM (fun n c => (hexDigit? c).map (16 * n + ·)) 0

/-- The sizes of the groups between hyphens. -/
def groupSizes : List Nat := [8, 4, 4, 4, 12]

/-- Cuts characters into groups and puts a hyphen between each two. -/
def hyphenate : List Nat → List Char → List Char
  | [], cs => cs
  | [_], cs => cs
  | n :: sizes, cs => cs.take n ++ '-' :: hyphenate sizes (cs.drop n)

/-- The characters without the hyphens between groups, which must all be there. -/
def unhyphenate? : List Nat → List Char → Option (List Char)
  | [], cs => some cs
  | [_], cs => some cs
  | n :: sizes, cs =>
    match cs.drop n with
    | '-' :: rest => (unhyphenate? sizes rest).map (cs.take n ++ ·)
    | _ => none

/-- Lower-case hexadecimal with hyphens. -/
def text (g : Guid) : String := String.ofList (hyphenate groupSizes (hexDigits 32 g.bits.toNat))

/-- The order of the bits. -/
def compare (a b : Guid) : Ordering := Ord.compare a.bits.toNat b.bits.toNat

/-- The characters of a hyphenated identifier inside braces or a name, if they are there. -/
def unwrap (cs : List Char) : List Char :=
  match cs with
  | '{' :: rest => if rest.getLast? = some '}' then rest.dropLast else cs
  | _ => if "urn:uuid:".toList.isPrefixOf cs then cs.drop 9 else cs

/-- Reads an identifier. -/
def ofText? (s : String) : Option Guid := do
  let cs := s.toList
  let hex ←
    if cs.length = 32 then some cs
    else
      let inner := unwrap cs
      if inner.length = 36 then unhyphenate? groupSizes inner else none
  let n ← ofHex? hex
  some ⟨BitVec.ofNat 128 n⟩

end Guid

end TypedQuery
