import TypedQuery.Text.Digit

/-!
# Patterns

Regular patterns over characters, with anchors, and the test whether a pattern matches somewhere in
a text. A match is found by partial derivatives: `step` lists what may remain of a pattern after one
character, and the search carries the list of all remainders along the text.

* `Pattern.accepts`: whether a pattern matches the empty text at a position.
* `Pattern.step`: what remains after one character.
* `Pattern.found`: whether some part of the text matches.
-/

namespace TypedQuery.Text

/-- A set of characters: ranges, digits of all scripts, or the rest of those. -/
structure CharSet where
  ranges : List (Char × Char)
  digits : Bool
  nonDigits : Bool
  negated : Bool
  deriving DecidableEq, Repr

/-- Whether a set has a character. -/
def CharSet.has (s : CharSet) (c : Char) : Bool :=
  (s.ranges.any (fun (a, b) => a ≤ c && c ≤ b)
    || (s.digits && isDecimalDigit c) || (s.nonDigits && !isDecimalDigit c)) != s.negated

/-- The set of one character. -/
def CharSet.single (c : Char) : CharSet := ⟨[(c, c)], false, false, false⟩

/-- Regular patterns with the anchors of the text's start and end. -/
inductive Pattern where
  | empty
  | one (s : CharSet)
  | textStart
  | textEnd
  | seq (p q : Pattern)
  | alt (p q : Pattern)
  | star (p : Pattern)
  deriving DecidableEq, Repr

namespace Pattern

/-- Whether a pattern matches the empty text at a position at the text's start, end, or inside. -/
def accepts (atStart atEnd : Bool) : Pattern → Bool
  | .empty => true
  | .one _ => false
  | .textStart => atStart
  | .textEnd => atEnd
  | .seq p q => p.accepts atStart atEnd && q.accepts atStart atEnd
  | .alt p q => p.accepts atStart atEnd || q.accepts atStart atEnd
  | .star _ => true

/-- The patterns that may remain after the character `c`, read at a position that is the text's
start or not. -/
def step (atStart : Bool) (c : Char) : Pattern → List Pattern
  | .empty | .textStart | .textEnd => []
  | .one s => if s.has c then [.empty] else []
  | .seq p q =>
    (p.step atStart c).map (fun r => if r = .empty then q else .seq r q)
      ++ if p.accepts atStart false then q.step atStart c else []
  | .alt p q => p.step atStart c ++ q.step atStart c
  | .star p => (p.step atStart c).map fun r => if r = .empty then .star p else .seq r (.star p)

/-- Carries the remainders of all matches begun so far along the text. -/
def search (p : Pattern) (atStart : Bool) (open? : List Pattern) : List Char → Bool
  | [] => (p :: open?).any (·.accepts atStart true)
  | c :: rest =>
    let current := p :: open?
    current.any (·.accepts atStart false)
      || search p false ((current.flatMap (·.step atStart c)).eraseDups) rest

/-- Whether some part of the text matches. -/
def found (p : Pattern) (s : String) : Bool := p.search true [] s.toList

/-- The pattern `n` times in a row. -/
def times (p : Pattern) : Nat → Pattern
  | 0 => .empty
  | n + 1 => .seq p (p.times n)

/-- The pattern at most `n` times. -/
def atMost (p : Pattern) : Nat → Pattern
  | 0 => .empty
  | n + 1 => .alt .empty (.seq p (p.atMost n))

/-- The pattern at least `low` times, and at most `high` times if there is a bound. -/
def repeated (p : Pattern) (low : Nat) (high : Option Nat) : Pattern :=
  match high with
  | none => .seq (p.times low) (.star p)
  | some high => .seq (p.times low) (p.atMost (high - low))

end Pattern

end TypedQuery.Text
