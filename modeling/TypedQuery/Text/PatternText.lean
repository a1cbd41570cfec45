import TypedQuery.External
import TypedQuery.Number.Decimal
import TypedQuery.Text.Blank
import TypedQuery.Text.Pattern

/-!
# A stand-in for an engine of patterns

To run queries, something has to read their patterns. This is a small engine for that, of literals, `.`, the
anchors `^` and `$`, the repetitions `*`, `+`, `?` and `{m,n}`, alternatives, groups, bracketed sets, and
escapes of single characters and of digits. It refuses what else the patterns of an engine may be made of, and
what breaks the rules: a repetition with nothing to repeat, an unclosed or unopened bracket, a range whose ends
are in the wrong order. Nothing is proved of it or by it.

* `Pattern.ofText?`: the reader.
* `External.standIn`: the engine, for an application that has no aggregates.
-/

namespace TypedQuery

namespace Text

/-- Whether a character stands for itself after a backslash: all of ASCII but letters and digits
does. -/
def isEscapable (c : Char) : Bool :=
  c.toNat < 0x80 && !c.isAlphanum && c != '<' && c != '>'

/-- The character that a backslash and a letter stand for. -/
def controlEscape? : Char → Option Char
  | 'n' => some '\n'
  | 't' => some '\t'
  | 'r' => some '\r'
  | 'f' => some '\x0C'
  | 'v' => some '\x0B'
  | 'a' => some '\x07'
  | _ => none

/-- The set that an escape stands for; `c` follows the backslash. -/
def escapeSet? (c : Char) : Option CharSet :=
  if c == 'd' then some ⟨[], true, false, false⟩
  else if c == 'D' then some ⟨[], false, true, false⟩
  else if isEscapable c then some (.single c)
  else (controlEscape? c).map .single

/-- The characters that `.` stands for: all but a line feed. -/
def anyChar : CharSet := ⟨[('\n', '\n')], false, false, true⟩

/-- One member of a bracketed set: a character, or a set named by an escape. -/
def scanSetItem : List Char → Option ((Char ⊕ CharSet) × List Char)
  | [] => none
  | '\\' :: c :: rest =>
    (escapeSet? c).map fun s =>
      match s.ranges with
      | [(a, _)] => (.inl a, rest)
      | _ => (.inr s, rest)
  | '\\' :: [] => none
  | c :: rest => some (.inl c, rest)

/-- Adds a member to a set. -/
def CharSet.add (s t : CharSet) : CharSet :=
  ⟨s.ranges ++ t.ranges, s.digits || t.digits, s.nonDigits || t.nonDigits, s.negated⟩

/-- The start of a bracketed set: hyphens stand for themselves there, and so does a closing bracket
that is its first member. -/
def openSet (negated : Bool) (cs : List Char) : CharSet × List Char :=
  let s : CharSet := ⟨[], false, false, negated⟩
  match cs with
  | ']' :: rest => (s.add (.single ']'), rest)
  | '-' :: _ => (s.add (.single '-'), cs.dropWhile (· == '-'))
  | _ => (s, cs)

/-- One member of a bracketed set, or the two ends of a range; a range has characters at both
ends. -/
def scanSetRange (cs : List Char) : Option (CharSet × List Char) := do
  let (item, rest) ← scanSetItem cs
  match item, rest with
  | .inl a, '-' :: c :: after =>
    if c = ']' ∨ c = '-' then some (.single a, rest)
    else
      let (last, after) ← scanSetItem (c :: after)
      match last with
      | .inl b => if a ≤ b then some (⟨[(a, b)], false, false, false⟩, after) else none
      | .inr _ => none
  | .inr t, '-' :: c :: _ => if c = ']' ∨ c = '-' then some (t, rest) else none
  | .inl a, _ => some (.single a, rest)
  | .inr t, _ => some (t, rest)

/-- The members of a bracketed set up to its closing bracket. Sets inside and operations on sets are refused. -/
def scanSet : Nat → CharSet → List Char → Option (CharSet × List Char)
  | 0, _, _ => none
  | fuel + 1, s, cs =>
    match cs with
    | [] | '[' :: _ | '&' :: '&' :: _ | '-' :: '-' :: _ | '~' :: '~' :: _ => none
    | ']' :: rest => some (s, rest)
    | cs => do
      let (t, rest) ← scanSetRange cs
      scanSet fuel (s.add t) rest

/-- A bracketed set after its opening bracket. -/
def bracketed? (cs : List Char) : Option (CharSet × List Char) :=
  let (s, rest) :=
    match cs with
    | '^' :: rest => openSet true rest
    | cs => openSet false cs
  scanSet (rest.length + 1) s rest

/-- A decimal number with white space around it. -/
def scanCount (cs : List Char) : Option (Nat × List Char) :=
  let cs := trimStart cs
  let ds := cs.takeWhile Number.isDigit
  let n := Number.ofDigits ds
  if ds.isEmpty || 4294967295 < n then none else some (n, trimStart (cs.dropWhile Number.isDigit))

/-- The bounds between braces, the opening one being read. -/
def scanBounds (cs : List Char) : Option ((Nat × Option Nat) × List Char) := do
  let (low, rest) ← scanCount cs
  match rest with
  | '}' :: rest => some ((low, some low), rest)
  | ',' :: '}' :: rest => some ((low, none), rest)
  | ',' :: rest =>
    let (high, rest) ← scanCount rest
    match rest with
    | '}' :: rest => if low ≤ high then some ((low, some high), rest) else none
    | _ => none
  | _ => none

/-- The repetition that follows an item, if one does. A question mark after it only says which
match to prefer. -/
def scanRepetition : List Char → Option (Option ((Nat × Option Nat) × List Char))
  | '*' :: rest => some (some ((0, none), lazily rest))
  | '+' :: rest => some (some ((1, none), lazily rest))
  | '?' :: rest => some (some ((0, some 1), lazily rest))
  | '{' :: rest => (scanBounds rest).map fun (bounds, rest) => some (bounds, lazily rest)
  | _ => some none
where
  /-- Drops a question mark. -/
  lazily : List Char → List Char
    | '?' :: rest => rest
    | cs => cs

/-- The pattern under construction: the alternatives before the last bar, the items since, and the
last item, which a repetition may still follow. -/
structure Draft where
  alternatives : Option Pattern
  items : Pattern
  last : Option Pattern

namespace Draft

/-- Nothing read yet. -/
def start : Draft := ⟨none, .empty, none⟩

/-- The items with the last one appended. -/
def sequence (s : Draft) : Pattern :=
  match s.last with
  | some p => .seq s.items p
  | none => s.items

/-- All that was read, as one pattern. -/
def close (s : Draft) : Pattern :=
  match s.alternatives with
  | some p => .alt p s.sequence
  | none => s.sequence

/-- Begins the next alternative. -/
def bar (s : Draft) : Draft := ⟨some s.close, .empty, none⟩

/-- Appends an item. -/
def push (s : Draft) (p : Pattern) : Draft := ⟨s.alternatives, s.sequence, some p⟩

end Draft

/-- What an opening parenthesis begins: a plain group, or one that is not numbered. -/
def groupBody? : List Char → Option (List Char)
  | '?' :: ':' :: rest => some rest
  | '?' :: _ => none
  | cs => some cs

/-- Reads the rest of the text; `outer` are the groups that are open around it. -/
def scanPattern : Nat → List Draft → Draft → List Char → Option Pattern
  | 0, _, _, _ => none
  | fuel + 1, outer, current, cs =>
    match cs with
    | [] => if outer.isEmpty then some current.close else none
    | '(' :: rest => do scanPattern fuel (current :: outer) .start (← groupBody? rest)
    | ')' :: rest =>
      match outer with
      | [] => none
      | around :: outer => scanPattern fuel outer (around.push current.close) rest
    | '|' :: rest => scanPattern fuel outer current.bar rest
    | '[' :: rest => do
      let (s, rest) ← bracketed? rest
      scanPattern fuel outer (current.push (.one s)) rest
    | '.' :: rest => scanPattern fuel outer (current.push (.one anyChar)) rest
    | '^' :: rest => scanPattern fuel outer (current.push .textStart) rest
    | '$' :: rest => scanPattern fuel outer (current.push .textEnd) rest
    | '\\' :: c :: rest => do
      scanPattern fuel outer (current.push (.one (← escapeSet? c))) rest
    | '\\' :: [] => none
    | c :: rest => do
      match ← scanRepetition cs with
      | some ((low, high), rest) =>
        match current.last with
        | some p =>
          scanPattern fuel outer { current with last := some (p.repeated low high) } rest
        | none => none
      | none => scanPattern fuel outer (current.push (.one (.single c))) rest

/-- The pattern that a text spells. -/
def Pattern.ofText? (s : String) : Option Pattern :=
  scanPattern (s.length + 1) [] .start s.toList

end Text

/-- The engine for running queries; the application has no aggregates. -/
@[reducible]
def External.standIn : External :=
  { External.absent with
    pattern := fun text =>
      match Text.Pattern.ofText? text with
      | some p => .ok p.found
      | none => .error "unsupported" }

end TypedQuery
