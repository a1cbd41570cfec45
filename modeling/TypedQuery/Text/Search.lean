/-!
# Searching text

A part is looked for among the bytes of a text. The place where it is found is the number of a byte, and
the text before that place is cut off there, which needs a character to begin at that byte.

* `find?`: the byte at which a part first stands; `contains`: whether it does anywhere.
* `before?`: the text before a byte.
* `slice`: a part of the text by the numbers of characters.
-/

namespace TypedQuery.Text

/-- Characters in UTF-8. -/
def encode (cs : List Char) : List UInt8 := cs.flatMap String.utf8EncodeChar

/-- The bytes of a text. -/
def bytes (s : String) : List UInt8 := encode s.toList

/-! ## Bytes -/

/-- The first place of `part` in a list, the places counted from `i`. -/
def indexFrom? {α : Type} [BEq α] (part : List α) (i : Nat) : List α → Option Nat
  | [] => if part.isEmpty then some i else none
  | a :: rest => if part.isPrefixOf (a :: rest) then some i else indexFrom? part (i + 1) rest

/-- The byte at which `part` first stands in `s`. -/
def find? (s part : String) : Option Nat := indexFrom? (bytes part) 0 (bytes s)

/-- Whether bytes stand somewhere among others. -/
def isWithin (part : List UInt8) : List UInt8 → Bool
  | [] => part.isEmpty
  | b :: rest => part.isPrefixOf (b :: rest) || isWithin part rest

/-- Whether `part` stands somewhere in `s`. -/
def contains (s part : String) : Bool := isWithin (bytes part) (bytes s)

/-- Whether `s` starts with `part`. -/
def startsWith (s part : String) : Bool := (bytes part).isPrefixOf (bytes s)

/-- Whether `s` ends with `part`. -/
def endsWith (s part : String) : Bool := (bytes part).isSuffixOf (bytes s)

/-! ## Characters -/

/-- The characters that the first `n` bytes spell; none if these end inside a character. -/
def charsWithin? : List Char → Nat → Option (List Char)
  | _, 0 => some []
  | [], _ + 1 => none
  | c :: rest, n + 1 =>
    if c.utf8Size ≤ n + 1 then (charsWithin? rest (n + 1 - c.utf8Size)).map (c :: ·) else none

/-- The text before a byte, if a character begins there or the text ends there. -/
def before? (s : String) (byte : Nat) : Option String :=
  (charsWithin? s.toList byte).map String.ofList

/-- The characters from `start` on, at most `len` of them. -/
def slice (s : String) (start len : Nat) : String :=
  String.ofList ((s.toList.drop start).take len)

/-- Splits at every occurrence of a character; there is always at least one piece. -/
def splitChars (sep : Char) : List Char → List (List Char)
  | [] => [[]]
  | c :: rest =>
    match splitChars sep rest with
    | [] => [[c]]
    | piece :: pieces => if c == sep then [] :: piece :: pieces else (c :: piece) :: pieces

/-- The pieces with a separator between them. -/
def joinWith (sep : String) : List String → String
  | [] => ""
  | [s] => s
  | s :: rest => s ++ sep ++ joinWith sep rest

end TypedQuery.Text
