import TypedQuery.Text.CaseTable
import TypedQuery.Text.Digit

/-!
# Letter case

Upper and lower case of a text by the full mappings of the Unicode standard. A letter may become
several, and a capital sigma that ends a word becomes the final small sigma.

* `toUpper`, `toLower`: of a text.
* `asciiLower`: of names compared without regard to case, where only ASCII letters count.
-/

namespace TypedQuery.Text

/-- The counterpart of a code point in a table of runs. -/
def lookupRun (runs : List CaseRun) (n : Nat) : Option Char :=
  (runs.find? fun r => r.first ≤ n && n ≤ r.last && (n - r.first) % r.step == 0).map fun r =>
    Char.ofNat ((n : Int) + r.shift).toNat

/-- The counterpart of a character in a pair of tables; a character in neither stays. -/
def mapCase (special : List (Nat × List Nat)) (runs : List CaseRun) (c : Char) : List Char :=
  match special.lookup c.toNat with
  | some cs => cs.map Char.ofNat
  | none => [(lookupRun runs c.toNat).getD c]

/-- The upper case of a character. -/
def upperChar (c : Char) : List Char := mapCase upperSpecial upperRuns c

/-- The lower case of a character away from any context. -/
def lowerChar (c : Char) : List Char := mapCase lowerSpecial lowerRuns c

/-- The upper case of a text. -/
def toUpper (s : String) : String := String.ofList (s.toList.flatMap upperChar)

/-- Whether the next character that counts has case. -/
def casedNext (cs : List Char) : Bool :=
  match cs.dropWhile (inRanges ignorableRanges) with
  | c :: _ => inRanges casedRanges c
  | [] => false

/-- Lower case of `rest`, the characters before it being `before`, last one first. -/
def lowerFrom (before : List Char) : List Char → List Char
  | [] => []
  | c :: rest =>
    let lowered :=
      if c == 'Σ' then
        if casedNext before && !casedNext rest then ['ς'] else ['σ']
      else lowerChar c
    lowered ++ lowerFrom (c :: before) rest

/-- The lower case of a text. -/
def toLower (s : String) : String := String.ofList (lowerFrom [] s.toList)

/-- The text with its ASCII capitals in lower case. -/
def asciiLower (s : String) : String := String.ofList (s.toList.map Char.toLower)

end TypedQuery.Text
