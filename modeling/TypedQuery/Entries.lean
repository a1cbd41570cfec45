/-!
# Named entries

Values by name, in the order in which the names were first given. A name is given once: giving it
again replaces its value and keeps its place.

* `Entries.get?`, `Entries.insert`, `Entries.erase`, `Entries.names`.
-/

namespace TypedQuery

/-- Values by name, in order. -/
abbrev Entries (α : Type) := List (String × α)

namespace Entries

variable {α : Type}

/-- The value of a name. -/
def get? (es : Entries α) (name : String) : Option α := List.lookup name es

/-- Whether a name is given. -/
def has (es : Entries α) (name : String) : Bool := (get? es name).isSome

/-- Gives a name a value: in its old place, or at the end. -/
def insert (es : Entries α) (name : String) (a : α) : Entries α :=
  match es with
  | [] => [(name, a)]
  | (n, b) :: rest => if n == name then (n, a) :: rest else (n, b) :: insert rest name a

/-- Takes a name away. -/
def erase (es : Entries α) (name : String) : Entries α := es.filter fun e => e.1 != name

/-- The names in order. -/
def names (es : Entries α) : List String := es.map Prod.fst

/-- The entries that a list of pairs gives, one after the other. -/
def ofPairs (ps : List (String × α)) : Entries α := ps.foldl (fun es p => insert es p.1 p.2) []

/-- The entries with every value mapped. -/
def mapValues {β : Type} (f : α → β) (es : Entries α) : Entries β := es.map fun e => (e.1, f e.2)

end Entries

end TypedQuery
