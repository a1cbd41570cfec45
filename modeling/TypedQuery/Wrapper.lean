import TypedQuery.HostType

/-!
# Wrappers

A wrapper is a record of one of the shapes that transformations produce. It has up to five members,
in a fixed order; which of them are there depends on its kind. The members are expressions while a
query is bound and values once it runs.

* `Wrapper.present`: the members that are there.
-/

namespace TypedQuery

/-- The members of wrappers. -/
inductive WrapperMember where
  | groupByContainer | container | source | inst | model
  deriving DecidableEq, Repr

namespace WrapperMember

/-- The name of a member. -/
def text : WrapperMember → String
  | .groupByContainer => "GroupByContainer"
  | .container => "Container"
  | .source => "Source"
  | .inst => "Instance"
  | .model => "Model"

/-- All members, in order. -/
def all : List WrapperMember := [.groupByContainer, .container, .source, .inst, .model]

/-- The member with a name. -/
def ofText? (name : String) : Option WrapperMember := all.find? fun m => m.text == name

end WrapperMember

/-- The name under which a group gives its key. -/
def keyName : String := "Key"

/-- A record of one of the shapes that transformations produce. -/
structure Wrapper (α : Type) where
  kind : WrapperKind
  groupByContainer : Option α
  container : Option α
  source : Option α
  inst : Option α
  model : Option α

namespace Wrapper

variable {α : Type}

/-- The wrapper without members. -/
def empty (kind : WrapperKind) : Wrapper α := ⟨kind, none, none, none, none, none⟩

/-- A member, if it is there. -/
def get? (w : Wrapper α) : WrapperMember → Option α
  | .groupByContainer => w.groupByContainer
  | .container => w.container
  | .source => w.source
  | .inst => w.inst
  | .model => w.model

/-- Gives a member a value. -/
def set (w : Wrapper α) (m : WrapperMember) (a : α) : Wrapper α :=
  match m with
  | .groupByContainer => { w with groupByContainer := some a }
  | .container => { w with container := some a }
  | .source => { w with source := some a }
  | .inst => { w with inst := some a }
  | .model => { w with model := some a }

/-- The members that are there, in order. -/
def present (w : Wrapper α) : List (WrapperMember × α) :=
  WrapperMember.all.filterMap fun m => (w.get? m).map (m, ·)

/-- The key of a group. -/
def groupBy (container : α) : Wrapper α :=
  { empty .groupBy with groupByContainer := some container }

/-- The one key of an ungrouped transformation. -/
def noGroupBy : Wrapper α := empty .noGroupBy

/-- The aggregates of a group, with the container of its key. -/
def aggregation (container groupByContainer : Option α) : Wrapper α :=
  { empty .aggregation with container := container, groupByContainer := groupByContainer }

/-- A record with the values that its aggregates reach through navigation. -/
def flattening (source container : α) : Wrapper α :=
  { empty .flattening with source := some source, container := some container }

/-- A record with computed columns. -/
def compute (inst model : α) (container : Option α) : Wrapper α :=
  { empty .compute with inst := some inst, model := some model, container := container }

/-- The members that are there with their texts. -/
def text (w : Wrapper String) : String :=
  "new " ++ w.kind.text ++ "("
    ++ Text.joinWith ", " (w.present.map fun (m, a) => m.text ++ " = " ++ a) ++ ")"

end Wrapper

/-- The text of a chain of slots. -/
def slotsText (slots : List (String × String)) : String :=
  "\x7b" ++ Text.joinWith ", " (slots.map fun (name, a) => name ++ " = " ++ a) ++ "\x7d"

end TypedQuery
