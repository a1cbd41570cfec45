import TypedQuery.Expr

/-!
# The text of expressions

An expression as text: operators between their operands in parentheses, collection operators after
their first argument, a value by reference with a mark before its name.

* `Expr.text`, `Lambda.text`.
-/

namespace TypedQuery

namespace Expr

/-- The parameters of a lambda: one alone, several in parentheses. -/
def paramsText : List Param → String
  | [p] => p.name
  | ps => "(" ++ Text.joinWith ", " (ps.map Param.name) ++ ")"

/-- A call from the texts of its arguments. -/
def callText (m : Method) (args : List String) : String :=
  match args with
  | source :: rest =>
    if m.isCollectionOperator then
      source ++ "." ++ m.text ++ "(" ++ Text.joinWith ", " rest ++ ")"
    else m.text ++ "(" ++ Text.joinWith ", " args ++ ")"
  | [] => m.text ++ "()"

mutual

/-- The expression as text. -/
def text (e : Expr) : String :=
  match e with
  | .const v _ => v.text
  | .captured name _ _ => "@" ++ name
  | .param p => p.name
  | .member source m => text source ++ "." ++ m.name
  | .index source key => text source ++ "[" ++ text key ++ "]"
  | .binary op l r _ _ => "(" ++ text l ++ " " ++ op.symbol ++ " " ++ text r ++ ")"
  | .unary .not x _ => "!" ++ text x
  | .unary .negate x _ => "-" ++ text x
  | .convert x t => "Convert(" ++ text x ++ ", " ++ t.text ++ ")"
  | .typeIs x t => "(" ++ text x ++ " is " ++ t.text ++ ")"
  | .typeAs x t => "(" ++ text x ++ " as " ++ t.text ++ ")"
  | .cond test a b _ => "IIF(" ++ text test ++ ", " ++ text a ++ ", " ++ text b ++ ")"
  | .call m args _ => callText m (argTexts args)
  | .lambda params body => paramsText params ++ " => " ++ text body
  | .container slots => slotsText (slotTexts slots)
  | .wrapper ⟨kind, g, c, s, i, m⟩ =>
    Wrapper.text ⟨kind, memberText g, memberText c, memberText s, memberText i, memberText m⟩
  | .slot chain name _ => text chain ++ "[" ++ name ++ "]"
termination_by structural e

/-- The texts of arguments. -/
def argTexts (args : List Expr) : List String :=
  match args with
  | [] => []
  | e :: rest => text e :: argTexts rest
termination_by structural args

/-- The names of slots with the texts of their values. -/
def slotTexts (slots : List (String × Expr)) : List (String × String) :=
  match slots with
  | [] => []
  | (name, e) :: rest => (name, text e) :: slotTexts rest
termination_by structural slots

/-- The text of a member that may be missing. -/
def memberText (member : Option Expr) : Option String :=
  match member with
  | none => none
  | some e => some (text e)
termination_by structural member

end

end Expr

/-- The lambda as text. -/
def Lambda.text (l : Lambda) : String := l.toExpr.text

end TypedQuery
