import TypedQuery.Expr

/-!
# Numbering of parameters

Two expressions that differ only in the numbers of their parameters mean the same. `Expr.renumbered`
numbers parameters by their first appearance, from left to right and from the outside in, so that
such expressions become equal.
-/

namespace TypedQuery

/-- A computation that numbers parameters; the state are those seen, in order. -/
abbrev NumberM := StateM (List Nat)

/-- The parameter with the number of its first appearance. -/
def Param.renumber (p : Param) : NumberM Param := fun seen =>
  match seen.idxOf? p.id with
  | some i => ({ p with id := i }, seen)
  | none => ({ p with id := seen.length }, seen ++ [p.id])

namespace Expr

mutual

/-- Numbers the parameters of an expression. -/
def renumber (e : Expr) : NumberM Expr := do
  match e with
  | .const v t => return .const v t
  | .captured name v t => return .captured name v t
  | .param p => return .param (← p.renumber)
  | .member source m => return .member (← renumber source) m
  | .index source key =>
    let source ← renumber source
    return .index source (← renumber key)
  | .binary op l r lifted t =>
    let l ← renumber l
    return .binary op l (← renumber r) lifted t
  | .unary op x t => return .unary op (← renumber x) t
  | .convert x t => return .convert (← renumber x) t
  | .typeIs x t => return .typeIs (← renumber x) t
  | .typeAs x t => return .typeAs (← renumber x) t
  | .cond test a b t =>
    let test ← renumber test
    let a ← renumber a
    return .cond test a (← renumber b) t
  | .call m args t => return .call m (← renumberAll args) t
  | .lambda params body =>
    let params ← params.mapM Param.renumber
    return .lambda params (← renumber body)
  | .container slots => return .container (← renumberSlots slots)
  | .wrapper ⟨kind, g, c, s, i, m⟩ =>
    let g ← renumberMember g
    let c ← renumberMember c
    let s ← renumberMember s
    let i ← renumberMember i
    return .wrapper ⟨kind, g, c, s, i, ← renumberMember m⟩
  | .slot chain name t => return .slot (← renumber chain) name t
termination_by structural e

/-- Numbers the parameters of expressions in turn. -/
def renumberAll (es : List Expr) : NumberM (List Expr) := do
  match es with
  | [] => return []
  | e :: rest =>
    let e ← renumber e
    return e :: (← renumberAll rest)
termination_by structural es

/-- Numbers the parameters of slots in turn. -/
def renumberSlots (slots : List (String × Expr)) : NumberM (List (String × Expr)) := do
  match slots with
  | [] => return []
  | (name, e) :: rest =>
    let e ← renumber e
    return (name, e) :: (← renumberSlots rest)
termination_by structural slots

/-- Numbers the parameters of a member that may be missing. -/
def renumberMember (member : Option Expr) : NumberM (Option Expr) := do
  match member with
  | none => return none
  | some e => return some (← renumber e)
termination_by structural member

end

/-- The expression with its parameters numbered by first appearance. -/
def renumbered (e : Expr) : Expr := (e.renumber.run []).1

end Expr

end TypedQuery
