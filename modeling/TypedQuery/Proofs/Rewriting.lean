import Mathlib.Logic.Function.Basic
import TypedQuery.Proofs.Lockstep

/-!
# Expressions with other references and numbers

A rewriting puts literals of some form in the place of references, and gives parameters other numbers.
It keeps static types, and if it tells parameters apart, it keeps values. Two runs of binding whose
expressions become the same under two rewritings run alike, as long as guards do.

* `Rewriting`, `Expr.rewrite`: rewritings and what they make of an expression.
* **`Expr.eval_rewrite`**: rewritten expressions have the same values.
* `Expr.Matches`: expressions that become the same; `Expr.Matches.congruence`: a congruence.
* `Expr.Matches.rules`: the rules of binding, for such expressions.
-/

namespace TypedQuery

/-- Expressions in the place of references, each a literal of the same type and value, and numbers in
the place of the numbers of parameters. -/
structure Rewriting where
  reference : String → Value → HostType → Expr
  number : Nat → Nat
  type_reference : ∀ name v t, (reference name v t).type = t
  constValue_reference : ∀ name v t, (reference name v t).constValue? = some v

/-- The parameter with another number. -/
def Param.mapId (f : Nat → Nat) (p : Param) : Param := { p with id := f p.id }

/-- The environment with other numbers. -/
def Env.mapId (f : Nat → Nat) (env : Env) : Env := env.map fun entry => (f entry.1, entry.2)

theorem Env.lookup_mapId {f : Nat → Nat} (hf : Function.Injective f) (env : Env) (id : Nat) :
    (env.mapId f).lookup (f id) = env.lookup id := by
  induction env with
  | nil => rfl
  | cons entry rest ih =>
    have htest : (f id == f entry.1) = (id == entry.1) := by
      rw [Bool.eq_iff_iff, beq_iff_eq, beq_iff_eq]
      exact hf.eq_iff
    rw [Env.mapId, List.map_cons, List.lookup_cons, List.lookup_cons, htest]
    split
    · rfl
    · exact ih

namespace Expr

mutual

/-- The expression with other references and numbers. -/
def rewrite (w : Rewriting) (e : Expr) : Expr :=
  match e with
  | .const v t => .const v t
  | .captured name v t => w.reference name v t
  | .param p => .param (p.mapId w.number)
  | .member source m => .member (rewrite w source) m
  | .index source key => .index (rewrite w source) (rewrite w key)
  | .binary op l r lifted t => .binary op (rewrite w l) (rewrite w r) lifted t
  | .unary op x t => .unary op (rewrite w x) t
  | .convert x t => .convert (rewrite w x) t
  | .typeIs x t => .typeIs (rewrite w x) t
  | .typeAs x t => .typeAs (rewrite w x) t
  | .cond test a b t => .cond (rewrite w test) (rewrite w a) (rewrite w b) t
  | .call m args t => .call m (rewriteArgs w args) t
  | .lambda params body => .lambda (params.map (Param.mapId w.number)) (rewrite w body)
  | .container slots => .container (rewriteSlots w slots)
  | .wrapper ⟨kind, g, c, s, i, m⟩ =>
    .wrapper ⟨kind, rewriteMember w g, rewriteMember w c, rewriteMember w s, rewriteMember w i,
      rewriteMember w m⟩
  | .slot chain name t => .slot (rewrite w chain) name t
termination_by structural e

/-- Arguments with other references and numbers. -/
def rewriteArgs (w : Rewriting) (args : List Expr) : List Expr :=
  match args with
  | [] => []
  | e :: rest => rewrite w e :: rewriteArgs w rest
termination_by structural args

/-- Slots with other references and numbers. -/
def rewriteSlots (w : Rewriting) (slots : List (String × Expr)) : List (String × Expr) :=
  match slots with
  | [] => []
  | (name, e) :: rest => (name, rewrite w e) :: rewriteSlots w rest
termination_by structural slots

/-- A member that may be missing with other references and numbers. -/
def rewriteMember (w : Rewriting) (member : Option Expr) : Option Expr :=
  match member with
  | none => none
  | some e => some (rewrite w e)
termination_by structural member

end

variable {w : Rewriting}

theorem isLambda_of_constValue? {e : Expr} {v : Value} (h : e.constValue? = some v) :
    e.isLambda = false := by
  cases e <;> first | rfl | cases h

theorem type_rewrite (w : Rewriting) (e : Expr) : (e.rewrite w).type = e.type := by
  cases e with
  | captured name v t => exact w.type_reference name v t
  | lambda params body => exact type_rewrite w body
  | _ => rfl
termination_by structural e

theorem constValue?_rewrite (w : Rewriting) (e : Expr) : (e.rewrite w).constValue? = e.constValue? := by
  cases e with
  | captured name v t => exact w.constValue_reference name v t
  | _ => rfl

theorem isLambda_rewrite (w : Rewriting) (e : Expr) : (e.rewrite w).isLambda = e.isLambda := by
  cases e with
  | captured name v t => exact isLambda_of_constValue? (w.constValue_reference name v t)
  | _ => rfl

theorem lambdaType?_rewrite (w : Rewriting) (e : Expr) :
    (e.rewrite w).lambdaType? = e.lambdaType? := by
  cases e with
  | captured name v t =>
    exact lambdaType?_eq_none (isLambda_of_constValue? (w.constValue_reference name v t))
  | lambda params body => exact congrArg some (type_rewrite w body)
  | _ => rfl

theorem eval_of_constValue? [External] {e : Expr} {v : Value} (h : e.constValue? = some v) (env : Env) :
    e.eval env = .ok v := by
  cases e <;> cases h <;> rfl

/-! ## Values -/

mutual

/-- **A rewritten expression has the same value**, in an environment with the numbers that it has
then. -/
theorem eval_rewrite [External] (hw : Function.Injective w.number) (e : Expr) (env : Env) :
    (e.rewrite w).eval (env.mapId w.number) = e.eval env := by
  cases e with
  | const v t => rfl
  | captured name v t => exact eval_of_constValue? (w.constValue_reference name v t) _
  | param p => exact congrArg (orFail (.unboundParameter p.name)) (Env.lookup_mapId hw env p.id)
  | member source m => simp only [rewrite, eval, eval_rewrite hw source env]
  | index source key => simp only [rewrite, eval, eval_rewrite hw source env, eval_rewrite hw key env]
  | binary op l r lifted t => simp only [rewrite, eval, eval_rewrite hw l env, eval_rewrite hw r env]
  | unary op x t => simp only [rewrite, eval, eval_rewrite hw x env]
  | convert x t => simp only [rewrite, eval, eval_rewrite hw x env]
  | typeIs x t => simp only [rewrite, eval, eval_rewrite hw x env]
  | typeAs x t => simp only [rewrite, eval, eval_rewrite hw x env]
  | cond test a b t =>
    simp only [rewrite, eval, eval_rewrite hw test env, eval_rewrite hw a env, eval_rewrite hw b env]
  | call m args t => simp only [rewrite, eval, operands_rewrite hw args env]
  | lambda params body => rfl
  | container slots => simp only [rewrite, eval, evalSlots_rewrite hw slots env]
  | wrapper r =>
    obtain ⟨kind, g, c, s, i, m⟩ := r
    simp only [rewrite, eval, evalMember_rewrite hw g env, evalMember_rewrite hw c env,
      evalMember_rewrite hw s env, evalMember_rewrite hw i env, evalMember_rewrite hw m env]
  | slot chain name t => simp only [rewrite, eval, eval_rewrite hw chain env]
termination_by structural e

theorem operands_rewrite [External] (hw : Function.Injective w.number) (args : List Expr) (env : Env) :
    operands (rewriteArgs w args) (env.mapId w.number) = operands args env := by
  cases args with
  | nil => rfl
  | cons e rest =>
    have he (env : Env) := eval_rewrite hw e env
    have hrest := operands_rewrite hw rest env
    cases hlambda : e.isLambda with
    | false =>
      rw [rewriteArgs, operands_cons hlambda, operands_cons ((isLambda_rewrite w e).trans hlambda),
        he, hrest]
    | true =>
      cases e with
      | lambda params body =>
        -- the body is rewritten under the environment that its parameter extends
        have hbody (v : Value) : ((env.mapId w.number).bindFirst
            (params.map (Param.mapId w.number)) v).bind (fun inner => (body.rewrite w).eval inner) =
              (env.bindFirst params v).bind fun inner => body.eval inner := by
          cases params with
          | nil => rfl
          | cons p ps => exact eval_rewrite hw body ((p.id, v) :: env)
        simp only [rewriteArgs, rewrite, operands, hbody, hrest]
      | _ => cases hlambda
termination_by structural args

theorem evalSlots_rewrite [External] (hw : Function.Injective w.number) (slots : List (String × Expr))
    (env : Env) :
    evalSlots (rewriteSlots w slots) (env.mapId w.number) = evalSlots slots env := by
  cases slots with
  | nil => rfl
  | cons s rest =>
    obtain ⟨name, e⟩ := s
    simp only [rewriteSlots, evalSlots, eval_rewrite hw e env, evalSlots_rewrite hw rest env]
termination_by structural slots

theorem evalMember_rewrite [External] (hw : Function.Injective w.number) (member : Option Expr) (env : Env) :
    evalMember (rewriteMember w member) (env.mapId w.number) = evalMember member env := by
  cases member with
  | none => rfl
  | some e => simp only [rewriteMember, evalMember, eval_rewrite hw e env]
termination_by structural member

end

/-! ## Expressions that become the same -/

/-- The expressions become the same under two rewritings, and both or neither are the literal null. -/
structure Matches (w₁ w₂ : Rewriting) (e₁ e₂ : Expr) : Prop where
  rewrite : e₁.rewrite w₁ = e₂.rewrite w₂
  isNullConst : e₁.isNullConst = e₂.isNullConst

namespace Matches

variable {w₁ w₂ : Rewriting} {e₁ e₂ : Expr}

theorem type (h : Matches w₁ w₂ e₁ e₂) : e₁.type = e₂.type := by
  rw [← type_rewrite w₁, h.rewrite, type_rewrite]

theorem constValue? (h : Matches w₁ w₂ e₁ e₂) : e₁.constValue? = e₂.constValue? := by
  rw [← constValue?_rewrite w₁, h.rewrite, constValue?_rewrite]

theorem lambdaType? (h : Matches w₁ w₂ e₁ e₂) : e₁.lambdaType? = e₂.lambdaType? := by
  rw [← lambdaType?_rewrite w₁, h.rewrite, lambdaType?_rewrite]

theorem rewriteArgs {args₁ args₂ : List Expr} (h : List.Forall₂ (Matches w₁ w₂) args₁ args₂) :
    Expr.rewriteArgs w₁ args₁ = Expr.rewriteArgs w₂ args₂ := by
  induction h with
  | nil => rfl
  | cons he _ ih => rw [Expr.rewriteArgs, Expr.rewriteArgs, he.rewrite, ih]

theorem toExpr {l₁ l₂ : Lambda} (hparam : l₁.param.mapId w₁.number = l₂.param.mapId w₂.number)
    (hbody : Matches w₁ w₂ l₁.body l₂.body) : Matches w₁ w₂ l₁.toExpr l₂.toExpr where
  rewrite := by
    simp only [Lambda.toExpr, mkLambda, Expr.rewrite, List.map_cons, List.map_nil, hparam, hbody.rewrite]
  isNullConst := rfl

/-- **To become the same is a congruence**, where it decides about guards. -/
theorem congruence {c₁ c₂ : Context} (hschema : c₁.schema = c₂.schema)
    (hnull : c₁.settings.nullPropagation = c₂.settings.nullPropagation)
    (hguard : ∀ {e₁ e₂}, Matches w₁ w₂ e₁ e₂ → c₁.needsGuard e₁ = c₂.needsGuard e₂)
    (hmodel : ∀ s, w₁.reference "model" (.model s) .model = w₂.reference "model" (.model s) .model) :
    Congruence c₁ c₂ (Matches w₁ w₂) where
  schema := hschema
  nullPropagation := hnull
  type h := h.type
  isNullConst h := h.isNullConst
  constValue h := h.constValue?
  lambdaType h := h.lambdaType?
  needsGuard := hguard
  const _ _ := ⟨rfl, rfl⟩
  model s := ⟨hmodel s, rfl⟩
  member m h := ⟨by simp only [Expr.rewrite, h.rewrite], rfl⟩
  index hs hk := ⟨by simp only [Expr.rewrite, hs.rewrite, hk.rewrite], rfl⟩
  binary op lifted t hl hr := ⟨by simp only [Expr.rewrite, hl.rewrite, hr.rewrite], rfl⟩
  unary op t h := ⟨by simp only [Expr.rewrite, h.rewrite], rfl⟩
  convert t h := ⟨by simp only [Expr.rewrite, h.rewrite], rfl⟩
  typeIs t h := ⟨by simp only [Expr.rewrite, h.rewrite], rfl⟩
  typeAs t h := ⟨by simp only [Expr.rewrite, h.rewrite], rfl⟩
  cond t hb hx hy := ⟨by simp only [Expr.rewrite, hb.rewrite, hx.rewrite, hy.rewrite], rfl⟩
  call m t hargs := ⟨by simp only [Expr.rewrite, rewriteArgs hargs], rfl⟩

/-- The rules of binding for expressions that become the same. -/
theorem rules {K : Context → Context → Prop} {E : Error → Prop}
    (hcongruence : ∀ {c₁ c₂}, K c₁ c₂ → Congruence c₁ c₂ (Matches w₁ w₂))
    (hresolve : ∀ {c₁ c₂} v, K c₁ c₂ → Follows E (Matches w₁ w₂) (c₁.resolve v) (c₂.resolve v))
    (hconstant : ∀ v t, BindM.Relates K E Eq (Matches w₁ w₂) (BindM.constant v t) (BindM.constant v t)) :
    Rules K E Eq (Matches w₁ w₂) (Matches w₁ w₂) fun l₁ l₂ => Matches w₁ w₂ l₁.toExpr l₂.toExpr where
  errors _ := rfl
  congruence hc := (hcongruence hc).toNodeCongruence
  unguarded := id
  guard hc _ hsources hcall :=
    (hcongruence hc).guardCall ((hcongruence hc).filter_needsGuard hsources) hcall
  resolve := hresolve
  constant _ _ := hconstant _ _
  any hc hs hl := (hcongruence hc).mkCollection _ (.cons hs (.cons hl .nil))
  all hc hs hl := (hcongruence hc).mkCollection _ (.cons hs (.cons hl .nil))
  countWhere hc hs hl := (hcongruence hc).mkCollection _
    (.cons ((hcongruence hc).mkCollection _ (.cons hs (.cons hl .nil))) .nil)

end Matches

end Expr

end TypedQuery
