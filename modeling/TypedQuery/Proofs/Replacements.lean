import TypedQuery.Proofs.LiftedOperands
import TypedQuery.Proofs.Rebinding

/-!
# Operands in each other's place

Two expressions of one type, with the same values and errors in some environments, of which both or neither are
the literal null, and which are the literals of the same text if they are literals of texts. Nothing else about
its operands is looked at by a logical operator, by a comparison of values of one kind, or by arithmetic: what
is bound with the one is bound with the other, or fails with the same error, and has the same values again.

* `Expr.Replaces`: such expressions; `Expr.Rebinds.replaces`: those of a node that is bound twice.
* `Bind.unifyEnums_replaces`, `Bind.promote_replaces`: operands brought together.
* **`Context.logical_replaces`**, **`Bind.not_replaces`**, **`Context.operation_replaces`**: operators.
-/

namespace TypedQuery

variable [External]

/-! ## Expressions -/

/-- One expression does for the other in some environments. -/
structure Expr.Replaces (V : Env → Prop) (e₁ e₂ : Expr) : Prop where
  type : e₁.type = e₂.type
  isNullConst : e₁.isNullConst = e₂.isNullConst
  text : ∀ s, e₁.constValue? = some (.string s) ↔ e₂.constValue? = some (.string s)
  eval : ∀ env, V env → e₁.eval env = e₂.eval env

namespace Expr.Replaces

variable {V : Env → Prop} {e e₁ e₂ l₁ l₂ r₁ r₂ : Expr}

theorem refl (e : Expr) : Replaces V e e := ⟨rfl, rfl, fun _ => .rfl, fun _ _ => rfl⟩

/-- Expressions that are no literals. -/
theorem of_eval (htype : e₁.type = e₂.type) (h₁ : e₁.constValue? = none) (h₂ : e₂.constValue? = none)
    (h : ∀ env, V env → e₁.eval env = e₂.eval env) : Replaces V e₁ e₂ where
  type := htype
  isNullConst := by
    have notNull {e : Expr} (he : e.constValue? = none) : e.isNullConst = false := by
      cases e <;> first | rfl | cases he
    rw [notNull h₁, notNull h₂]
  text s := by rw [h₁, h₂]
  eval := h

theorem convert (h : Replaces V e₁ e₂) (t : HostType) : Replaces V (.convert e₁ t) (.convert e₂ t) :=
  of_eval rfl rfl rfl fun env henv => by rw [Expr.eval, Expr.eval, h.eval env henv]

theorem convertTo (h : Replaces V e₁ e₂) (t : HostType) : Replaces V (e₁.convertTo t) (e₂.convertTo t) := by
  unfold Expr.convertTo
  rw [h.type]
  split_ifs
  · exact h
  · exact h.convert t

theorem mkUnary (h : Replaces V e₁ e₂) (op : UnaryOp) : Replaces V (.mkUnary op e₁) (.mkUnary op e₂) :=
  of_eval h.type rfl rfl fun env henv => by rw [Expr.mkUnary, Expr.mkUnary, Expr.eval, Expr.eval, h.eval env henv]

theorem mkBinary (hl : Replaces V l₁ l₂) (hr : Replaces V r₁ r₂) (op : BinaryOp) (lifted : Bool) :
    Replaces V (.mkBinary op l₁ r₁ lifted) (.mkBinary op l₂ r₂ lifted) := by
  have htype : binaryType op l₁.type r₁.type lifted = binaryType op l₂.type r₂.type lifted := by
    rw [hl.type, hr.type]
  refine of_eval htype rfl rfl fun env henv => ?_
  rw [Expr.mkBinary, Expr.mkBinary, Expr.eval, Expr.eval, hl.eval env henv, hr.eval env henv, htype]

/-- A choice between two values by the same test. -/
theorem mkCond {test : Expr} (hl : Replaces V l₁ l₂) (hr : Replaces V r₁ r₂) :
    Replaces V (.mkCond test l₁ r₁) (.mkCond test l₂ r₂) := by
  refine of_eval ?_ rfl rfl fun env henv => ?_
  · rw [Expr.mkCond, Expr.mkCond, Expr.type, Expr.type, hl.isNullConst, hl.type, hr.type]
  · rw [Expr.mkCond, Expr.mkCond, Expr.eval, Expr.eval, hl.eval env henv, hr.eval env henv]

/-- Results of an access through the same source. -/
theorem guardIfNeeded (h : Replaces V e₁ e₂) (ctx : Context) (source : Expr) :
    Replaces V (ctx.guardIfNeeded source e₁) (ctx.guardIfNeeded source e₂) := by
  unfold Context.guardIfNeeded Expr.guardedBy
  rw [h.type]
  split_ifs
  · exact (refl _).mkCond (h.convertTo _)
  · exact h

end Expr.Replaces

/-- A node that is bound twice is bound to expressions that do for each other. -/
theorem Expr.Rebinds.replaces {ctx : Context} {V : Env → Prop} {e₁ e₂ : Expr} (hctx : ctx.Rebindable)
    (h : Rebinds ctx e₁ e₂) : Replaces V e₁ e₂ where
  type := hctx.congruence.type h
  isNullConst := hctx.congruence.isNullConst h
  text s := by rw [hctx.congruence.constValue h]
  eval env _ := h.2.eval env

open TypedQuery.Expr (Replaces)
open NodeCongruence (OperandsRel)

/-- A node that is bound after other nodes as well. -/
theorem Context.Rebindable.bind_alike {ctx after : Context} (h : ctx.Rebindable) (hframe : ctx.Frame after)
    (node : Node) : (node.bind ctx).1.Alike (Replaces fun _ => True) (node.bind after).1 := by
  have hrebound := h.bind_after hframe node
  cases he₁ : (node.bind ctx).1 <;> cases he₂ : (node.bind after).1 <;> rw [he₁, he₂] at hrebound <;> cases hrebound
  case error.error => trivial
  case ok.ok hrebinds => exact hrebinds.replaces h

/-! ## Operands brought together -/

namespace Bind

variable {V : Env → Prop} {E : Error → Prop} {e₁ e₂ l₁ l₂ r₁ r₂ : Expr}

theorem enumLiteral_replaces (h : Replaces V e₁ e₂) (enum : EnumType) :
    enumLiteral e₁ enum = enumLiteral e₂ enum := by
  by_cases htext : ∃ s, e₂.constValue? = some (.string s)
  · obtain ⟨s, hs⟩ := htext
    rw [enumLiteral, enumLiteral, hs, (h.text s).mpr hs]
  · have other {e : Expr} (he : ¬ ∃ s, e.constValue? = some (.string s)) :
        enumLiteral e enum = .error (.typeMismatch enum.name e.type.text) := by
      unfold enumLiteral
      split
      next s hs => exact absurd ⟨s, hs⟩ he
      next => rfl
    have htext' : ¬ ∃ s, e₁.constValue? = some (.string s) := fun ⟨s, hs⟩ => htext ⟨s, (h.text s).mp hs⟩
    rw [other htext, other htext', h.type]

theorem toUnderlying_replaces (h : Replaces V e₁ e₂) (enum : EnumType) :
    Follows E (Replaces V) (toUnderlying e₁ enum) (toUnderlying e₂ enum) := by
  unfold toUnderlying
  dsimp only
  rw [h.type, h.isNullConst, enumLiteral_replaces h]
  split_ifs
  · exact .refl _
  · exact h.convert _
  · exact h.convertTo _
  · refine (Follows.eq_refl _).mono fun a b hab => ?_
    subst hab
    exact .refl a

theorem unifyEnums_replaces (hl : Replaces V l₁ l₂) (hr : Replaces V r₁ r₂) :
    Follows E (OperandsRel (Replaces V)) (unifyEnums l₁ r₁) (unifyEnums l₂ r₂) := by
  unfold unifyEnums
  rw [hl.type, hr.type]
  split
  · exact ⟨hl, hr⟩
  · exact (toUnderlying_replaces hl _).bind fun _ _ hl' => (toUnderlying_replaces hr _).bind fun _ _ hr' => ⟨hl', hr'⟩

theorem unifyNulls_replaces (hl : Replaces V l₁ l₂) (hr : Replaces V r₁ r₂) :
    OperandsRel (Replaces V) (unifyNulls l₁ r₁) (unifyNulls l₂ r₂) := by
  unfold unifyNulls
  rw [hl.isNullConst, hr.isNullConst, hl.type, hr.type]
  split
  · exact ⟨.refl _, hr⟩
  · exact ⟨hl, .refl _⟩
  · exact ⟨hl, hr⟩

theorem promote_replaces (hl : Replaces V l₁ l₂) (hr : Replaces V r₁ r₂) :
    Follows E (OperandsRel (Replaces V)) (promote l₁ r₁) (promote l₂ r₂) := by
  unfold promote
  rw [hl.type, hr.type]
  split_ifs
  · exact ⟨hl, hr⟩
  · exact ⟨hl.convertTo _, hr.convertTo _⟩
  · split
    · exact Follows.error _
    · exact ⟨hl.convertTo _, hr.convertTo _⟩

/-! ## Operators -/

theorem asBoolean_replaces (h : Replaces V e₁ e₂) : Follows E (Replaces V) (asBoolean e₁) (asBoolean e₂) := by
  unfold asBoolean
  rw [h.type]
  split_ifs
  · exact h
  · exact h.convert _
  · exact Follows.error _

theorem logical_replaces (op : BinaryOp) (hl : Replaces V l₁ l₂) (hr : Replaces V r₁ r₂) :
    Follows E (Replaces V) (logical op l₁ r₁) (logical op l₂ r₂) := by
  unfold logical
  refine (asBoolean_replaces hl).bind fun a b hab => (asBoolean_replaces hr).bind fun c d hcd => ?_
  dsimp only
  rw [hab.type, hcd.type]
  split_ifs
  · exact (hab.convertTo _).mkBinary (hcd.convertTo _) op false
  · exact hab.mkBinary hcd op false

/-- **Negation.** -/
theorem not_replaces (h : Replaces V e₁ e₂) :
    Follows E (Replaces V) (unaryOperation .not e₁) (unaryOperation .not e₂) := by
  unfold unaryOperation
  rw [h.type]
  dsimp only
  split_ifs
  · exact h.mkUnary .not
  · exact (h.convert _).mkUnary .not
  · exact Follows.error _

end Bind

namespace Context

variable {V : Env → Prop} {E : Error → Prop} {l₁ l₂ r₁ r₂ : Expr}

/-- **Logical operators.** -/
theorem logical_replaces (c₁ c₂ : Context) {op : QueryOp} {logical : BinaryOp} (hop : op.binaryOp? = some logical)
    (hlogical : logical.isLogical = true) (hl : Replaces V l₁ l₂) (hr : Replaces V r₁ r₂) :
    Follows E (Replaces V) (c₁.binary op l₁ r₁) (c₂.binary op l₂ r₂) := by
  unfold binary
  rw [hop]
  refine (Bind.unifyEnums_replaces hl hr).bind fun p q hpq => ?_
  have hnulls := Bind.unifyNulls_replaces hpq.1 hpq.2
  dsimp only
  rw [if_pos hlogical, if_pos hlogical]
  exact Bind.logical_replaces logical hnulls.1 hnulls.2

/-- **Operators on operands of one kind.** -/
theorem operation_replaces (ctx : Context) (op : BinaryOp) (hl : Replaces V l₁ l₂) (hr : Replaces V r₁ r₂) :
    Follows E (Replaces V) (Bind.promote l₁ r₁ >>= fun p => .ok (ctx.operation op p.1 p.2))
      (Bind.promote l₂ r₂ >>= fun p => .ok (ctx.operation op p.1 p.2)) := by
  refine (Bind.promote_replaces hl hr).bind fun p q hpq => ?_
  unfold operation
  rw [hpq.1.type, hpq.2.type, hpq.1.isNullConst, hpq.2.isNullConst]
  exact hpq.1.mkBinary hpq.2 op _

end Context

end TypedQuery
