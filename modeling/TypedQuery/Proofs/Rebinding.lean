import TypedQuery.Proofs.ComputedColumns
import TypedQuery.Proofs.RelatedItems

/-!
# Operands bound in another order

A node that is bound after another one gets other numbers for the parameters of nested scopes and other
names of references than if it is bound first. Binding does not see the difference, and neither does
evaluation: the expressions have the same values in every environment, whatever that says about the
numbers of nested scopes.

* `Expr.SameOperand`: expressions with the same values, also as arguments of calls;
  `Congruence.and_sameOperand`: to have them is a congruence.
* `Context.Rebindable`: the contexts in which nodes can be bound again; `Context.Rebindable.after`: all that
  clauses reach; `Context.Rebindable.derive`: those of nested clauses.
* **`Context.Rebindable.bind_after`**: a node bound again.
-/

namespace TypedQuery

/-! ## Expressions with the same values -/

namespace Expr

variable [External]

/-- The expressions are the same operand in every environment. -/
def SameOperand (e₁ e₂ : Expr) : Prop := ∀ env, operands [e₁] env = operands [e₂] env

variable {e₁ e₂ : Expr} {args₁ args₂ : List Expr}

theorem head_operands (e : Expr) (rest : List Expr) (env : Env) :
    (operands (e :: rest) env).head?.map Operand.value = some (e.eval env) := by
  cases e <;> rfl

theorem SameOperand.eval (h : SameOperand e₁ e₂) (env : Env) : e₁.eval env = e₂.eval env := by
  have hhead := head_operands e₁ [] env
  rw [h env, head_operands] at hhead
  exact (Option.some.inj hhead).symm

/-- A function is an operand of another kind than its value. -/
theorem SameOperand.of_eval (h₁ : e₁.isLambda = false) (h₂ : e₂.isLambda = false)
    (h : ∀ env, e₁.eval env = e₂.eval env) : SameOperand e₁ e₂ := by
  intro env
  rw [operands_cons h₁, operands_cons h₂, h]

theorem operands_append (e : Expr) (rest : List Expr) (env : Env) :
    operands (e :: rest) env = operands [e] env ++ operands rest env := by
  cases e <;> rfl

theorem operands_eq_of_forall₂ (h : List.Forall₂ SameOperand args₁ args₂) (env : Env) :
    operands args₁ env = operands args₂ env := by
  induction h with
  | nil => rfl
  | cons he _ ih => rw [operands_append, he env, ih, ← operands_append]

/-- Expressions that differ in numbers above those of their parameters have the same values. -/
theorem Renumbers.sameOperand {bound distance : Nat} (h : Moved bound distance e₁ e₂)
    (h₁ : e₁.UsesOnly (·.id < bound)) (h₂ : e₂.UsesOnly (·.id < bound)) : SameOperand e₁ e₂ := by
  intro env
  -- the environment without the numbers that are moved
  let known : Env := env.filter (·.1 < bound)
  have hlookup {id : Nat} (hid : id < bound) : env.lookup id = known.lookup id := by
    show env.lookup id = (env.filter (·.1 < bound)).lookup id
    induction env with
    | nil => rfl
    | cons entry rest ih =>
      rw [List.filter_cons, List.lookup_cons]
      by_cases hentry : id = entry.1
      · rw [if_pos (by rw [← hentry]; simpa using hid), List.lookup_cons, hentry]
        simp
      · have hne : (id == entry.1) = false := by simpa using hentry
        rw [hne, ih]
        split_ifs
        · rw [List.lookup_cons, hne]
        · rfl
  have hmoved : known.mapId (moveUp bound distance) = known := by
    refine (List.map_congr_left fun entry hentry => ?_).trans (List.map_id known)
    have hid : entry.1 < bound := by simpa using (List.mem_filter.mp hentry).2
    rw [moveUp_of_lt hid]
    rfl
  have hkept : known.mapId (fun id => id) = known := List.map_id _
  have same {e : Expr} (he : e.UsesOnly (·.id < bound)) : operands [e] env = operands [e] known :=
    operands_congr _ (List.forall_mem_singleton.mpr (he.mono fun _ => hlookup))
  calc operands [e₁] env = operands [e₁] known := same h₁
    _ = operands (rewriteArgs (.renumbering (moveUp bound distance)) [e₁]) known := by
      conv_rhs => rw [← hmoved]
      exact (operands_rewrite (w := .renumbering (moveUp bound distance)) (moveUp_injective _ _) _ _).symm
    _ = operands (rewriteArgs (.renumbering fun id => id) [e₂]) known := by
      rw [Matches.rewriteArgs (.cons h .nil)]
    _ = operands [e₂] known := by
      conv_lhs => rw [← hkept]
      exact operands_rewrite (w := .renumbering fun id => id) Function.injective_id _ _
    _ = operands [e₂] env := (same h₂).symm

end Expr

open TypedQuery.Expr (SameOperand)

/-- A congruence together with the values. -/
theorem Congruence.and_sameOperand [External] {c₁ c₂ : Context} {R : Expr → Expr → Prop}
    (h : Congruence c₁ c₂ R) :
    Congruence c₁ c₂ fun e₁ e₂ => R e₁ e₂ ∧ SameOperand e₁ e₂ where
  schema := h.schema
  nullPropagation := h.nullPropagation
  type he := h.type he.1
  isNullConst he := h.isNullConst he.1
  constValue he := h.constValue he.1
  lambdaType he := h.lambdaType he.1
  needsGuard he := h.needsGuard he.1
  const t hv := ⟨h.const t hv, fun _ => rfl⟩
  model s := ⟨h.model s, fun _ => rfl⟩
  member m hs := ⟨h.member m hs.1, .of_eval rfl rfl fun env => by rw [Expr.eval, Expr.eval, hs.2.eval]⟩
  index hs hk := ⟨h.index hs.1 hk.1, .of_eval rfl rfl fun env => by
    rw [Expr.eval, Expr.eval, hs.2.eval, hk.2.eval]⟩
  binary op lifted t hl hr := ⟨h.binary op lifted t hl.1 hr.1, .of_eval rfl rfl fun env => by
    rw [Expr.eval, Expr.eval, hl.2.eval, hr.2.eval]⟩
  unary op t he := ⟨h.unary op t he.1, .of_eval rfl rfl fun env => by rw [Expr.eval, Expr.eval, he.2.eval]⟩
  convert t he := ⟨h.convert t he.1, .of_eval rfl rfl fun env => by rw [Expr.eval, Expr.eval, he.2.eval]⟩
  typeIs t he := ⟨h.typeIs t he.1, .of_eval rfl rfl fun env => by rw [Expr.eval, Expr.eval, he.2.eval]⟩
  typeAs t he := ⟨h.typeAs t he.1, .of_eval rfl rfl fun env => by rw [Expr.eval, Expr.eval, he.2.eval]⟩
  cond t hb hx hy := ⟨h.cond t hb.1 hx.1 hy.1, .of_eval rfl rfl fun env => by
    rw [Expr.eval, Expr.eval, hb.2.eval, hx.2.eval, hy.2.eval]⟩
  call m t hargs := by
    refine ⟨h.call m t (hargs.imp fun _ _ he => he.1), .of_eval rfl rfl fun env => ?_⟩
    rw [Expr.eval, Expr.eval, Expr.operands_eq_of_forall₂ (hargs.imp fun _ _ he => he.2)]

/-! ## Contexts -/

namespace Context

theorem ReadsCurrent.applyTo [External] {ctx : Context} (h : ctx.ReadsCurrent) (t : Transformation)
    (source : Expr) : (t.applyTo source ctx).2.ReadsCurrent := by
  rcases happly : t.applyTo source ctx with ⟨error | e, after⟩
  · exact ((t.applyTo_atomic source).frame happly).sameClause.readsCurrent h
  · obtain ⟨f, c, bound, hflatten, hbound, -⟩ := Transformation.applyTo_cases happly
    have hc : c.ReadsCurrent := by
      obtain ⟨-, -, rfl⟩ | ⟨-, _, _, _, -, rfl, rfl, -⟩ := Transformation.flatten_cases hflatten
      · exact h
      · exact fun _ _ => Flattening.slotReads_usesOnly
    exact (t.bindAggregation_keeps.frame hbound).sameClause.readsCurrent hc

/-- A context in which what a node is bound to does not depend on what was bound before. -/
structure Rebindable (ctx : Context) : Prop where
  numbered : ctx.Numbered
  readsBelow : ctx.ReadsBelow
  readsCurrent : ctx.ReadsCurrent

theorem initial_rebindable (schema : Schema) (settings : Settings) (element : HostType) :
    (initial schema settings element).Rebindable where
  numbered := initial_numbered schema settings element
  readsBelow := initial_readsBelow schema settings element
  readsCurrent := nofun

namespace Rebindable

variable {ctx c : Context} (h : ctx.Rebindable)
include h

theorem frame (hframe : ctx.Frame c) : c.Rebindable where
  numbered := h.numbered.frame hframe
  readsBelow := h.readsBelow.frame hframe
  readsCurrent := hframe.sameClause.readsCurrent h.readsCurrent

theorem deeper : ctx.deeper.Rebindable :=
  ⟨⟨h.numbered.current, h.numbered.root, h.numbered.scope⟩, h.readsBelow, h.readsCurrent⟩

/-- Nodes of a nested clause can be bound again. -/
theorem derive (element : HostType) : (ctx.derive element).Rebindable where
  numbered := {
    current := Nat.lt_succ_self _
    root := Nat.lt_succ_of_lt h.numbered.root
    scope := fun name p hp => Nat.lt_succ_of_lt (h.numbered.scope name p hp) }
  readsBelow := nofun
  readsCurrent := nofun

/-- **Nodes can be bound again in every context that clauses reach**, whether they fail or not. -/
theorem after [External] :
    (∀ clause : FilterClause, (clause.bind ctx).2.Rebindable) ∧
      (∀ keys : List OrderKey, (OrderKey.bindAll keys ctx).2.Rebindable) ∧
      (∀ columns : List Column, (Column.bindAll columns ctx).2.Rebindable) ∧
      (∀ t : Transformation, (t.bindAggregation ctx).2.Rebindable) ∧
      ∀ (t : Transformation) (source : Expr), (t.applyTo source ctx).2.Rebindable := by
  refine ⟨fun clause => h.frame (clause.bind_keeps ctx), fun keys => h.frame (OrderKey.bindAll_keeps keys ctx),
    fun columns => ⟨h.numbered.after.2.2.1 columns, h.readsBelow.after.2.2.1 columns, ?_⟩,
    fun t => h.frame (t.bindAggregation_keeps ctx), fun t source => ⟨h.numbered.after.2.2.2.2 t source,
      h.readsBelow.applyTo t source, h.readsCurrent.applyTo t source⟩⟩
  have hcolumns : (ctx.withColumns columns).ReadsCurrent := h.readsCurrent
  exact (Column.bindAll_atomic columns).after (fun hstep => hstep.sameClause.readsCurrent hcolumns)
    fun hframe => hframe.sameClause.readsCurrent h.readsCurrent

end Rebindable

end Context

/-! ## Nodes bound again -/

/-- Binding tells the expressions apart by numbers and names of references only, and they have the same
values. -/
def Expr.Rebinds [External] (ctx : Context) (e₁ e₂ : Expr) : Prop :=
  Looks (fun _ => "") ctx ctx e₁ e₂ ∧ SameOperand e₁ e₂

namespace Context.Rebindable

variable {ctx after : Context} (h : ctx.Rebindable)
include h

theorem congruence [External] : Congruence ctx ctx (Expr.Rebinds ctx) := by
  have hagain : Again (fun _ => "") ctx ctx := h.numbered.again (Frame.refl ctx) fun _ _ _ => rfl
  exact (hagain.congruence (Within.refl rfl)).and_sameOperand

/-- Once other nodes were bound, with one more level. -/
theorem later (hframe : ctx.Frame after) :
    Later ctx.nextId (after.nextId - ctx.nextId) ctx.computed after.computed ctx
      (after.limited (after.settings.maxDepth + 1)) :=
  { h.numbered.later h.readsBelow (show (ctx.withColumns []).Frame after from hframe) with
    depth := Nat.le_trans (Nat.le_of_eq hframe.depth) (Nat.le_succ _) }

/-- **A node bound again**, once other nodes were bound, is bound to an expression with the same values, or
fails as before. -/
theorem bind_after [External] (hframe : ctx.Frame after) (node : Node) :
    Option.Rel (Expr.Rebinds ctx) (node.bind ctx).1.toOption (node.bind after).1.toOption := by
  have hagain : Again (fun _ => "") ctx after := h.numbered.again hframe fun _ _ _ => rfl
  have hwithin : ctx.Within after ctx after := Within.refl hagain.depth
  have hrun := hagain.bind node (E := fun _ => True)
  rcases hx : node.bind ctx with ⟨e | e₁, c₁⟩
  · obtain ⟨_, _, hy, -⟩ := hrun.error hwithin hx trivial
    rw [hy]
    exact .none
  · obtain ⟨e₂, c₂, hy, hlooks, -⟩ := hrun.ok hwithin hx
    rw [hy]
    -- with one more level, the second run gives the first expression with other numbers
    have hcomputed : after.computed = ctx.computed := hframe.computed
    obtain ⟨_, _, hlater, hmoved, -⟩ := (Later.bindWithin (fun _ _ _ => by rw [hcomputed]) ctx.levelsLeft
      fun _ _ => by rw [hcomputed]).ok (h.later hframe) hx
    have hlevels : after.levelsLeft = ctx.levelsLeft := by
      rw [levelsLeft, hframe.settings, hframe.depth, levelsLeft]
    have hraised : Raised (after.settings.maxDepth + 1) after (after.limited (after.settings.maxDepth + 1)) :=
      ⟨rfl, Nat.le_succ _, Nat.le_refl _⟩
    rw [Node.bind, hlevels] at hy
    obtain ⟨_, _, hsame, rfl, -⟩ :=
      (Raised.bindWithin (after.settings.maxDepth + 1) (Nat.le_refl ctx.levelsLeft) node).ok hraised hy
    rw [hsame] at hlater
    cases hlater
    refine .some ⟨⟨hlooks.relabel, ?_, ?_⟩, hmoved.sameOperand ?_ ?_⟩
    · rw [← hframe.current]
      exact hframe.current ▸ hlooks.current
    · rw [hlooks.isCurrent, hframe.sameClause.isCurrent]
    · exact (h.readsCurrent.bind (congrArg Prod.fst hx)).mono fun _ => h.numbered.lt
    · have huses := (h.frame hframe).readsCurrent.bind
        (show (node.bind after).1 = .ok e₂ by rw [Node.bind, hlevels, hy])
      exact huses.mono fun _ hp => h.numbered.lt (hframe.sameClause.knows.mp hp)

end Context.Rebindable

end TypedQuery
