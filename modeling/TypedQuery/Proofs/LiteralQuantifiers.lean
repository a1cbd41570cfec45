import TypedQuery.Proofs.BooleanContexts
import TypedQuery.Proofs.Existence

/-!
# Quantifiers with a literal predicate

Whether some item satisfies the literal true is whether there is an item, so that no function is called, and no item
satisfies the literal false, so that not even the collection is looked at. A predicate that is no literal but has one
value at all items is bound in the general way.

* `Node.Quantified`: a source and a predicate on its items, bound; `Lambda.IsConstantOn`: predicates with one value.
* `Node.bind_any_predicate`, `Node.bind_any_literal`: both ways to bind a quantifier.
* **`literal_quantifiers_agree`**: the one in the place of the other, below `and`, `or` and `not`.
-/

namespace TypedQuery

open TypedQuery.Expr (Replaces Shortens SameTruth)

/-! ## Both ways to bind a quantifier -/

/-- Binds the predicate of a quantifier over items of a type, with its variable. -/
def Node.bindOn (body : Node) (x : RangeVariable) (element : HostType) : BindM Lambda :=
  BindM.withRangeVariable x.name element fun p => do return ⟨p, ← body.bind⟩

/-- What the parts of a quantifier are bound to: a source, which is a collection, and a predicate on its items. -/
structure Node.Quantified (ctx : Context) (source : Node) (x : RangeVariable) (body : Node) (s : Expr) (l : Lambda) :
    Prop where
  collection : (source.bind ctx.deeper).1 = .ok s
  predicate : ∃ element, s.type = .collection element ∧
    (body.bindOn x element (source.bind ctx.deeper).2).1 = .ok l

/-- Where the source is a collection, the predicate is this boolean at every item. -/
def Lambda.IsConstantOn [External] (l : Lambda) (s : Expr) (b : Bool) (env : Env) : Prop :=
  ∃ items, s.eval env = .ok (.collection items) ∧ ∀ v ∈ items, l.body.eval ((l.param.id, v) :: env) = .ok (.bool b)

namespace Context

variable {ctx c : Context}

theorem SameClause.guardIfNeeded (h : ctx.SameClause c) (source result : Expr) :
    c.guardIfNeeded source result = ctx.guardIfNeeded source result := by
  unfold Context.guardIfNeeded needsGuard
  rw [h.settings, h.isCurrent]

end Context

theorem BindM.fst_reads_bind {α β : Type} (f : Context → Outcome α) (g : α → β) (c : Context) :
    ((BindM.reads f >>= fun a => pure (g a)) c).1 = f c >>= fun a => .ok (g a) := by
  cases h : f c with
  | error err =>
    rw [BindM.bind_of_error (show BindM.reads f c = _ from Prod.ext h rfl)]
    rfl
  | ok a =>
    rw [BindM.bind_of_ok (show BindM.reads f c = _ from Prod.ext h rfl)]
    rfl

namespace Bind

/-- The predicate of a quantifier, made one that is never null. -/
theorem fst_predicate {levels : Nat} {c : Context} (hlevels : c.levelsLeft = levels) (body : Node) (x : RangeVariable)
    (element : HostType) :
    (BindM.withRangeVariable x.name element (fun p => predicate (Node.bindWithin levels) body p) c).1 =
      (body.bindOn x element c).1 >>= fun l => c.normalizePredicate l.body >>= fun e => .ok ⟨l.param, e⟩ := by
  subst hlevels
  have hbody (p : Param) (d : Context) (hlevels : d.levelsLeft = c.levelsLeft) (hsettings : d.settings = c.settings) :
      (predicate (Node.bindWithin c.levelsLeft) body p d).1 = ((body.bind >>= fun e => pure (Lambda.mk p e)) d).1 >>=
        fun l => c.normalizePredicate l.body >>= fun e => .ok ⟨l.param, e⟩ := by
    have hbind : body.bindWithin c.levelsLeft d = body.bind d := by rw [Node.bind, hlevels]
    have hframe := body.bind_keeps d
    unfold predicate
    rcases he : body.bind d with ⟨err | e, d'⟩
    · rw [BindM.bind_of_error (hbind.trans he), BindM.bind_of_error he]
      rfl
    · rw [he] at hframe
      rw [BindM.bind_of_ok (hbind.trans he), BindM.bind_of_ok he]
      refine (BindM.fst_reads_bind _ (Lambda.mk p) d').trans ?_
      rw [Context.normalizePredicate_of_settings (hframe.settings.trans hsettings)]
      rfl
  unfold Node.bindOn
  cases hscope : Entries.get? c.scope x.name with
  | some p =>
    rw [BindM.withRangeVariable_of_some hscope, BindM.withRangeVariable_of_some hscope]
    exact hbody p c rfl rfl
  | none =>
    rw [BindM.withRangeVariable_of_none hscope, BindM.withRangeVariable_of_none hscope]
    exact hbody _ _ rfl rfl

theorem ofOutcome_itemType_of_collection {s : Expr} {element : HostType} (h : s.type = .collection element)
    (c : Context) : BindM.ofOutcome (itemType s) c = (.ok element, c) := by
  unfold BindM.ofOutcome itemType
  rw [h]

end Bind

namespace Node

variable {ctx : Context} {source : Node} {x : RangeVariable} {s : Expr} {element : HostType}

/-- A quantifier is bound only over a collection. -/
theorem exists_source_of_bind_any {body : Option Node} {g : Expr}
    (h : ((Node.any source x body).bind ctx).1 = .ok g) :
    ∃ s element, (source.bind ctx.deeper).1 = .ok s ∧ s.type = .collection element := by
  rw [fst_bind_any (lt_of_bind_eq_ok h)] at h
  obtain ⟨s, c₁, hs, h⟩ := BindM.exists_of_bind_eq_ok (Prod.ext h rfl)
  obtain ⟨element, c₂, hitem, -⟩ := BindM.exists_of_bind_eq_ok h
  exact ⟨s, element, congrArg Prod.fst hs, Bind.itemType_eq_ok (congrArg Prod.fst hitem)⟩

section Source

variable (hs : (source.bind ctx.deeper).1 = .ok s) (htype : s.type = .collection element)
include hs htype

/-- A quantifier with a predicate that is no literal. -/
theorem bind_any_predicate {body : Node} (hbody : ∀ b type, body ≠ .constant (.bool b) type) :
    ((Node.any source x (some body)).bind ctx).1 = (body.bindOn x element (source.bind ctx.deeper).2).1 >>= fun l =>
      ctx.normalizePredicate l.body >>= fun e =>
        .ok (ctx.guardIfNeeded s (.mkCollection .any [s, (Lambda.mk l.param e).toExpr])) := by
  have hlt : ctx.depth < ctx.settings.maxDepth := Nat.lt_of_succ_lt (lt_of_bind_eq_ok hs)
  have hframe := source.bind_keeps ctx.deeper
  have hsource : source.bindWithin ctx.deeper.levelsLeft ctx.deeper = (.ok s, (source.bind ctx.deeper).2) :=
    Prod.ext hs rfl
  have hany : Bind.any (bindWithin ctx.deeper.levelsLeft) source x (some body) = (do
      let source ← bindWithin ctx.deeper.levelsLeft source
      let element ← BindM.ofOutcome (Bind.itemType source)
      let l ← BindM.withRangeVariable x.name element fun p => Bind.predicate (bindWithin ctx.deeper.levelsLeft) body p
      Bind.guarded source (.mkCollection .any [source, l.toExpr])) := by
    cases body with
    | constant l type =>
      cases l with
      | bool b => exact absurd rfl (hbody b type)
      | _ => rfl
    | _ => rfl
  have hitem := Bind.ofOutcome_itemType_of_collection htype (source.bind ctx.deeper).2
  have hguard := (Context.SameClause.refl ctx).deeper.frame hframe
  have hsettings : (source.bind ctx.deeper).2.settings = ctx.settings := hframe.settings
  rw [fst_bind_any hlt, hany, BindM.bind_of_ok hsource]
  refine (congrArg Prod.fst (BindM.bind_of_ok hitem)).trans ?_
  rw [Bind.fst_bind_guarded (.withRangeVariable _ _ fun p =>
      Bind.predicate_keeps (fun n => n.bindWithin_keeps _) body p),
    Bind.fst_predicate (by rw [Context.levelsLeft, hframe.settings, hframe.depth, Context.levelsLeft]), bind_assoc]
  simp only [bind_assoc, Outcome.ok_bind, Context.normalizePredicate_of_settings hsettings,
    hguard.guardIfNeeded]

/-- A quantifier with a literal predicate. -/
theorem bind_any_literal (b : Bool) (type : Option LogicalType) :
    ((Node.any source x (some (.constant (.bool b) type))).bind ctx).1 =
      .ok (if b then ctx.guardIfNeeded s (.mkCollection .any [s]) else .mkBool false) := by
  have hlt : ctx.depth < ctx.settings.maxDepth := Nat.lt_of_succ_lt (lt_of_bind_eq_ok hs)
  have hframe := source.bind_keeps ctx.deeper
  have hsource : source.bindWithin ctx.deeper.levelsLeft ctx.deeper = (.ok s, (source.bind ctx.deeper).2) :=
    Prod.ext hs rfl
  have hitem := Bind.ofOutcome_itemType_of_collection htype (source.bind ctx.deeper).2
  have hguard := (Context.SameClause.refl ctx).deeper.frame hframe
  rw [fst_bind_any hlt]
  cases b with
  | true =>
    unfold Bind.any
    rw [BindM.bind_of_ok hsource]
    refine (congrArg Prod.fst (BindM.bind_of_ok hitem)).trans ?_
    exact congrArg Except.ok (hguard.guardIfNeeded s _)
  | false =>
    unfold Bind.any
    rw [BindM.bind_of_ok hsource]
    exact congrArg Prod.fst (BindM.bind_of_ok hitem)

end Source

end Node

/-! ## Values of quantifiers -/

section Values

variable {ctx : Context} {s e : Expr} {l : Lambda} {env : Env} {items : List Value} {b : Bool}

/-- A boolean stays as it is when it is made one that is never null. -/
theorem Context.eval_of_normalizePredicate [External] {p : Expr} (h : ctx.normalizePredicate e = .ok p)
    (he : e.eval env = .ok (.bool b)) : p.eval env = .ok (.bool b) := by
  have folded {x : Expr} (hx : x.eval env = .ok (.bool b)) : (ctx.foldNull x).eval env = .ok (.bool b) := by
    unfold foldNull
    split_ifs
    · rw [Expr.mkEqual, Expr.eval_mkBinary rfl, hx]
      cases b <;> rfl
    · rw [Expr.eval, hx]
      rfl
  obtain ⟨-, rfl⟩ | ⟨-, rfl⟩ | ⟨-, rfl⟩ := normalizePredicate_eq_ok h
  · exact he
  · refine folded ?_
    rw [Expr.eval, he]
    rfl
  · exact folded he

namespace Bind

theorem constValue?_guarded_any (args : List Expr) :
    (ctx.guardIfNeeded s (.mkCollection .any args)).constValue? = none := by
  unfold Context.guardIfNeeded
  split_ifs <;> rfl

theorem eval_guarded_any_items [External] (hsource : s.eval env = .ok (.collection items)) :
    (ctx.guardIfNeeded s (.mkCollection .any [s])).eval env = .ok (.bool !items.isEmpty) := by
  have hany : (Expr.mkCollection .any [s]).eval env = .ok (.bool !items.isEmpty) := by
    rw [Expr.eval_collection (Expr.isLambda_of_eval hsource), hsource]
    rfl
  rw [Expr.eval_guardIfNeeded hsource rfl rfl fun u hu => ?_, hany]
  cases hany.symm.trans hu
  exact .of_isInstanceOf rfl

/-- Some item satisfies a predicate with one value if there is an item and the value is true. -/
theorem eval_guarded_any_constant [External] (hp : ctx.normalizePredicate l.body = .ok e)
    (hsource : s.eval env = .ok (.collection items))
    (hbody : ∀ v ∈ items, l.body.eval ((l.param.id, v) :: env) = .ok (.bool b)) :
    (ctx.guardIfNeeded s (.mkCollection .any [s, (Lambda.mk l.param e).toExpr])).eval env =
      .ok (.bool (b && !items.isEmpty)) := by
  have hvalues : ∀ v ∈ items, ∀ u, Except.ok (.bool b) = .ok u → e.eval ((l.param.id, v) :: env) = .ok u :=
    fun v hv u hu => (Context.eval_of_normalizePredicate hp (hbody v hv)).trans hu
  rw [eval_guarded_any _ hsource, someItem_congr hvalues (someItem_const b items)]
  rfl

/-- Without a collection a quantifier is null, or fails if it is not guarded. -/
theorem eval_guarded_any_null [External] (hsource : s.eval env = .ok .null) (rest : List Expr) :
    (ctx.guardIfNeeded s (.mkCollection .any (s :: rest))).eval env =
      if ctx.needsGuard s then .ok .null else EvalError.fail (.nullSource (.collection .any)) := by
  cases hguard : ctx.needsGuard s with
  | true => exact Context.guardIfNeeded_eval_of_null hguard hsource _
  | false =>
    unfold Context.guardIfNeeded
    rw [hguard, if_neg Bool.false_ne_true, if_neg Bool.false_ne_true, Expr.mkCollection, Expr.mkCall, Expr.eval,
      Expr.operands_cons (Expr.isLambda_of_eval hsource), hsource]
    rfl

variable (hp : ctx.normalizePredicate l.body = .ok e)
include hp

/-- Whether there is an item, in the place of a predicate that is true at all items. -/
theorem any_true_replaces [External] : Replaces
    (fun env => s.eval env = .ok .null ∨ l.IsConstantOn s true env)
    (ctx.guardIfNeeded s (.mkCollection .any [s, (Lambda.mk l.param e).toExpr]))
    (ctx.guardIfNeeded s (.mkCollection .any [s])) := by
  refine .of_eval ?_ (constValue?_guarded_any _) (constValue?_guarded_any _) fun env henv => ?_
  · rw [Context.type_guardIfNeeded, Context.type_guardIfNeeded]
    rfl
  · rcases henv with hnull | ⟨items, hsource, hbody⟩
    · rw [eval_guarded_any_null hnull, eval_guarded_any_null hnull]
    · rw [eval_guarded_any_constant hp hsource hbody, eval_guarded_any_items hsource]
      rfl

theorem eval_any_of_false [External] (h : l.IsConstantOn s false env) :
    (ctx.guardIfNeeded s (.mkCollection .any [s, (Lambda.mk l.param e).toExpr])).eval env = .ok (.bool false) := by
  obtain ⟨items, hsource, hbody⟩ := h
  exact eval_guarded_any_constant hp hsource hbody

/-- The literal false in the place of a predicate that is false at all items. -/
theorem any_false_shortens [External] (S : Env → Prop) : Shortens (l.IsConstantOn s false) S
    (ctx.guardIfNeeded s (.mkCollection .any [s, (Lambda.mk l.param e).toExpr])) (.mkBool false) where
  type := by
    rw [Context.type_guardIfNeeded]
    split_ifs
    · exact .inr ⟨rfl, rfl⟩
    · exact .inl rfl
  isNullConst := (Expr.plain_of_constValue? (constValue?_guarded_any _)).1
  text s := by
    rw [constValue?_guarded_any]
    exact ⟨nofun, nofun⟩
  eval env henv := by
    rw [eval_any_of_false hp henv]
    exact .ok fun _ _ => nofun

/-- Without a guard the literal has the type of the quantifier as well. -/
theorem any_false_replaces [External] (hguard : ctx.needsGuard s = false) : Replaces (l.IsConstantOn s false)
    (ctx.guardIfNeeded s (.mkCollection .any [s, (Lambda.mk l.param e).toExpr])) (.mkBool false) where
  type := by
    rw [Context.type_guardIfNeeded, hguard]
    rfl
  isNullConst := (any_false_shortens hp fun _ => True).isNullConst
  text := (any_false_shortens hp fun _ => True).text
  eval _ henv := eval_any_of_false hp henv

theorem any_false_sameTruth [External] (h : l.IsConstantOn s false env) : SameTruth env
    (ctx.guardIfNeeded s (.mkCollection .any [s, (Lambda.mk l.param e).toExpr])) (.mkBool false) := by
  refine ⟨.false, ⟨?_, eval_any_of_false hp h, fun _ => by decide⟩, .inl rfl, rfl, fun _ => by decide⟩
  rcases (any_false_shortens hp (s := s) fun _ => True).type with htype | ⟨htype, -⟩
  · exact .inl htype
  · exact .inr (.inl htype)

end Bind

end Values

/-! ## Predicates with a quantifier -/

/-- A predicate with a quantifier at some of its atoms, and other nodes at the rest. -/
def BoolTree.around {ι : Type} (t : BoolTree (Option ι)) (quantifier : Node) (siblings : ι → Node) : Node :=
  t.node fun i => i.elim quantifier siblings

section Agreement

variable {ctx : Context} {source body : Node} {x : RangeVariable} {s : Expr} {l : Lambda}
  (hctx : ctx.Rebindable) (h : Node.Quantified ctx source x body s l)
  (hbody : ∀ b type, body ≠ .constant (.bool b) type)
include hctx h hbody

/-- A relation that logic keeps between what the two quantifiers are bound to holds below logic. -/
theorem around_leads [External] {ι : Type} {R : Expr → Expr → Prop} (hR : Expr.LogicalRelation R) (b : Bool)
    (hquantifier : ∀ e, ctx.normalizePredicate l.body = .ok e →
      R (ctx.guardIfNeeded s (.mkCollection .any [s, (Lambda.mk l.param e).toExpr]))
        (if b then ctx.guardIfNeeded s (.mkCollection .any [s]) else .mkBool false))
    {siblings : ι → Node} (hsiblings : ∀ i a, ((siblings i).bind ctx).1 = .ok a → R a a) (t : BoolTree (Option ι))
    (type : Option LogicalType) :
    Leads R ((t.around (.any source x (some body)) siblings).bind ctx).1
      ((t.around (.any source x (some (.constant (.bool b) type))) siblings).bind ctx).1 := by
  refine t.bind_related hR hctx fun i levels => leads_iff.mpr fun a ha => ?_
  cases i with
  | some i => exact ⟨a, ha, hsiblings i a (Node.bind_of_lowered ha)⟩
  | none =>
    obtain ⟨s', element', hs', htype'⟩ := Node.exists_source_of_bind_any ha
    obtain ⟨element, htype, hl⟩ := h.predicate
    have hdeeper : (ctx.lowered levels).deeper = ctx.deeper.lowered levels := by
      simp only [Context.lowered, Context.deeper, Nat.add_right_comm]
    obtain rfl : s' = s := by
      rw [hdeeper] at hs'
      exact Except.ok.inj ((Node.bind_of_lowered hs').symm.trans h.collection)
    have hgeneral := Node.bind_of_lowered ha
    change ((Node.any source x (some body)).bind ctx).1 = .ok a at hgeneral
    rw [Node.bind_any_predicate h.collection htype hbody, hl, Outcome.ok_bind] at hgeneral
    obtain ⟨e, he, hgeneral⟩ := Outcome.bind_eq_ok.mp hgeneral
    cases hgeneral
    have hclause : ctx.SameClause (ctx.lowered levels) := { Context.SameClause.refl ctx with }
    have hliteral := Node.bind_any_literal (x := x) hs' htype b type
    rw [hclause.guardIfNeeded] at hliteral
    exact ⟨_, hliteral, hquantifier e he⟩

end Agreement

/-- **Quantifiers with a literal predicate agree with the general ones.** In a context in which nodes can be bound
again, take a predicate with a quantifier at some of its atoms, whose own predicate is no literal boolean, and put one
of the literals in the place of that. If the first predicate is bound, the second is:

* With the literal true it has the same type, and the same values and errors in every environment in which the
  source is null, or a collection of items at all of which the quantifier's predicate is true.
* With the literal false, in every environment in which the source is a collection of items at all of which the
  quantifier's predicate is false: The values and errors are the same if the source needs no guard. In any case there
  are no two different values; the second predicate has a value where the first has one, if no other atom is null that
  is a plain boolean by its type; and both have one if all other atoms have a truth.
* On its own, the literal false is false also where the source is null and the general quantifier is null, or fails for
  want of a guard. -/
theorem literal_quantifiers_agree [External] {ctx : Context} (hctx : ctx.Rebindable) {source body : Node}
    {x : RangeVariable} {s : Expr} {l : Lambda} (h : Node.Quantified ctx source x body s l)
    (hbody : ∀ b type, body ≠ .constant (.bool b) type) (type : Option LogicalType) :
    let general := Node.any source x (some body)
    let literal := fun b => Node.any source x (some (.constant (.bool b) type))
    (∀ {ι : Type} (t : BoolTree (Option ι)) (siblings : ι → Node) (g : Expr),
      ((t.around general siblings).bind ctx).1 = .ok g →
      (∃ e, ((t.around (literal true) siblings).bind ctx).1 = .ok e ∧ e.type = g.type ∧
        ∀ env, s.eval env = .ok .null ∨ l.IsConstantOn s true env → e.eval env = g.eval env) ∧
      ∃ e, ((t.around (literal false) siblings).bind ctx).1 = .ok e ∧ ∀ env, l.IsConstantOn s false env →
        (ctx.needsGuard s = false → e.eval env = g.eval env) ∧
        (∀ v w, g.eval env = .ok v → e.eval env = .ok w → v = w) ∧
        ((∀ i a, ((siblings i).bind ctx).1 = .ok a → a.type = .bool → a.eval env ≠ .ok .null) →
          ∀ v, g.eval env = .ok v → e.eval env = .ok v) ∧
        ((∀ i a, ((siblings i).bind ctx).1 = .ok a → ∃ τ, a.HasTruth env τ) →
          ∃ v, g.eval env = .ok v ∧ e.eval env = .ok v)) ∧
    ((literal false).bind ctx).1 = .ok (.mkBool false) ∧
      ∀ g, (general.bind ctx).1 = .ok g → ∀ env, s.eval env = .ok .null →
        g.eval env = if ctx.needsGuard s then .ok .null else EvalError.fail (.nullSource (.collection .any)) := by
  intro general literal
  obtain ⟨element, htype, hl⟩ := h.predicate
  refine ⟨fun {ι} t siblings g hg => ⟨?_, ?_⟩, Node.bind_any_literal h.collection htype false type,
    fun g hg env hnull => ?_⟩
  · obtain ⟨e, he, hreplaces⟩ := leads_iff.mp (around_leads hctx h hbody (Replaces.logicalRelation _) true
      (fun p hp => Bind.any_true_replaces hp) (fun _ _ _ => .refl _) t type) g hg
    exact ⟨e, he, hreplaces.type.symm, fun env henv => (hreplaces.eval env henv).symm⟩
  · let sound (env : Env) := ∀ i a, ((siblings i).bind ctx).1 = .ok a → a.type = .bool → a.eval env ≠ .ok .null
    have leads {R : Expr → Expr → Prop} (hR : Expr.LogicalRelation R)
        (hquantifier : ∀ p, ctx.normalizePredicate l.body = .ok p →
          R (ctx.guardIfNeeded s (.mkCollection .any [s, (Lambda.mk l.param p).toExpr])) (.mkBool false))
        (hsiblings : ∀ i a, ((siblings i).bind ctx).1 = .ok a → R a a) :
        ∃ e, ((t.around (literal false) siblings).bind ctx).1 = .ok e ∧ R g e :=
      leads_iff.mp (around_leads hctx h hbody hR false hquantifier hsiblings t type) g hg
    obtain ⟨e, he, hshortens⟩ := leads (Shortens.logicalRelation (l.IsConstantOn s false) sound)
      (fun p hp => Bind.any_false_shortens hp sound)
      fun i a ha => .refl fun env _ hsound htype => hsound i a ha htype
    refine ⟨e, he, fun env henv => ⟨fun hguard => ?_, fun v w hv hw => ?_, fun hsound v hv => ?_, fun htruths => ?_⟩⟩
    · obtain ⟨e', he', hreplaces⟩ := leads (Replaces.logicalRelation _)
        (fun p hp => Bind.any_false_replaces hp hguard) fun _ _ _ => .refl _
      cases he.symm.trans he'
      exact (hreplaces.eval env henv).symm
    · obtain ⟨hv', -⟩ := (hshortens.eval env henv).forward hv (.inr ⟨w, hw⟩)
      exact Except.ok.inj (hv'.symm.trans hw)
    · exact ((hshortens.eval env henv).forward hv (.inl hsound)).1
    · obtain ⟨e', he', τ, hτ, hτ'⟩ := leads (Expr.sameTruth_logicalRelation env)
        (fun p hp => Bind.any_false_sameTruth hp henv) fun i a ha => (htruths i a ha).imp fun _ hτ => ⟨hτ, hτ⟩
      cases he.symm.trans he'
      exact ⟨_, hτ.value, hτ'.value⟩
  · rw [Node.bind_any_predicate h.collection htype hbody, hl, Outcome.ok_bind] at hg
    obtain ⟨p, -, hg⟩ := Outcome.bind_eq_ok.mp hg
    cases hg
    exact Bind.eval_guarded_any_null hnull _

/-! ### Sold parts -/

/-- Whether a kit has some part with a predicate. -/
def anyPartWith (body : Node) : Node := .any kitParts partVariable (some body)

/-- The predicate that a part is sold. -/
def soldPart : Node := (partProperty "Sold").toNode partVariable

/-- A predicate that is a literal boolean. -/
def literalPart (b : Bool) : Node := .constant (.bool b) none

/-- A quantifier, or else not true. -/
def orNotTrue (quantifier : Node) : Node :=
  BoolTree.around (.or (.atom none) (.not (.atom (some ())))) quantifier fun _ => .constant (.bool true) none

/-- Parts that are sold and parts that are not, for a kit of sold parts and for one without its collection. -/
theorem literal_quantifiers_agree_for_sold_parts :
    (∃ g e, ((orNotTrue (anyPartWith soldPart)).bind kitContext).1 = .ok g ∧
      ((orNotTrue (anyPartWith (literalPart true))).bind kitContext).1 = .ok e ∧
      e.eval [(0, soldKit)] = g.eval [(0, soldKit)] ∧ e.eval [(0, kitOf .null)] = g.eval [(0, kitOf .null)]) ∧
    ∃ g e, ((orNotTrue (anyPartWith (.unary .not soldPart))).bind kitContext).1 = .ok g ∧
      ((orNotTrue (anyPartWith (literalPart false))).bind kitContext).1 = .ok e ∧
      ∃ v, g.eval [(0, soldKit)] = .ok v ∧ e.eval [(0, soldKit)] = .ok v := by
  have hctx : kitContext.Rebindable := Context.initial_rebindable ..
  constructor
  · obtain ⟨s, l, hparts, hsold, hnull⟩ : ∃ s l, Node.Quantified kitContext kitParts partVariable soldPart s l ∧
        l.IsConstantOn s true [(0, soldKit)] ∧ s.eval [(0, kitOf .null)] = .ok .null :=
      ⟨_, _, ⟨rfl, _, rfl, rfl⟩, ⟨_, rfl, fun v hv => by rcases List.mem_pair.mp hv with rfl | rfl <;> rfl⟩, rfl⟩
    have hbound : ((orNotTrue (anyPartWith soldPart)).bind kitContext).1.toOption.isSome = true := by decide +kernel
    obtain ⟨g, hg⟩ := Option.isSome_iff_exists.mp hbound
    have hg := Outcome.toOption_eq_some.mp hg
    obtain ⟨⟨e, he, -, heval⟩, -⟩ := (literal_quantifiers_agree hctx hparts nofun none).1 _ _ g hg
    exact ⟨g, e, hg, he, heval _ (.inr hsold), heval _ (.inl hnull)⟩
  · obtain ⟨s, l, hparts, hunsold⟩ : ∃ s l,
        Node.Quantified kitContext kitParts partVariable (.unary .not soldPart) s l ∧
          l.IsConstantOn s false [(0, soldKit)] :=
      ⟨_, _, ⟨rfl, _, rfl, rfl⟩, _, rfl, fun v hv => by rcases List.mem_pair.mp hv with rfl | rfl <;> rfl⟩
    have hbound : ((orNotTrue (anyPartWith (.unary .not soldPart))).bind kitContext).1.toOption.isSome = true := by
      decide +kernel
    obtain ⟨g, hg⟩ := Option.isSome_iff_exists.mp hbound
    have hg := Outcome.toOption_eq_some.mp hg
    obtain ⟨-, e, he, heval⟩ := (literal_quantifiers_agree hctx hparts nofun none).1 _ _ g hg
    refine ⟨g, e, hg, he, (heval _ hunsold).2.2.2 fun i a ha => ⟨.true, ?_⟩⟩
    cases ha
    exact ⟨.inl rfl, rfl, fun _ => by decide⟩

/-- What a predicate gives for a kit with these parts: nothing where it fails, and its truth where it has one. -/
def kitAnswer [External] (node : Node) (parts : Value) : Option (Option (Option Truth)) := do
  let e ← (node.bind kitContext).1.toOption
  return (e.eval [(0, kitOf parts)]).toOption.map Truth.ofValue?

/-- **The literal false does not look at the collection**: it is false where the collection is missing, and next to an
operand that fails, which a quantifier that may be null does not let go by. -/
theorem literal_false_ignores_the_collection :
    let unsold := anyPartWith (.unary .not soldPart)
    let never := anyPartWith (literalPart false)
    let failing : Node := .binary .eq (.binary .div (.constant (.int32 1) none) (.constant (.int32 0) none))
      (.constant (.int32 1) none)
    let parts : Value := .collection [part true 0 0]
    kitSchema.admits (.record "Kit") (kitOf .null) = true ∧
      kitAnswer unsold .null = some (some (some .unknown)) ∧ kitAnswer never .null = some (some (some .false)) ∧
      kitAnswer unsold parts = some (some (some .false)) ∧ kitAnswer never parts = some (some (some .false)) ∧
      kitAnswer (.binary .and unsold failing) parts = some none ∧
      kitAnswer (.binary .and never failing) parts = some (some (some .false)) := by
  refine ⟨?_, ?_, ?_, ?_, ?_, ?_, ?_⟩ <;> decide +kernel

end TypedQuery
