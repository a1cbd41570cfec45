import TypedQuery.Eval
import TypedQuery.Proofs.Simulation

/-!
# Expressions that mean the same

Two expressions, bound in two contexts, agree if binding cannot tell them apart and they have the
same value in all environments that a relation allows; this value is well-formed where parameters have
such values. Agreement is a congruence, so it is enough to look at what variables stand for in the two
contexts: if that agrees, all of binding does.

* `Expr.Agree`, `Lambda.Agree`: agreement of expressions and of functions.
* `Expr.agree_congruence`: agreement is a congruence.
* `Context.Within`: contexts that differ from two given ones in their counters and their depth.
* **`Context.Corresponds.simulation`**: if variables agree in two contexts, binding in them is a
  simulation.
-/

namespace TypedQuery

/-! ## Agreement -/

/-- The expressions look the same to binding in two contexts, and have the same value in related
environments, which is well-formed. -/
structure Expr.Agree [External] (c₁ c₂ : Context) (V : Env → Env → Prop) (e₁ e₂ : Expr) : Prop where
  type : e₁.type = e₂.type
  isNullConst : e₁.isNullConst = e₂.isNullConst
  constValue : e₁.constValue? = e₂.constValue?
  isNonNullConst : e₁.isNonNullConst = e₂.isNonNullConst
  isCurrent : c₁.isCurrent e₁ = c₂.isCurrent e₂
  left_not_lambda : e₁.isLambda = false
  right_not_lambda : e₂.isLambda = false
  left_unflattened : c₁.isFlattened = true → e₁ ≠ .param c₁.current
  right_unflattened : c₂.isFlattened = true → e₂ ≠ .param c₂.current
  eval : ∀ {env₁ env₂}, V env₁ env₂ → e₁.eval env₁ = e₂.eval env₂
  sound : e₁.Sound

/-- The functions have the same value at every argument, in related environments, which is
well-formed. -/
structure Lambda.Agree [External] (V : Env → Env → Prop) (l₁ l₂ : Lambda) : Prop where
  type : l₁.body.type = l₂.body.type
  eval : ∀ {env₁ env₂} v, V env₁ env₂ →
    l₁.body.eval ((l₁.param.id, v) :: env₁) = l₂.body.eval ((l₂.param.id, v) :: env₂)
  sound : l₁.body.Sound

section Agree

variable {c₁ c₂ : Context} {V : Env → Env → Prop} {e₁ e₂ s₁ s₂ : Expr}

/-- The one member that is the record of a clause: the source of its flattened record. -/
theorem Context.isCurrent_member_iff (ctx : Context) (s : Expr) (m : Member) :
    ctx.isCurrent (.member s m) = true ↔
      s = .param ctx.current ∧ ∃ type, ctx.flatteningSource = some type ∧ m = ctx.sourceMember type := by
  cases s with
  | param p =>
    unfold isCurrent
    cases ctx.flatteningSource <;> simp
  | _ => simp [isCurrent]

/-- A member of an expression is not the record of the clause, which is a member of a parameter. -/
theorem Expr.isCurrent_member {c : Context} {e : Expr} (m : Member)
    (h : c.isFlattened = true → e ≠ .param c.current) : c.isCurrent (.member e m) = false := by
  rw [Bool.eq_false_iff, ne_eq, c.isCurrent_member_iff]
  rintro ⟨hparam, type, hsource, -⟩
  exact h (by rw [Context.isFlattened, hsource]; rfl) hparam

theorem Expr.operands_agree [External] {args₁ args₂ : List Expr} {env₁ env₂ : Env} (hV : V env₁ env₂)
    (h : List.Forall₂ (Expr.Agree c₁ c₂ V) args₁ args₂) :
    Expr.operands args₁ env₁ = Expr.operands args₂ env₂ := by
  induction h with
  | nil => rfl
  | cons he _ ih =>
    rw [operands_cons he.left_not_lambda, operands_cons he.right_not_lambda, he.eval hV, ih]

theorem Expr.arguments_sound [External] {args₁ args₂ : List Expr}
    (h : List.Forall₂ (Expr.Agree c₁ c₂ V) args₁ args₂) : ∀ e ∈ args₁, Expr.Sound.Argument e := by
  induction h with
  | nil => simp
  | cons he _ ih => exact List.forall_mem_cons.mpr ⟨.inl ⟨he.sound, he.left_not_lambda⟩, ih⟩

/-- Neither side is a literal, a lambda or the record of the clause, so only type and value count. -/
theorem Expr.Agree.of_eval [External] (hsound : e₁.Sound) (htype : e₁.type = e₂.type)
    (hplain₁ : e₁.constValue? = none) (hplain₂ : e₂.constValue? = none)
    (hlambda₁ : e₁.isLambda = false) (hlambda₂ : e₂.isLambda = false)
    (hcurrent₁ : c₁.isCurrent e₁ = false) (hcurrent₂ : c₂.isCurrent e₂ = false)
    (heval : ∀ {env₁ env₂}, V env₁ env₂ → e₁.eval env₁ = e₂.eval env₂) :
    Expr.Agree c₁ c₂ V e₁ e₂ := by
  have plain {e : Expr} (h : e.constValue? = none) :
      e.isNullConst = false ∧ e.isNonNullConst = false := by
    cases e <;> first | exact ⟨rfl, rfl⟩ | cases h
  have other {c : Context} {e : Expr} (h : c.isCurrent e = false) : e ≠ .param c.current := by
    rintro rfl
    simp [Context.isCurrent] at h
  exact {
    type := htype
    isNullConst := by rw [(plain hplain₁).1, (plain hplain₂).1]
    constValue := by rw [hplain₁, hplain₂]
    isNonNullConst := by rw [(plain hplain₁).2, (plain hplain₂).2]
    isCurrent := by rw [hcurrent₁, hcurrent₂]
    left_not_lambda := hlambda₁
    right_not_lambda := hlambda₂
    left_unflattened := fun _ => other hcurrent₁
    right_unflattened := fun _ => other hcurrent₂
    eval := heval
    sound := hsound }

/-- A literal, inline or by reference, agrees with itself, whatever name it has. -/
theorem Expr.agree_captured [External] (name₁ name₂ : String) {v : Value} (t : HostType) (hv : v.WellFormed) :
    Expr.Agree c₁ c₂ V (.captured name₁ v t) (.captured name₂ v t) := by
  constructor <;> intros <;> first | rfl | exact Expr.noConfusion | exact .captured _ _ hv

theorem Expr.agree_const [External] {v : Value} (t : HostType) (hv : v.WellFormed) :
    Expr.Agree c₁ c₂ V (.const v t) (.const v t) := by
  constructor <;> intros <;> first | rfl | exact Expr.noConfusion | exact .const _ hv

/-- **Agreement is a congruence.** -/
theorem Expr.agree_congruence [External] (hschema : c₁.schema = c₂.schema)
    (hnull : c₁.settings.nullPropagation = c₂.settings.nullPropagation) :
    Congruence c₁ c₂ (Expr.Agree c₁ c₂ V) where
  schema := hschema
  nullPropagation := hnull
  type h := h.type
  isNullConst h := h.isNullConst
  constValue h := h.constValue
  needsGuard h := by
    unfold Context.needsGuard
    rw [hnull, h.type, h.isCurrent, h.isNonNullConst]
  lambdaType h := by
    rw [lambdaType?_eq_none h.left_not_lambda, lambdaType?_eq_none h.right_not_lambda]
  const := agree_const
  model _ := agree_captured _ _ _ (.scalar rfl)
  member m h :=
    .of_eval (h.sound.member m) rfl rfl rfl rfl rfl (isCurrent_member m h.left_unflattened)
      (isCurrent_member m h.right_unflattened) fun hV => by simp only [Expr.eval, h.eval hV]
  index hs hk := .of_eval (hs.sound.index _) rfl rfl rfl rfl rfl rfl rfl fun hV => by
    simp only [Expr.eval, hs.eval hV, hk.eval hV]
  binary op lifted t hl hr := .of_eval (.binary op _ _ _ _) rfl rfl rfl rfl rfl rfl rfl fun hV => by
    simp only [Expr.eval, hl.eval hV, hr.eval hV]
  unary op t h := .of_eval (.unary op _ _) rfl rfl rfl rfl rfl rfl rfl fun hV => by
    simp only [Expr.eval, h.eval hV]
  convert t h := .of_eval (h.sound.convert t) rfl rfl rfl rfl rfl rfl rfl fun hV => by
    simp only [Expr.eval, h.eval hV]
  typeIs t h := .of_eval (.typeIs _ t) rfl rfl rfl rfl rfl rfl rfl fun hV => by
    simp only [Expr.eval, h.eval hV]
  typeAs t h := .of_eval (h.sound.typeAs t) rfl rfl rfl rfl rfl rfl rfl fun hV => by
    simp only [Expr.eval, h.eval hV]
  cond t hb hx hy := .of_eval (.cond _ t hx.sound hy.sound) rfl rfl rfl rfl rfl rfl rfl fun hV => by
    simp only [Expr.eval, hb.eval hV, hx.eval hV, hy.eval hV]
  call m t hargs := .of_eval (.call m t (arguments_sound hargs)) rfl rfl rfl rfl rfl rfl rfl fun hV => by
    simp only [Expr.eval, operands_agree hV hargs]

/-- Operators on agreeing collections with agreeing functions agree. -/
theorem Expr.Agree.withLambda [External] (op : CollectionOperator) {l₁ l₂ : Lambda}
    (hs : Expr.Agree c₁ c₂ V s₁ s₂) (hl : l₁.Agree V l₂) :
    Expr.Agree c₁ c₂ V (.mkCollection op [s₁, l₁.toExpr]) (.mkCollection op [s₂, l₂.toExpr]) := by
  have htypes : op.resultType [s₁, l₁.toExpr] = op.resultType [s₂, l₂.toExpr] := by
    have hsel : selectedType [s₁, l₁.toExpr] = selectedType [s₂, l₂.toExpr] := hl.type
    have harg : argType [s₁, l₁.toExpr] 0 = argType [s₂, l₂.toExpr] 0 := hs.type
    cases op <;> simp only [CollectionOperator.resultType, sourceElement, hsel, harg]
  have hargs : ∀ e ∈ [s₁, l₁.toExpr], Expr.Sound.Argument e := by
    simp only [List.forall_mem_cons]
    exact ⟨.inl ⟨hs.sound, hs.left_not_lambda⟩, .inr ⟨l₁, rfl, hl.sound⟩, by simp⟩
  refine .of_eval (.call _ _ hargs) htypes rfl rfl rfl rfl rfl rfl fun {env₁ env₂} hV => ?_
  have hfun : (fun v => l₁.body.eval ((l₁.param.id, v) :: env₁))
      = fun v => l₂.body.eval ((l₂.param.id, v) :: env₂) := funext fun v => hl.eval v hV
  simp only [mkCollection, mkCall, Method.resultType, Expr.eval, operands_cons hs.left_not_lambda,
    operands_cons hs.right_not_lambda, operands_lambda, hs.eval hV, hfun, htypes]
  rfl

end Agree

/-! ## Corresponding contexts -/

open BindM (Simulates)

namespace Context

/-- The contexts differ at most in their counters and their depth. -/
structure SameClause (d c : Context) : Prop where
  schema : c.schema = d.schema
  settings : c.settings = d.settings
  current : c.current = d.current
  root : c.root = d.root
  scope : c.scope = d.scope
  flattened : c.flattened = d.flattened
  flatteningSource : c.flatteningSource = d.flatteningSource
  computed : c.computed = d.computed
  nextId : d.nextId ≤ c.nextId

theorem SameClause.refl (d : Context) : d.SameClause d := by
  constructor <;> first | exact rfl | exact Nat.le_refl _

theorem SameClause.frame {d c c' : Context} (h : d.SameClause c) (hf : c.Frame c') :
    d.SameClause c' where
  schema := hf.schema.trans h.schema
  settings := hf.settings.trans h.settings
  current := hf.current.trans h.current
  root := hf.root.trans h.root
  scope := hf.scope.trans h.scope
  flattened := hf.flattened.trans h.flattened
  flatteningSource := hf.flatteningSource.trans h.flatteningSource
  computed := hf.computed.trans h.computed
  nextId := Nat.le_trans h.nextId hf.nextId

theorem Frame.sameClause {c c' : Context} (h : c.Frame c') : c.SameClause c' :=
  (SameClause.refl c).frame h

/-- The clause of a context in which a variable has come into scope and gone out of it. -/
theorem SameClause.pop {d c a : Context} (h : d.SameClause c) {name : String} {type : HostType}
    (hname : Entries.get? c.scope name = none) (ha : (c.push name type).SameClause a) :
    d.SameClause (a.pop name) where
  schema := ha.schema.trans h.schema
  settings := ha.settings.trans h.settings
  current := ha.current.trans h.current
  root := ha.root.trans h.root
  scope := by
    rw [Context.pop, ha.scope]
    exact (Entries.erase_insert _ hname).trans h.scope
  flattened := ha.flattened.trans h.flattened
  flatteningSource := ha.flatteningSource.trans h.flatteningSource
  computed := ha.computed.trans h.computed
  nextId := Nat.le_trans h.nextId (Nat.le_trans (Nat.le_succ _) ha.nextId)

theorem SameClause.isCurrent {d c : Context} (h : d.SameClause c) (e : Expr) :
    c.isCurrent e = d.isCurrent e := by
  unfold Context.isCurrent sourceMember
  rw [h.current, h.flatteningSource]

theorem SameClause.currentExpr {d c : Context} (h : d.SameClause c) :
    c.currentExpr = d.currentExpr := by
  unfold Context.currentExpr sourceMember
  rw [h.flatteningSource, h.current]

theorem SameClause.resolve {d c : Context} (h : d.SameClause c) (v : RangeVariable) :
    c.resolve v = d.resolve v := by
  unfold Context.resolve Context.isFlattened
  rw [h.currentExpr, h.current, h.flatteningSource, h.root, h.scope, h.schema]

theorem SameClause.flattenedRead {d c : Context} (h : d.SameClause c) (node : Node) :
    c.flattenedRead? node = d.flattenedRead? node := by
  unfold flattenedRead?
  rw [h.flattened]

/-- Two contexts at one depth that differ from two given ones in their counters and their depth. -/
structure Within (d₁ d₂ c₁ c₂ : Context) : Prop where
  left : d₁.SameClause c₁
  right : d₂.SameClause c₂
  depth : c₁.depth = c₂.depth

theorem Within.frame {d₁ d₂ c₁ c₂ c₁' c₂' : Context} (h : d₁.Within d₂ c₁ c₂) (h₁ : c₁.Frame c₁')
    (h₂ : c₂.Frame c₂') : d₁.Within d₂ c₁' c₂' :=
  ⟨h.left.frame h₁, h.right.frame h₂, by rw [h₁.depth, h₂.depth, h.depth]⟩

theorem Within.deeper {d₁ d₂ c₁ c₂ : Context} (h : d₁.Within d₂ c₁ c₂) :
    d₁.Within d₂ c₁.deeper c₂.deeper :=
  ⟨{ h.left with }, { h.right with }, congrArg (· + 1) h.depth⟩

/-- In the two contexts a variable stands for expressions that agree. -/
structure Corresponds [External] (E : Error → Prop) (V : Env → Env → Prop) (d₁ d₂ : Context) : Prop where
  schema : d₁.schema = d₂.schema
  settings : d₁.settings = d₂.settings
  computed : d₁.computed = d₂.computed
  resolve : ∀ v, Follows E (Expr.Agree d₁ d₂ V) (d₁.resolve v) (d₂.resolve v)

namespace Corresponds

variable [External] {E : Error → Prop} {V : Env → Env → Prop} {d₁ d₂ : Context} (h : Corresponds E V d₁ d₂)
include h

theorem congruence {c₁ c₂ : Context} (hc : d₁.Within d₂ c₁ c₂) :
    Congruence c₁ c₂ (Expr.Agree d₁ d₂ V) :=
  have hguard {e₁ e₂ : Expr} (he : Expr.Agree d₁ d₂ V e₁ e₂) :
      c₁.needsGuard e₁ = c₂.needsGuard e₂ := by
    unfold Context.needsGuard
    rw [hc.left.settings, hc.right.settings, hc.left.isCurrent, hc.right.isCurrent, h.settings,
      he.type, he.isCurrent, he.isNonNullConst]
  { Expr.agree_congruence h.schema (by rw [h.settings]) with
    schema := by rw [hc.left.schema, hc.right.schema, h.schema]
    nullPropagation := by rw [hc.left.settings, hc.right.settings, h.settings]
    needsGuard := hguard
    accessGuard := fun he _ => hguard he }

theorem constant {v : Value} (t : HostType) (hv : v.WellFormed) :
    Simulates (d₁.Within d₂) E (Expr.Agree d₁ d₂ V) (BindM.constant v t) (BindM.constant v t) where
  ok {c₁ c₂ a c₁'} hc hx := by
    have hf₁ := BindM.Keeps.constant v t c₁
    have hf₂ := BindM.Keeps.constant v t c₂
    have hs : c₁.settings = c₂.settings := by rw [hc.left.settings, hc.right.settings, h.settings]
    rw [hx] at hf₁
    obtain ⟨-, -, h₁, h₂⟩ | ⟨h₁, h₂⟩ := BindM.constant_alike v t c₁ c₂ (congrArg Settings.parameterizeConstants hs)
    · cases hx.symm.trans h₁
      exact ⟨_, _, h₂, Expr.agree_captured _ _ _ hv, hf₁, by rwa [h₂] at hf₂⟩
    · cases hx.symm.trans h₁
      exact ⟨_, _, h₂, Expr.agree_const _ hv, hf₁, by rwa [h₂] at hf₂⟩
  error _ hx _ := absurd hx BindM.constant_ne_error

/-- **Where variables agree, binding does.** -/
theorem simulation :
    Simulation (d₁.Within d₂) E (Expr.Agree d₁ d₂ V) (Lambda.Agree V) where
  stable := Within.frame
  congruence := h.congruence
  computed hc := by rw [hc.left.computed, hc.right.computed, h.computed]
  resolve v hc := by
    rw [hc.left.resolve, hc.right.resolve]
    exact h.resolve v
  constant := h.constant
  any hs hl := hs.withLambda _ hl
  all hs hl := hs.withLambda _ hl
  countWhere hs hl :=
    (Expr.agree_congruence h.schema (by rw [h.settings])).mkCollection _
      (.cons (hs.withLambda _ hl) .nil)

theorem descend {α β : Type} {R : α → β → Prop} {x : BindM α} {y : BindM β}
    (hxy : Simulates (d₁.Within d₂) E R x y) :
    Simulates (d₁.Within d₂) E R (BindM.descend x) (BindM.descend y) :=
  hxy.descend (fun hc => hc.depth)
    (fun hc => by rw [hc.left.settings, hc.right.settings, h.settings]) fun hc => hc.deeper

end Corresponds

end Context

end TypedQuery
