import Mathlib.Order.Basic
import TypedQuery.Proofs.Lockstep

/-!
# What a run gives

What holds of the expressions that a run of binding gives may depend on how far the run has come: on
the literals that it has kept apart so far, say. A demand says, for each stage of a run, which contexts
and which expressions belong to it; what belongs to a stage belongs to all later ones. It is met by a
whole run if it is met by literals and kept by nodes.

* `Outcome.Shallow`: an outcome that is not a failure for want of levels. All operations of binding on
  bound operands have such outcomes.
* `Demand`, `Demand.Holds`: what is demanded of runs, and a computation that meets it; one lemma for
  each way to build a computation.
* `Demand.Lawful`: a demand that literals meet and nodes keep; one lemma for each rule of binding.
* **`Demand.Lawful.inside`**: one kind of node, if the nodes inside meet the demand.
* **`Demand.Lawful.node`**: every node, if the demand does not look at levels.
-/

namespace TypedQuery

/-! ## Failures for want of levels -/

/-- Whether a node is nested too deep. -/
def Error.isTooDeep : Error → Bool
  | .nestingTooDeep .. => true
  | _ => false

/-- The outcome is not a failure for want of levels. -/
abbrev Outcome.Shallow {α : Type} (o : Outcome α) : Prop :=
  o.Meets (fun e => e.isTooDeep = false) fun _ => True

namespace Outcome

variable {α : Type} {E : Error → Prop} {P : α → Prop} {o : Outcome α}

theorem Shallow.orFail (cause : EvalError) (a : Option α) : Shallow (TypedQuery.orFail cause a) :=
  Meets.orFail rfl fun _ _ => trivial

/-- An outcome of which results and failures are known. -/
theorem Shallow.meets (h : o.Shallow) (hP : o.Gives P) (hE : ∀ {e}, e.isTooDeep = false → E e) :
    o.Meets E P := by
  cases o with
  | error e => exact hE h
  | ok a => exact hP

end Outcome

theorem Follows.gives {α : Type} {E : Error → Prop} {P : α → Prop} {o : Outcome α}
    (h : Follows E (fun a b => a = b ∧ P a) o o) : o.Gives P := by
  cases o with
  | error e => trivial
  | ok a => exact h.2

theorem Value.ofIntegral_shallow (n : Int) (t : HostType) : (Value.ofIntegral n t).Shallow := by
  unfold Value.ofIntegral
  split
  · exact .orFail _ _
  · trivial

theorem Value.ofFloat_shallow (x : Float) (t : HostType) : (Value.ofFloat x t).Shallow := by
  unfold Value.ofFloat
  split
  · exact .orFail _ _
  · exact .orFail _ _
  · exact .orFail _ _
  · exact .orFail _ _
  · split_ifs
    · exact ofIntegral_shallow _ _
    · trivial

theorem Value.ofInt_shallow (n : Int) (t : HostType) : (Value.ofInt n t).Shallow := by
  unfold Value.ofInt
  split
  · exact ofFloat_shallow _ _
  · exact ofFloat_shallow _ _
  · exact ofFloat_shallow _ _
  · split_ifs <;> trivial
  · exact .orFail _ _
  · exact ofIntegral_shallow _ _

namespace Context

variable (ctx : Context)

theorem hostType_shallow (t : LogicalType) : (ctx.hostType t).Shallow := by
  unfold hostType
  split <;> trivial

theorem resolve_shallow (v : RangeVariable) : (ctx.resolve v).Shallow := by
  unfold resolve
  split_ifs
  · trivial
  · trivial
  · trivial
  · split <;> trivial

theorem memberAccess_shallow (source : Expr) (name : String) :
    (ctx.memberAccess source name).Shallow := by
  unfold memberAccess
  split <;> trivial

theorem bagAccess_shallow (source : Expr) (typeName name : String) :
    (ctx.bagAccess source typeName name).Shallow := by
  unfold bagAccess
  split
  · exact ctx.memberAccess_shallow source name
  · split <;> trivial

theorem openAccess_shallow (source : Expr) (name : String) :
    (ctx.openAccess source name).Shallow := by
  unfold openAccess
  split
  · trivial
  · exact ctx.bagAccess_shallow _ _ _
  · trivial

theorem normalizePredicate_shallow (body : Expr) : (ctx.normalizePredicate body).Shallow := by
  unfold normalizePredicate
  split
  · trivial
  · trivial
  · split_ifs <;> trivial

end Context

namespace Bind

theorem itemType_shallow (e : Expr) : (itemType e).Shallow := by
  unfold itemType
  split <;> trivial

theorem enumLiteral_shallow (e : Expr) (enum : EnumType) : (enumLiteral e enum).Shallow := by
  unfold enumLiteral
  split
  · split
    · exact True.intro
    · exact rfl
  · trivial

theorem toUnderlying_shallow (e : Expr) (enum : EnumType) : (toUnderlying e enum).Shallow := by
  unfold toUnderlying
  split_ifs
  · trivial
  · trivial
  · trivial
  · exact (enumLiteral_shallow e enum).bind fun n _ => (Value.ofInt_shallow _ _).bind fun _ _ => trivial

theorem unifyEnums_shallow (l r : Expr) : (unifyEnums l r).Shallow := by
  unfold unifyEnums
  split
  · trivial
  · exact (toUnderlying_shallow l _).bind fun _ _ => (toUnderlying_shallow r _).bind fun _ _ => trivial

theorem asBoolean_shallow (e : Expr) : (asBoolean e).Shallow := by
  unfold asBoolean
  split_ifs <;> trivial

theorem logical_shallow (op : BinaryOp) (l r : Expr) : (logical op l r).Shallow := by
  refine (asBoolean_shallow l).bind fun _ _ => (asBoolean_shallow r).bind fun _ _ => ?_
  dsimp only
  split_ifs <;> trivial

theorem promote_shallow (l r : Expr) : (promote l r).Shallow := by
  unfold promote
  split_ifs
  · trivial
  · trivial
  · split <;> trivial

theorem unaryOperation_shallow (op : QueryUnaryOp) (e : Expr) : (unaryOperation op e).Shallow := by
  unfold unaryOperation
  cases op with
  | not =>
    dsimp only
    split_ifs <;> trivial
  | negate =>
    dsimp only
    split_ifs <;> trivial

theorem convertToEnum_shallow (e : Expr) (target : HostType) (enum : EnumType) :
    (convertToEnum e target enum).Shallow := by
  unfold convertToEnum
  split
  · split
    · exact True.intro
    · exact rfl
  · split_ifs <;> trivial

theorem convertTo_shallow (e : Expr) (target : HostType) : (convertTo e target).Shallow := by
  unfold convertTo
  dsimp only
  split
  · trivial
  split
  · trivial
  split
  · trivial
  split
  · exact convertToEnum_shallow _ _ _
  · split_ifs <;> trivial

theorem typeArgument_shallow (function : String) (arg : Node) (ctx : Context) :
    (typeArgument function arg ctx).Shallow := by
  unfold typeArgument
  split
  · unfold namedType
    dsimp only
    split <;> trivial
  · trivial

theorem coerce_shallow (function : String) (e : Expr) (k : ArgKind) :
    (coerce function e k).Shallow := by
  unfold coerce
  split_ifs <;> trivial

theorem literalItem_shallow (element : HostType) (l : Literal) : (literalItem element l).Shallow := by
  unfold literalItem
  split
  next enum _ =>
    unfold enumItem
    dsimp only
    split
    next s => cases enum.parse? s <;> trivial
    next s => cases enum.parse? s <;> trivial
    next => trivial
    next => trivial
  next =>
    dsimp only
    split
    next => trivial
    next v _ => cases v.convert element.toNullable <;> trivial

end Bind

namespace Context

variable (ctx : Context)

theorem hasFlag_shallow (l r : Expr) : (ctx.hasFlag l r).Shallow := by
  unfold hasFlag
  split
  · trivial
  · dsimp only
    split_ifs
    · trivial
    · exact (Bind.enumLiteral_shallow r _).bind fun _ _ => trivial

theorem promoted_shallow (op : BinaryOp) (l r : Expr) :
    Outcome.Shallow (do let (l, r) ← Bind.promote l r; return ctx.operation op l r) :=
  (Bind.promote_shallow l r).bind fun _ _ => trivial

theorem comparison_shallow (op : BinaryOp) (l r : Expr) : (ctx.comparison op l r).Shallow := by
  unfold comparison
  split
  · exact ctx.promoted_shallow op _ _
  · split
    · trivial
    · exact ctx.promoted_shallow op l r

theorem binary_shallow (op : QueryOp) (l r : Expr) : (ctx.binary op l r).Shallow := by
  unfold Context.binary
  split
  · exact ctx.hasFlag_shallow l r
  · refine (Bind.unifyEnums_shallow l r).bind fun _ _ => ?_
    dsimp only
    split_ifs
    · exact Bind.logical_shallow _ _ _
    · exact ctx.comparison_shallow _ _ _
    · exact ctx.promoted_shallow _ _ _

end Context

/-! ## Demands -/

/-- What is demanded of runs: of contexts and of expressions at each stage, and of errors. -/
structure Demand (W : Type) where
  context : W → Context → Prop
  error : Error → Prop
  expr : W → Expr → Prop

/-- The one stage of runs of which the same is demanded throughout. -/
inductive Stage where
  | any

instance : Preorder Stage where
  le _ _ := True
  le_refl _ := trivial
  le_trans _ _ _ _ _ := trivial

variable {W : Type} [Preorder W]

/-- From a stage on, the computation leads from a context of the demand to one of a later stage, with a
result that has a property there or with an error of the demand. -/
structure Demand.Holds {α : Type} (D : Demand W) (w : W) (P : W → α → Prop) (x : BindM α) : Prop where
  run : ∀ {w₁ c}, w ≤ w₁ → D.context w₁ c →
    ∃ w₂, w₁ ≤ w₂ ∧ D.context w₂ (x c).2 ∧ (x c).1.Meets D.error (P w₂)

namespace Demand.Holds

variable {α β : Type} {D D' : Demand W} {w : W} {P : W → α → Prop} {Q : W → β → Prop} {x : BindM α}

theorem reads {f : Context → Outcome α}
    (h : ∀ {w₁ c}, w ≤ w₁ → D.context w₁ c → (f c).Meets D.error (P w₁)) :
    D.Holds w P (BindM.reads f) where
  run {w₁ _} hw hc := ⟨w₁, le_refl w₁, hc, h hw hc⟩

theorem result {a : α} (h : ∀ {w₁ c}, w ≤ w₁ → D.context w₁ c → P w₁ a) :
    D.Holds w P (Pure.pure a : BindM α) where
  run {w₁ _} hw hc := ⟨w₁, le_refl w₁, hc, h hw hc⟩

theorem pure {a : α} (h : ∀ {w₁}, w ≤ w₁ → P w₁ a) : D.Holds w P (Pure.pure a : BindM α) :=
  result fun hw _ => h hw

theorem fail {e : Error} (h : D.error e) : D.Holds w P (BindM.fail e : BindM α) where
  run {w₁ _} _ hc := ⟨w₁, le_refl w₁, hc, h⟩

theorem context : D.Holds w D.context BindM.context where
  run {w₁ _} _ hc := ⟨w₁, le_refl w₁, hc, hc⟩

theorem bind {f : α → BindM β} (hx : D.Holds w P x)
    (hf : ∀ {w₁ a}, w ≤ w₁ → P w₁ a → D.Holds w₁ Q (f a)) : D.Holds w Q (x >>= f) where
  run {w₁ c} hw hc := by
    obtain ⟨w₂, hw₂, hc₂, hx⟩ := hx.run hw hc
    rcases hr : x c with ⟨e | a, c'⟩
    · rw [hr] at hc₂ hx
      rw [BindM.bind_of_error hr]
      exact ⟨w₂, hw₂, hc₂, hx⟩
    · rw [hr] at hc₂ hx
      rw [BindM.bind_of_ok hr]
      obtain ⟨w₃, hw₃, hc₃, hy⟩ := (hf (hw.trans hw₂) hx).run (le_refl w₂) hc₂
      exact ⟨w₃, hw₂.trans hw₃, hc₃, hy⟩

/-- A computation one level deeper, where another demand is met. -/
theorem descend (h : D'.Holds w P x) (herror : ∀ {e}, D'.error e → D.error e)
    (hdeep : ∀ {w c}, D.context w c → c.settings.maxDepth ≤ c.depth →
      D.error (.nestingTooDeep (c.depth + 1) c.settings.maxDepth))
    (hdeeper : ∀ {w c}, D.context w c → c.depth < c.settings.maxDepth → D'.context w c.deeper)
    (hshallower : ∀ {w c}, D'.context w c → D.context w c.shallower) :
    D.Holds w P (BindM.descend x) where
  run {w₁ c} hw hc := by
    by_cases hlt : c.depth < c.settings.maxDepth
    · obtain ⟨w₂, hw₂, hc₂, hx⟩ := h.run hw (hdeeper hc hlt)
      rw [BindM.descend_of_lt hlt]
      refine ⟨w₂, hw₂, hshallower hc₂, ?_⟩
      cases hr : (x c.deeper).1 with
      | error e =>
        rw [hr] at hx
        exact herror hx
      | ok a =>
        rw [hr] at hx
        exact hx
    · rw [BindM.descend_of_le (Nat.le_of_not_lt hlt)]
      exact ⟨w₁, le_refl w₁, hc, hdeep hc (Nat.le_of_not_lt hlt)⟩

theorem modify {f : Context → Context} (hf : ∀ {w c}, D.context w c → D.context w (f c)) :
    D.Holds w (fun _ _ => True) (BindM.modify f) where
  run {w₁ _} _ hc := ⟨w₁, le_refl w₁, hf hc, trivial⟩

theorem allOrNothing (h : D.Holds w P x)
    (hrestore : ∀ {w w₁ c after}, w ≤ w₁ → D.context w c → D.context w₁ after →
      D.context w₁ (after.restoreClause c)) : D.Holds w P (BindM.allOrNothing x) where
  run {w₁ c} hw hc := by
    obtain ⟨w₂, hw₂, hc₂, hx⟩ := h.run hw hc
    unfold BindM.allOrNothing
    rcases hr : x c with ⟨e | a, after⟩
    · rw [hr] at hc₂ hx
      exact ⟨w₂, hw₂, hrestore hw₂ hc hc₂, hx⟩
    · rw [hr] at hc₂ hx
      exact ⟨w₂, hw₂, hc₂, hx⟩

theorem withRangeVariable {f : Param → BindM α} (name : String) (type : HostType)
    (hpush : ∀ {w c}, D.context w c → D.context w (c.push name type))
    (hpop : ∀ {w c}, D.context w c → D.context w (c.pop name)) (hf : ∀ p, D.Holds w P (f p)) :
    D.Holds w P (BindM.withRangeVariable name type f) where
  run {w₁ c} hw hc := by
    cases hn : Entries.get? c.scope name with
    | some p =>
      rw [BindM.withRangeVariable_of_some hn]
      exact (hf p).run hw hc
    | none =>
      rw [BindM.withRangeVariable_of_none hn]
      obtain ⟨w₂, hw₂, hc₂, hx⟩ := (hf (c.newParam name type)).run hw (hpush hc)
      exact ⟨w₂, hw₂, hpop hc₂, hx⟩

theorem inChild (element : HostType)
    (hderive : ∀ {w c}, D.context w c → D.context w (c.derive element))
    (habsorb : ∀ {w w₁ c child}, w ≤ w₁ → D.context w c → D.context w₁ child →
      D.context w₁ (c.absorb child))
    (h : D.Holds w P x) : D.Holds w P (BindM.inChild element x) where
  run {w₁ c} hw hc := by
    obtain ⟨w₂, hw₂, hc₂, hx⟩ := h.run hw (hderive hc)
    exact ⟨w₂, hw₂, habsorb hw₂ hc hc₂, hx⟩

end Demand.Holds

/-! ## Rules of binding -/

/-- A demand on runs that literals meet and nodes keep, in every scope. -/
structure Demand.Lawful (D : Demand W) : Prop where
  errors : ∀ {e}, e.isTooDeep = false → D.error e
  grows : ∀ {w w₁ e}, w ≤ w₁ → D.expr w e → D.expr w₁ e
  inherited : ∀ w, Expr.Inherited (D.expr w)
  param : ∀ w p, D.expr w (.param p)
  lambda : ∀ {w body} p, D.expr w body → D.expr w (.mkLambda p body)
  constant : ∀ w v t, D.Holds w D.expr (BindM.constant v t)
  push : ∀ {w c} name type, D.context w c → D.context w (c.push name type)
  pop : ∀ {w c} name, D.context w c → D.context w (c.pop name)
  derive : ∀ {w c} element, D.context w c → D.context w (c.derive element)
  absorb : ∀ {w w₁ c child}, w ≤ w₁ → D.context w c → D.context w₁ child →
    D.context w₁ (c.absorb child)

namespace Demand.Lawful

variable {D : Demand W} (h : D.Lawful) {w : W} {sub : Node → BindM Expr}

/-- The binding of a node meets the demand at every stage. -/
abbrev Sub (D : Demand W) (sub : Node → BindM Expr) (node : Node) : Prop :=
  ∀ w, D.Holds w D.expr (sub node)

include h

theorem grows_all {w₁ : W} {es : List Expr} (hw : w ≤ w₁) (hes : ∀ e ∈ es, D.expr w e) :
    ∀ e ∈ es, D.expr w₁ e := fun e he => h.grows hw (hes e he)

theorem congruence (w : W) (c : Context) : Congruence c c fun a b => a = b ∧ D.expr w a :=
  (h.inherited w).congruence c

/-- What an operation on bound operands gives. -/
theorem meets {o : Outcome Expr} (hs : o.Shallow)
    (ho : Follows (fun _ => False) (fun a b => a = b ∧ D.expr w a) o o) :
    o.Meets D.error (D.expr w) := hs.meets ho.gives h.errors

/-- A computation of a type, of which nothing is demanded. -/
theorem plain {α : Type} {f : Context → Outcome α} (hs : ∀ c, (f c).Shallow) :
    D.Holds w (fun _ _ => True) (BindM.reads f) :=
  .reads fun _ _ => (hs _).meets (by cases f _ <;> trivial) h.errors

omit h [Preorder W] in
theorem same {es : List Expr} (hes : ∀ e ∈ es, D.expr w e) :
    List.Forall₂ (fun a b => a = b ∧ D.expr w a) es es :=
  List.forall₂_same.mpr fun e he => ⟨rfl, hes e he⟩

theorem call_expr (m : Method) {args : List Expr} (hargs : ∀ e ∈ args, D.expr w e) :
    D.expr w (.mkCall m args) := (h.inherited w).call _ _ hargs

theorem guardCall (c : Context) {sources : List Expr} {e : Expr}
    (hsources : ∀ s ∈ sources, D.expr w s) (he : D.expr w e) :
    D.expr w (Bind.guardCall (sources.filter c.needsGuard) e) :=
  ((h.congruence w c).guardCall
    (same fun s hs => hsources s (List.mem_of_mem_filter hs)) ⟨rfl, he⟩).2

theorem currentExpr (c : Context) : D.expr w c.currentExpr := by
  unfold Context.currentExpr
  split
  · exact (h.inherited w).member _ (h.param w _)
  · exact h.param w _

theorem resolve (v : RangeVariable) :
    D.Holds w D.expr (BindM.reads fun ctx => ctx.resolve v) := by
  refine .reads fun {w₁ c} _ _ => (c.resolve_shallow v).meets ?_ h.errors
  cases hr : c.resolve v with
  | error e => trivial
  | ok e =>
    obtain rfl | rfl | ⟨p, -, rfl⟩ := Context.resolve_cases hr
    · exact h.currentExpr c
    · exact h.param w₁ _
    · exact h.param w₁ _

/-! ### Literals -/

theorem enumConstant (typeName spelling : String) :
    D.Holds w D.expr (Bind.enumConstant typeName spelling) := by
  refine (h.plain fun c => c.hostType_shallow _).bind fun {_ host} _ _ => ?_
  cases host.asEnum? with
  | none => exact .fail (h.errors rfl)
  | some enum =>
    dsimp only
    cases enum.parse? spelling with
    | none => exact .fail (h.errors rfl)
    | some value => exact h.constant _ _ _

theorem collectionConstant (literals : List Literal) (type : LogicalType) :
    D.Holds w D.expr (Bind.collectionConstant literals type) := by
  refine (h.plain fun c => c.hostType_shallow _).bind fun {_ element} _ _ => ?_
  have hitems : (literals.mapM (Bind.literalItem element)).Shallow :=
    (Outcome.Meets.mapM fun l _ => Bind.literalItem_shallow element l).mono fun _ _ => trivial
  refine (h.plain fun _ => hitems).bind fun {_ items} _ _ => ?_
  exact h.constant _ _ _

theorem literal (l : Literal) (type : Option LogicalType) :
    D.Holds w D.expr (Bind.constant l type) := by
  have hdeclared (c : Context) : (type.mapM c.hostType).Shallow := by
    cases type with
    | none => trivial
    | some t =>
      rw [Option.mapM_some]
      exact (c.hostType_shallow t).bind fun _ _ => trivial
  refine (h.plain hdeclared).bind fun {_ declared} _ _ => ?_
  split
  · exact h.enumConstant _ _
  · split
    · exact .fail (h.errors rfl)
    · exact .pure fun {w₁} _ => (h.inherited w₁).const _ _
    · exact h.constant _ _ _

/-! ### Properties -/

theorem property {node source : Node} (name : String)
    (hreads : ∀ {w c e}, D.context w c → c.flattenedRead? node = some e → D.expr w e)
    (hs : Sub D sub source) : D.Holds w D.expr (Bind.property sub node source name) := by
  refine Holds.context.bind fun {w₁ c} _ hc => ?_
  cases hread : c.flattenedRead? node with
  | some read => exact .pure fun hw => h.grows hw (hreads hc hread)
  | none =>
    refine (hs w₁).bind fun {_ e} _ he => .reads fun {w₂ c₂} hw _ => ?_
    exact h.meets (c₂.memberAccess_shallow e name)
      ((h.congruence w₂ c₂).memberAccess name ⟨rfl, h.grows hw he⟩)

theorem openProperty {source : Node} (name : String) (hs : Sub D sub source)
    (hdefinition : ∀ {w c definition}, D.context w c → Bind.computed? c source name = some definition →
      Sub D sub definition) : D.Holds w D.expr (Bind.openProperty sub source name) := by
  refine Holds.context.bind fun {w₁ c} _ hc => ?_
  cases hd : Bind.computed? c source name with
  | some definition => exact hdefinition hc hd w₁
  | none =>
    refine (hs w₁).bind fun {_ e} _ he => .reads fun {w₂ c₂} hw _ => ?_
    exact h.meets (c₂.openAccess_shallow e name)
      ((h.congruence w₂ c₂).openAccess name ⟨rfl, h.grows hw he⟩)

/-! ### Operators and conversions -/

theorem binary (op : QueryOp) {left right : Node} (hl : Sub D sub left) (hr : Sub D sub right) :
    D.Holds w D.expr (Bind.binary sub op left right) := by
  refine (hl w).bind fun {w₁ l} _ hl => (hr w₁).bind fun {w₂ r} hw₂ hr => ?_
  refine .reads fun {w₃ c} hw₃ _ => h.meets (c.binary_shallow op l r) ?_
  exact (h.congruence w₃ c).binaryOperation op ⟨rfl, h.grows (hw₂.trans hw₃) hl⟩ ⟨rfl, h.grows hw₃ hr⟩

theorem unary (op : QueryUnaryOp) {operand : Node} (hs : Sub D sub operand) :
    D.Holds w D.expr (Bind.unary sub op operand) := by
  refine (hs w).bind fun {_ e} _ he => .reads fun {w₂ c} hw _ => ?_
  exact h.meets (Bind.unaryOperation_shallow op e)
    ((h.congruence w₂ c).unaryOperation op ⟨rfl, h.grows hw he⟩)

theorem convert {source : Node} (type : LogicalType) (hs : Sub D sub source) :
    D.Holds w D.expr (Bind.convert sub source type) := by
  refine (hs w).bind fun {w₁ e} _ he => (h.plain fun c => c.hostType_shallow _).bind
    fun {w₂ target} hw₂ _ => .reads fun {w₃ c} hw₃ _ => ?_
  exact h.meets (Bind.convertTo_shallow e target)
    ((h.congruence w₃ c).convertTo target ⟨rfl, h.grows (hw₂.trans hw₃) he⟩)

theorem resourceCast {source : Node} (type : LogicalType) (hs : Sub D sub source) :
    D.Holds w D.expr (Bind.resourceCast sub source type) := by
  refine (hs w).bind fun {w₁ e} _ he => (h.plain fun c => c.hostType_shallow _).bind
    fun {w₂ target} hw₂ _ => .pure fun {w₃} hw₃ => ?_
  exact (h.inherited w₃).typeAs _ (h.grows (hw₂.trans hw₃) he)

/-! ### Calls -/

theorem typeFunction (function : String) {args : List Node} (hargs : ∀ arg ∈ args, Sub D sub arg) :
    D.Holds w D.expr (Bind.typeFunction sub function args) := by
  have finish {w : W} {e : Expr} (target : HostType) (he : D.expr w e) :
      D.Holds w D.expr (Pure.pure (if function = "isof" then Bind.isOf e target
        else Bind.cast e target) : BindM Expr) := by
    refine .result fun {w₁ c} hw _ => ?_
    have hsame : e = e ∧ D.expr w₁ e := ⟨rfl, h.grows hw he⟩
    split
    · exact ((h.congruence w₁ c).isOf target hsame).2
    · exact ((h.congruence w₁ c).cast target hsame).2
  have typeArg (arg : Node) {w : W} :
      D.Holds w (fun _ _ => True) (BindM.reads (Bind.typeArgument function arg)) :=
    h.plain fun c => Bind.typeArgument_shallow function arg c
  rcases args with _ | ⟨a, _ | ⟨b, _ | ⟨c, rest⟩⟩⟩
  · exact .fail (h.errors rfl)
  · exact (typeArg a).bind fun {_ target} _ _ => (h.resolve _).bind fun _ he => finish target he
  · exact (typeArg b).bind fun {w₁ target} _ _ => (hargs a (by simp) w₁).bind fun _ he =>
      finish target he
  · exact .fail (h.errors rfl)

theorem arguments (function : String) {args : List Node} (hargs : ∀ arg ∈ args, Sub D sub arg)
    (kinds : List ArgKind) :
    D.Holds w (fun w es => ∀ e ∈ es, D.expr w e) (Bind.arguments sub function args kinds) := by
  induction args generalizing kinds w with
  | nil => exact .pure fun _ => nofun
  | cons arg args ih =>
    cases kinds with
    | nil => exact .pure fun _ => nofun
    | cons k ks =>
      refine (hargs arg (by simp) w).bind fun {w₁ e} _ he => ?_
      refine Holds.bind (P := D.expr) (.reads fun {w₂ c} hw _ => h.meets (Bind.coerce_shallow _ _ _)
        ((h.congruence w₂ c).coerce function k ⟨rfl, h.grows hw he⟩)) fun _ he => ?_
      refine (ih (fun a ha => hargs a (by simp [ha])) ks).bind fun {w₃ es} hw₃ hes => ?_
      exact .pure fun hw₄ => List.forall_mem_cons.mpr
        ⟨h.grows (hw₃.trans hw₄) he, h.grows_all hw₄ hes⟩

theorem builtinCall (b : Builtin) (name : String) {args : List Node}
    (hargs : ∀ arg ∈ args, Sub D sub arg) : D.Holds w D.expr (Bind.builtinCall sub b name args) := by
  unfold Bind.builtinCall
  split
  · refine (h.arguments name hargs b.args).bind fun {w₁ bound} _ hbound => ?_
    refine Holds.context.bind fun {w₂ c} hw₂ _ => .pure fun {w₃} hw₃ => ?_
    have hall := h.grows_all (hw₂.trans hw₃) hbound
    split
    · have hdoubles : ∀ e ∈ bound.map Bind.integralToDouble, D.expr w₃ e := by
        intro e he
        obtain ⟨x, hx, rfl⟩ := List.mem_map.mp he
        exact ((h.congruence w₃ c).integralToDouble ⟨rfl, hall x hx⟩).2
      exact h.guardCall c hdoubles (h.call_expr _ hdoubles)
    · exact h.guardCall c hall (h.call_expr _ hall)
  · exact .fail (h.errors rfl)

theorem call (name : String) {args : List Node} (hargs : ∀ arg ∈ args, Sub D sub arg) :
    D.Holds w D.expr (Bind.call sub name args) := by
  unfold Bind.call
  dsimp only
  split
  · exact h.typeFunction _ hargs
  · split
    · exact h.builtinCall _ name hargs
    · exact .fail (h.errors rfl)

/-! ### Collections -/

theorem guarded {s : Expr} {op : CollectionOperator} {args : List Expr} (hs : D.expr w s)
    (hargs : ∀ e ∈ args, D.expr w e) : D.Holds w D.expr (Bind.guarded s (.mkCollection op args)) := by
  refine Holds.context.bind fun {w₁ c} hw₁ _ => .pure fun hw₂ => ?_
  rw [c.guardIfNeeded_eq]
  have hw := hw₁.trans hw₂
  exact h.guardCall c (by simpa using h.grows hw hs) (h.call_expr _ (h.grows_all hw hargs))

/-- The source of a collection operator with the type of its items. -/
theorem overItems {source : Node} {f : Expr → HostType → BindM Expr} (hs : Sub D sub source)
    (hf : ∀ {w s} element, D.expr w s → D.Holds w D.expr (f s element)) :
    D.Holds w D.expr (sub source >>= fun s => BindM.ofOutcome (Bind.itemType s) >>= f s) := by
  refine (hs w).bind fun {w₁ s} _ hs => ?_
  refine (h.plain fun _ => Bind.itemType_shallow s).bind fun {w₂ element} hw₂ _ => ?_
  exact hf element (h.grows hw₂ hs)

theorem predicate {body : Node} (hs : Sub D sub body) (p : Param) :
    D.Holds w (fun w l => D.expr w l.toExpr) (Bind.predicate sub body p) := by
  refine (hs w).bind fun {w₁ e} _ he => ?_
  refine Holds.bind (P := D.expr) (.reads fun {w₂ c} hw _ => h.meets (c.normalizePredicate_shallow e)
    ((h.congruence w₂ c).normalizePredicate ⟨rfl, h.grows hw he⟩)) fun _ he => ?_
  exact .pure fun hw => h.lambda p (h.grows hw he)

theorem filterLambda {body : Node} (hs : Sub D sub body) :
    D.Holds w (fun w l => D.expr w l.toExpr) (Bind.filterLambda sub body) := by
  refine (hs w).bind fun {w₁ e} _ he => ?_
  refine Holds.bind (P := D.expr) (.reads fun {w₂ c} hw _ => h.meets (c.normalizePredicate_shallow e)
    ((h.congruence w₂ c).normalizePredicate ⟨rfl, h.grows hw he⟩)) fun {w₂ e} _ he => ?_
  split
  · exact Holds.context.bind fun hw _ => .pure fun hw' => h.lambda _ (h.grows (hw.trans hw') he)
  · exact .fail (h.errors rfl)

theorem quantified {body : Node} (hs : Sub D sub body) (name : String) (element : HostType) :
    D.Holds w (fun w l => D.expr w l.toExpr)
      (BindM.withRangeVariable name element fun p => Bind.predicate sub body p) :=
  .withRangeVariable name element (h.push name element) (h.pop name) fun p => h.predicate hs p

theorem nested {body : Node} (hs : Sub D sub body) (element : HostType) :
    D.Holds w (fun w l => D.expr w l.toExpr)
      (BindM.inChild element (Bind.filterLambda sub body)) :=
  .inChild element (h.derive element) h.absorb (h.filterLambda hs)

theorem any {source : Node} (hs : Sub D sub source) (v : RangeVariable) {body : Option Node}
    (hbody : ∀ b, body = some b → Sub D sub b) : D.Holds w D.expr (Bind.any sub source v body) := by
  refine h.overItems hs fun {w₁ s} element hs => ?_
  have bare : D.Holds w₁ D.expr (Bind.guarded s (.mkCollection .any [s])) :=
    h.guarded hs (by simpa using hs)
  split
  · exact bare
  · exact bare
  · exact .pure fun {w₂} _ => (h.inherited w₂).const _ _
  · refine (h.quantified (hbody _ rfl) _ _).bind fun {w₂ l} hw₂ hl => ?_
    have hs := h.grows hw₂ hs
    exact h.guarded hs (by simp [hs, hl])

theorem all {source body : Node} (hs : Sub D sub source) (v : RangeVariable) (hbody : Sub D sub body) :
    D.Holds w D.expr (Bind.all sub source v body) := by
  refine h.overItems hs fun element hs => (h.quantified hbody _ _).bind fun {w₂ l} hw₂ hl => ?_
  have hs := h.grows hw₂ hs
  exact h.guarded hs (by simp [hs, hl])

theorem isIn {probe items : Node} (hp : Sub D sub probe) (hs : Sub D sub items) :
    D.Holds w D.expr (Bind.isIn sub probe items) := by
  refine (hp w).bind fun {w₁ p} _ hp => (hs w₁).bind fun {w₂ s} hw₂ hs => ?_
  refine (h.plain fun _ => Bind.itemType_shallow s).bind fun {w₃ element} hw₃ _ => ?_
  have hs := h.grows hw₃ hs
  have contained {q : Expr} (hq : D.expr w₃ q) : D.Holds w₃ D.expr (Bind.guarded s
      (.mkCollection .contains [if q.type = element then s else .mkCollection (.cast q.type) [s], q])) := by
    refine h.guarded hs (List.forall_mem_cons.mpr ⟨?_, by simpa using hq⟩)
    split
    · exact hs
    · exact h.call_expr _ (by simpa using hs)
  dsimp only
  split
  · exact contained ((h.inherited w₃).const _ _)
  · exact contained (h.grows (hw₂.trans hw₃) hp)

theorem count {source : Node} (hs : Sub D sub source) :
    D.Holds w D.expr (Bind.count sub source) :=
  h.overItems hs fun _ hs => h.guarded hs (by simpa using hs)

theorem countWhere {source body : Node} (hs : Sub D sub source) (hbody : Sub D sub body) :
    D.Holds w D.expr (Bind.countWhere sub source body) := by
  refine h.overItems hs fun {_ s} element hs => (h.nested hbody element).bind fun {w₂ l} hw₂ hl => ?_
  have hs := h.grows hw₂ hs
  have hfiltered : D.expr w₂ (.mkCollection .filter [s, l.toExpr]) := h.call_expr _ (by simp [hs, hl])
  exact h.guarded hs (by simpa using hfiltered)

theorem collectionCast {source : Node} (type : LogicalType) (hs : Sub D sub source) :
    D.Holds w D.expr (Bind.collectionCast sub source type) := by
  refine h.overItems hs fun _ hs => (h.plain fun c => c.hostType_shallow _).bind
    fun {w₂ target} hw₂ _ => ?_
  have hs := h.grows hw₂ hs
  exact h.guarded hs (by simpa using hs)

/-! ### Nodes -/

/-- **Every rule of binding meets the demand**, if the bindings of the nodes inside do, and those of
the definition of a computed column that the node names. -/
theorem inside (node : Node)
    (hreads : ∀ {w c e}, D.context w c → c.flattenedRead? node = some e → D.expr w e)
    (hdefinition : ∀ {w c name definition}, node.alias? = some name → D.context w c →
      Entries.get? c.computed name = some definition → Sub D sub definition)
    (hsub : ∀ child ∈ node.children, Sub D sub child) : D.Holds w D.expr (Bind.step sub node) := by
  -- both kinds of open properties look for a computed column first
  have column (source : Node) (name : String)
      (halias : node.alias? = (Node.openProperty source name).alias?) (hs : Sub D sub source) :
      D.Holds w D.expr (Bind.openProperty sub source name) := by
    refine h.openProperty name hs fun {w c definition} hc hd => ?_
    rw [Bind.computed?_eq, ← halias] at hd
    obtain ⟨a, ha, hget⟩ := Option.bind_eq_some_iff.mp hd
    exact hdefinition ha hc hget
  cases node with
  | constant l type => exact h.literal l type
  | rangeVariable v => exact h.resolve v
  | property source name kind => exact h.property name hreads (hsub _ List.mem_cons_self)
  | openProperty source name => exact column source name rfl (hsub _ List.mem_cons_self)
  | openCollection source name =>
    exact column source name (by cases source <;> rfl) (hsub _ List.mem_cons_self)
  | binary op left right =>
    exact h.binary op (hsub left (by simp [Node.children, Node.parts]))
      (hsub right (by simp [Node.children, Node.parts]))
  | unary op operand => exact h.unary op (hsub _ List.mem_cons_self)
  | convert source type => exact h.convert type (hsub _ List.mem_cons_self)
  | call name args | resourceCall name args => exact h.call name hsub
  | any source v body =>
    exact h.any (hsub _ List.mem_cons_self) v fun b hb =>
      hsub b (by simp [Node.children, Node.parts, hb])
  | all source v body =>
    exact h.all (hsub _ List.mem_cons_self) v (hsub body (by simp [Node.children, Node.parts]))
  | isIn probe items =>
    exact h.isIn (hsub probe (by simp [Node.children, Node.parts]))
      (hsub items (by simp [Node.children, Node.parts]))
  | count source => exact h.count (hsub _ List.mem_cons_self)
  | countWhere source predicate =>
    exact h.countWhere (hsub _ List.mem_cons_self) (hsub predicate (by simp [Node.children]))
  | collectionCast source type => exact h.collectionCast type (hsub _ List.mem_cons_self)
  | resourceCast source type => exact h.resourceCast type (hsub _ List.mem_cons_self)
  | collectionConstant literals element => exact h.collectionConstant literals element
  | namedParameter | parameterAlias | entitySet | keyLookup | searchTerm => exact .fail (h.errors rfl)

/-- **Every node meets a demand that does not look at levels.** -/
theorem node (herror : ∀ e, D.error e)
    (hdeeper : ∀ {w c}, D.context w c → D.context w c.deeper)
    (hshallower : ∀ {w c}, D.context w c → D.context w c.shallower)
    (hreads : ∀ {w c node e}, D.context w c → c.flattenedRead? node = some e → D.expr w e)
    (node : Node) : D.Holds w D.expr node.bind := by
  have within (levels : Nat) : ∀ w (node : Node), D.Holds w D.expr (node.bindWithin levels) := by
    induction levels with
    | zero => exact fun w node => .mk fun {w₁ _} _ hc => ⟨w₁, le_refl w₁, hc, herror _⟩
    | succ levels ih =>
      intro w node
      refine .descend ?_ id (fun _ _ => herror _) (fun hc _ => hdeeper hc) hshallower
      exact h.inside node hreads (fun _ _ _ w => ih w _) fun child _ w => ih w child
  exact ⟨fun {_ c} => (within c.levelsLeft w node).run⟩

end Demand.Lawful

end TypedQuery
