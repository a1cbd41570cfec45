import Mathlib.Data.List.Forall2
import Mathlib.Tactic.Common
import TypedQuery.Bind.Node
import TypedQuery.Proofs.Integrity

/-!
# Relations that binding respects

Binding looks at an operand only through a few tests: its static type, whether it is a literal and
which one, whether an access through it is guarded. What it builds is built from nodes. A relation
between expressions that the tests respect and the nodes keep is therefore kept by every operation
of binding on bound operands.

* `Follows`: an outcome follows another: a related result, or the same error.
* `NodeCongruence`: a relation between the expressions of two contexts that all tests but the one for
  guards respect; that one need be respected only by the sources of members and flags.
* `Congruence`: a relation that the test for guards respects too.
* **`NodeCongruence.binaryOperation`**, `NodeCongruence.openAccess`, `NodeCongruence.convertTo`,
  `NodeCongruence.guardCall`: the operations of binding on related operands.
-/

namespace TypedQuery

/-! ## Outcomes -/

section Follows

variable {α β γ δ : Type} {E : Error → Prop} {R : α → β → Prop} {S : γ → δ → Prop}

/-- The second outcome follows the first: it gives a related result, and repeats an error for which
`E` holds. -/
def Follows (E : Error → Prop) (R : α → β → Prop) : Outcome α → Outcome β → Prop
  | .ok a, .ok b => R a b
  | .ok _, .error _ => False
  | .error e, o => E e → o = .error e

theorem Follows.error (e : Error) : Follows E R (.error e) (.error e) := fun _ => rfl

theorem Follows.exists_ok {a : α} {o : Outcome β} (h : Follows E R (.ok a) o) :
    ∃ b, o = .ok b ∧ R a b := by
  cases o with
  | ok b => exact ⟨b, rfl, h⟩
  | error e => exact h.elim

theorem Follows.bind {o₁ : Outcome α} {o₂ : Outcome β} {f : α → Outcome γ} {g : β → Outcome δ}
    (h : Follows E R o₁ o₂) (hf : ∀ a b, R a b → Follows E S (f a) (g b)) :
    Follows E S (o₁ >>= f) (o₂ >>= g) := by
  cases o₁ with
  | ok a =>
    obtain ⟨b, rfl, hab⟩ := h.exists_ok
    exact hf a b hab
  | error e =>
    intro he
    rw [h he]
    rfl

theorem Follows.mono {R' : α → β → Prop} {o₁ : Outcome α} {o₂ : Outcome β} (h : Follows E R o₁ o₂)
    (hR : ∀ a b, R a b → R' a b) : Follows E R' o₁ o₂ := by
  cases o₁ with
  | ok a =>
    obtain ⟨b, rfl, hab⟩ := h.exists_ok
    exact hR a b hab
  | error e => exact h

theorem Follows.eq_refl (o : Outcome α) : Follows E Eq o o := by
  cases o with
  | ok a => exact rfl
  | error e => exact Follows.error e

theorem Follows.eq_of_gives {P : α → Prop} {o : Outcome α} (ho : o.Gives P) :
    Follows E (fun a b => a = b ∧ P a) o o := by
  cases o with
  | ok a => exact ⟨rfl, ho⟩
  | error e => exact Follows.error e

end Follows

/-! ## Lambdas among arguments -/

theorem argType_eq_map (args : List Expr) (i : Nat) :
    argType args i = (args.map Expr.type)[i]?.getD .object := by
  simp [argType]

/-- The type of what a lambda gives; none of an expression that is no lambda. -/
def Expr.lambdaType? : Expr → Option HostType
  | .lambda _ body => some body.type
  | _ => none

theorem selectedType_eq (args : List Expr) :
    selectedType args = (args[1]?.bind Expr.lambdaType?).getD (sourceElement args) := by
  rcases args with _ | ⟨a, _ | ⟨b, rest⟩⟩
  · rfl
  · rfl
  · cases b <;> rfl

theorem Expr.lambdaType?_eq_none {e : Expr} (h : e.isLambda = false) : e.lambdaType? = none := by
  cases e <;> first | rfl | cases h

/-! ## Congruences -/

/-- A relation between the expressions of two contexts that the tests of binding respect and the
nodes of expressions keep. The test for guards is respected where records and enumerations are
accessed. -/
structure NodeCongruence (c₁ c₂ : Context) (R : Expr → Expr → Prop) : Prop where
  schema : c₁.schema = c₂.schema
  nullPropagation : c₁.settings.nullPropagation = c₂.settings.nullPropagation
  type : ∀ {e₁ e₂}, R e₁ e₂ → e₁.type = e₂.type
  isNullConst : ∀ {e₁ e₂}, R e₁ e₂ → e₁.isNullConst = e₂.isNullConst
  constValue : ∀ {e₁ e₂}, R e₁ e₂ → e₁.constValue? = e₂.constValue?
  lambdaType : ∀ {e₁ e₂}, R e₁ e₂ → e₁.lambdaType? = e₂.lambdaType?
  accessGuard : ∀ {e₁ e₂}, R e₁ e₂ → e₂.type.recordName?.isSome ∨ e₂.type.asEnum?.isSome →
    c₁.needsGuard e₁ = c₂.needsGuard e₂
  const : ∀ {v} t, v.WellFormed → R (.const v t) (.const v t)
  model : ∀ s, R (.captured "model" (.model s) .model) (.captured "model" (.model s) .model)
  member : ∀ {s₁ s₂} m, R s₁ s₂ → R (.member s₁ m) (.member s₂ m)
  index : ∀ {s₁ s₂ k₁ k₂}, R s₁ s₂ → R k₁ k₂ → R (.index s₁ k₁) (.index s₂ k₂)
  binary : ∀ {l₁ l₂ r₁ r₂} op lifted t, R l₁ l₂ → R r₁ r₂ →
    R (.binary op l₁ r₁ lifted t) (.binary op l₂ r₂ lifted t)
  unary : ∀ {x₁ x₂} op t, R x₁ x₂ → R (.unary op x₁ t) (.unary op x₂ t)
  convert : ∀ {x₁ x₂} t, R x₁ x₂ → R (.convert x₁ t) (.convert x₂ t)
  typeIs : ∀ {x₁ x₂} t, R x₁ x₂ → R (.typeIs x₁ t) (.typeIs x₂ t)
  typeAs : ∀ {x₁ x₂} t, R x₁ x₂ → R (.typeAs x₁ t) (.typeAs x₂ t)
  cond : ∀ {b₁ b₂ x₁ x₂ y₁ y₂} t, R b₁ b₂ → R x₁ x₂ → R y₁ y₂ →
    R (.cond b₁ x₁ y₁ t) (.cond b₂ x₂ y₂ t)
  call : ∀ {args₁ args₂} m t, List.Forall₂ R args₁ args₂ → R (.call m args₁ t) (.call m args₂ t)

/-- A relation that all tests of binding respect and the nodes of expressions keep. -/
structure Congruence (c₁ c₂ : Context) (R : Expr → Expr → Prop) : Prop
    extends NodeCongruence c₁ c₂ R where
  needsGuard : ∀ {e₁ e₂}, R e₁ e₂ → c₁.needsGuard e₁ = c₂.needsGuard e₂
  accessGuard := fun h _ => needsGuard h

namespace NodeCongruence

variable {c₁ c₂ : Context} {R : Expr → Expr → Prop} (h : NodeCongruence c₁ c₂ R)
  {E : Error → Prop} {e₁ e₂ l₁ l₂ r₁ r₂ s₁ s₂ : Expr} {args₁ args₂ : List Expr}

include h

/-! ### Nodes with their types -/

theorem mkNull (t : HostType) : R (.mkNull t) (.mkNull t) := h.const _ (.scalar rfl)

theorem mkBool (b : Bool) : R (.mkBool b) (.mkBool b) := h.const _ (.scalar rfl)

theorem mkConst {v : Value} (hv : v.WellFormed) : R (.mkConst v) (.mkConst v) := h.const _ hv

theorem mkBinary (op : BinaryOp) (lifted : Bool) (hl : R l₁ l₂) (hr : R r₁ r₂) :
    R (.mkBinary op l₁ r₁ lifted) (.mkBinary op l₂ r₂ lifted) := by
  unfold Expr.mkBinary
  rw [h.type hl, h.type hr]
  exact h.binary _ _ _ hl hr

theorem mkEqual (hl : R l₁ l₂) (hr : R r₁ r₂) : R (.mkEqual l₁ r₁) (.mkEqual l₂ r₂) :=
  h.mkBinary _ _ hl hr

theorem mkNotEqual (hl : R l₁ l₂) (hr : R r₁ r₂) : R (.mkNotEqual l₁ r₁) (.mkNotEqual l₂ r₂) :=
  h.mkBinary _ _ hl hr

theorem mkUnary (op : UnaryOp) (he : R e₁ e₂) : R (.mkUnary op e₁) (.mkUnary op e₂) := by
  unfold Expr.mkUnary
  rw [h.type he]
  exact h.unary _ _ he

theorem convertNode (t : HostType) (he : R e₁ e₂) : R (e₁.convertTo t) (e₂.convertTo t) := by
  unfold Expr.convertTo
  rw [h.type he]
  split
  · exact he
  · exact h.convert _ he

theorem mkTypeAs (t : HostType) (he : R e₁ e₂) : R (.mkTypeAs e₁ t) (.mkTypeAs e₂ t) :=
  h.typeAs _ he

theorem mkCond (hs : R s₁ s₂) (hl : R l₁ l₂) (hr : R r₁ r₂) :
    R (.mkCond s₁ l₁ r₁) (.mkCond s₂ l₂ r₂) := by
  unfold Expr.mkCond
  rw [h.type hl, h.type hr, h.isNullConst hl]
  exact h.cond _ hs hl hr

theorem map_type (hargs : List.Forall₂ R args₁ args₂) :
    args₁.map Expr.type = args₂.map Expr.type := by
  induction hargs with
  | nil => rfl
  | cons he _ ih => rw [List.map_cons, List.map_cons, h.type he, ih]

theorem selectedType (hargs : List.Forall₂ R args₁ args₂) :
    selectedType args₁ = selectedType args₂ := by
  have harg : argType args₁ 0 = argType args₂ 0 := by
    rw [argType_eq_map, argType_eq_map, h.map_type hargs]
  rw [selectedType_eq, selectedType_eq, sourceElement, sourceElement, harg]
  rcases hargs with _ | ⟨_, _ | ⟨hb, _⟩⟩
  · rfl
  · rfl
  · exact congrArg (fun t : Option HostType => t.getD _) (h.lambdaType hb)

theorem resultType (m : Method) (hargs : List.Forall₂ R args₁ args₂) :
    m.resultType args₁ = m.resultType args₂ := by
  have harg (i : Nat) : argType args₁ i = argType args₂ i := by
    rw [argType_eq_map, argType_eq_map, h.map_type hargs]
  have hselected := h.selectedType hargs
  cases m with
  | scalar f => cases f <;> simp only [Method.resultType, ScalarFunction.resultType, harg]
  | collection op =>
    cases op <;>
      simp only [Method.resultType, CollectionOperator.resultType, hselected, sourceElement, harg]
  | lookup l => cases l <;> rfl

theorem mkCall (m : Method) (hargs : List.Forall₂ R args₁ args₂) :
    R (.mkCall m args₁) (.mkCall m args₂) := by
  unfold Expr.mkCall
  rw [h.resultType m hargs]
  exact h.call _ _ hargs

theorem mkScalar (f : ScalarFunction) (hargs : List.Forall₂ R args₁ args₂) :
    R (.mkScalar f args₁) (.mkScalar f args₂) := h.mkCall _ hargs

theorem mkLookup (l : Lookup) (hargs : List.Forall₂ R args₁ args₂) :
    R (.mkLookup l args₁) (.mkLookup l args₂) := h.mkCall _ hargs

theorem mkCollection (op : CollectionOperator) (hargs : List.Forall₂ R args₁ args₂) :
    R (.mkCollection op args₁) (.mkCollection op args₂) := h.mkCall _ hargs

theorem modelExpr : R c₁.modelExpr c₂.modelExpr := by
  unfold Context.modelExpr
  rw [h.schema]
  exact h.model _

/-! ### Guards -/

theorem guardedBy (hs : R s₁ s₂) (hr : R r₁ r₂) : R (r₁.guardedBy s₁) (r₂.guardedBy s₂) := by
  unfold Expr.guardedBy
  rw [h.type hs, h.type hr]
  exact h.mkCond (h.mkEqual hs (h.mkNull _)) (h.mkNull _) (h.convertNode _ hr)

/-- An access through related sources that are guarded alike. -/
theorem guardAccess (hneed : c₁.needsGuard s₁ = c₂.needsGuard s₂) (hs : R s₁ s₂) (hr : R r₁ r₂) :
    R (c₁.guardIfNeeded s₁ r₁) (c₂.guardIfNeeded s₂ r₂) := by
  unfold Context.guardIfNeeded
  rw [hneed]
  split
  · exact h.guardedBy hs hr
  · exact hr

theorem foldNull (he : R e₁ e₂) : R (c₁.foldNull e₁) (c₂.foldNull e₂) := by
  unfold Context.foldNull
  rw [h.nullPropagation]
  split
  · exact h.mkEqual he (h.const _ (.scalar rfl))
  · exact h.convert _ he

theorem normalizePredicate (he : R e₁ e₂) :
    Follows E R (c₁.normalizePredicate e₁) (c₂.normalizePredicate e₂) := by
  unfold Context.normalizePredicate
  rw [h.type he]
  split
  · exact he
  · exact h.foldNull (h.convert _ he)
  · split
    · exact h.foldNull he
    · exact Follows.error _

/-! ### Properties -/

theorem widenPrimitive (he : R e₁ e₂) : R e₁.widenPrimitive e₂.widenPrimitive := by
  unfold Expr.widenPrimitive
  rw [h.type he]
  split
  · exact h.convert _ he
  · exact he

theorem memberAccess (name : String) (hs : R s₁ s₂) :
    Follows E R (c₁.memberAccess s₁ name) (c₂.memberAccess s₂ name) := by
  unfold Context.memberAccess
  rw [h.type hs, h.schema]
  split
  next hm =>
    obtain ⟨_, hrecord, _⟩ := Option.bind_eq_some_iff.mp hm
    have hneed := h.accessGuard hs (.inl (by rw [hrecord]; rfl))
    exact h.guardAccess hneed hs (h.widenPrimitive (h.member _ hs))
  next => exact Follows.error _

theorem entryOfBag (name : String) (hs : R s₁ s₂) :
    R (c₁.entryOfBag s₁ name) (c₂.entryOfBag s₂ name) := by
  have hkey := h.mkConst (v := .string name) (.scalar rfl)
  have hcontains := h.mkLookup .containsKey (.cons hs (.cons hkey .nil))
  unfold Context.entryOfBag
  rw [h.nullPropagation]
  refine h.mkCond ?_ (h.index hs hkey) (h.mkNull _)
  split
  · exact h.mkBinary _ _ (h.mkNotEqual hs (h.mkNull _)) hcontains
  · exact hcontains

theorem bagAccess {typeName : String} (hrecord : s₂.type = .record typeName) (name : String)
    (hs : R s₁ s₂) :
    Follows E R (c₁.bagAccess s₁ typeName name) (c₂.bagAccess s₂ typeName name) := by
  have hneed := h.accessGuard hs (.inl (by rw [hrecord]; rfl))
  unfold Context.bagAccess
  rw [h.schema]
  split
  · exact h.memberAccess name hs
  · split
    · exact h.guardAccess hneed hs (h.entryOfBag name (h.member _ hs))
    · exact Follows.error _

theorem dynamicAccess (name : String) (hs : R s₁ s₂) :
    R (c₁.dynamicAccess s₁ name) (c₂.dynamicAccess s₂ name) := by
  have hkey := h.mkConst (v := .string name) (.scalar rfl)
  have hmodel := h.modelExpr
  exact h.mkCond (h.mkLookup _ (.cons hmodel (.cons hs (.cons hkey .nil))))
    (h.mkLookup _ (.cons hs (.cons hkey .nil)))
    (h.mkLookup _ (.cons hmodel (.cons hs (.cons hkey .nil))))

theorem openAccess (name : String) (hs : R s₁ s₂) :
    Follows E R (c₁.openAccess s₁ name) (c₂.openAccess s₂ name) := by
  unfold Context.openAccess
  rw [h.type hs]
  split
  next => exact h.dynamicAccess name hs
  next hrecord => exact h.bagAccess hrecord name hs
  next => exact Follows.error _

/-! ### Binary operators -/

theorem enumLiteral (enum : EnumType) (he : R e₁ e₂) :
    Bind.enumLiteral e₁ enum = Bind.enumLiteral e₂ enum := by
  unfold Bind.enumLiteral
  rw [h.constValue he, h.type he]

theorem toUnderlying (enum : EnumType) (he : R e₁ e₂) :
    Follows E R (Bind.toUnderlying e₁ enum) (Bind.toUnderlying e₂ enum) := by
  unfold Bind.toUnderlying
  dsimp only
  rw [h.isNullConst he, h.type he, h.enumLiteral enum he]
  split_ifs
  · exact h.mkNull _
  · exact h.convert _ he
  · exact h.convertNode _ he
  · refine (Follows.eq_refl _).bind fun value _ hv => ?_
    subst hv
    refine (Follows.eq_of_gives (Value.ofInt_wellFormed _ _)).bind fun v _ hw => ?_
    obtain ⟨rfl, hw⟩ := hw
    exact h.const _ hw

/-- Two pairs of operands are related one by one. -/
def OperandsRel (R : Expr → Expr → Prop) (p q : Expr × Expr) : Prop := R p.1 q.1 ∧ R p.2 q.2

theorem unifyEnums (hl : R l₁ l₂) (hr : R r₁ r₂) :
    Follows E (OperandsRel R) (Bind.unifyEnums l₁ r₁) (Bind.unifyEnums l₂ r₂) := by
  unfold Bind.unifyEnums
  rw [h.type hl, h.type hr]
  split
  · exact ⟨hl, hr⟩
  · exact (h.toUnderlying _ hl).bind fun _ _ hl' => (h.toUnderlying _ hr).bind fun _ _ hr' =>
      ⟨hl', hr'⟩

theorem unifyNulls (hl : R l₁ l₂) (hr : R r₁ r₂) :
    OperandsRel R (Bind.unifyNulls l₁ r₁) (Bind.unifyNulls l₂ r₂) := by
  unfold Bind.unifyNulls
  rw [h.isNullConst hl, h.isNullConst hr, h.type hl, h.type hr]
  split
  · exact ⟨h.mkNull _, hr⟩
  · exact ⟨hl, h.mkNull _⟩
  · exact ⟨hl, hr⟩

theorem asBoolean (he : R e₁ e₂) : Follows E R (Bind.asBoolean e₁) (Bind.asBoolean e₂) := by
  unfold Bind.asBoolean
  rw [h.type he]
  split_ifs
  · exact he
  · exact h.convert _ he
  · exact Follows.error _

theorem logical (op : BinaryOp) (hl : R l₁ l₂) (hr : R r₁ r₂) :
    Follows E R (Bind.logical op l₁ r₁) (Bind.logical op l₂ r₂) := by
  refine (h.asBoolean hl).bind fun a₁ a₂ ha => (h.asBoolean hr).bind fun b₁ b₂ hb => ?_
  dsimp only
  rw [h.type ha, h.type hb]
  split_ifs
  · exact h.mkBinary _ _ (h.convertNode _ ha) (h.convertNode _ hb)
  · exact h.mkBinary _ _ ha hb

theorem timeKey (k : Bind.TimeKey) (he : R e₁ e₂) : R (k.key e₁) (k.key e₂) := by
  have part (f : ScalarFunction) : R (.mkScalar f [e₁]) (.mkScalar f [e₂]) :=
    h.mkScalar f (.cons he .nil)
  cases k with
  | date =>
    have scaled (f : ScalarFunction) (n : Int) :
        R (Bind.TimeKey.datePart e₁ f n) (Bind.TimeKey.datePart e₂ f n) :=
      h.mkBinary _ _ (part f) (h.mkConst (.scalar rfl))
    exact h.mkBinary _ _ (h.mkBinary _ _ (scaled _ _) (scaled _ _)) (part _)
  | time =>
    have scaled (f : ScalarFunction) (n : Int) :
        R (Bind.TimeKey.timePart e₁ f n) (Bind.TimeKey.timePart e₂ f n) :=
      h.mkBinary _ _ (h.convert _ (part f)) (h.mkConst (.scalar rfl))
    exact h.mkBinary _ _ (h.mkBinary _ _ (h.mkBinary _ _ (scaled _ _) (scaled _ _)) (scaled _ _))
      (scaled _ _)

theorem project (k : Bind.TimeKey) (he : R e₁ e₂) : R (k.project e₁) (k.project e₂) := by
  unfold Bind.TimeKey.project
  rw [h.isNullConst he, h.type he]
  split_ifs
  · exact h.mkNull _
  · exact h.mkCond (h.mkEqual he (h.mkNull _)) (h.mkNull _) (h.convert _ (h.timeKey k he))
  · exact h.timeKey k he

/-- A comparison by way of a function is there on both sides or on neither. -/
theorem ordinal (op : BinaryOp) (hl : R l₁ l₂) (hr : R r₁ r₂) :
    Option.Rel R (Bind.ordinal? op l₁ r₁) (Bind.ordinal? op l₂ r₂) := by
  have call (f : ScalarFunction) : R (.mkScalar f [l₁, r₁]) (.mkScalar f [l₂, r₂]) :=
    h.mkScalar f (.cons hl (.cons hr .nil))
  unfold Bind.ordinal?
  dsimp only
  rw [h.type hl, h.type hr]
  split_ifs
  · exact .some (h.mkBinary _ _ (call _) (h.mkConst (.scalar rfl)))
  · exact .some (h.mkUnary _ (call _))
  · exact .some (call _)
  · exact .none

theorem promote (hl : R l₁ l₂) (hr : R r₁ r₂) :
    Follows E (OperandsRel R) (Bind.promote l₁ r₁) (Bind.promote l₂ r₂) := by
  unfold Bind.promote
  rw [h.type hl, h.type hr]
  split_ifs
  · exact ⟨hl, hr⟩
  · exact ⟨h.convertNode _ hl, h.convertNode _ hr⟩
  · split
    · exact Follows.error _
    · exact ⟨h.convertNode _ hl, h.convertNode _ hr⟩

theorem operation (op : BinaryOp) (hl : R l₁ l₂) (hr : R r₁ r₂) :
    R (c₁.operation op l₁ r₁) (c₂.operation op l₂ r₂) := by
  unfold Context.operation
  rw [h.nullPropagation, h.type hl, h.type hr, h.isNullConst hl, h.isNullConst hr]
  exact h.mkBinary _ _ hl hr

theorem promotedOperation (op : BinaryOp) (hl : R l₁ l₂) (hr : R r₁ r₂) :
    Follows E R (do let (l, r) ← Bind.promote l₁ r₁; return c₁.operation op l r)
      (do let (l, r) ← Bind.promote l₂ r₂; return c₂.operation op l r) :=
  (h.promote hl hr).bind fun _ _ hp => h.operation op hp.1 hp.2

theorem hasFlag (hl : R l₁ l₂) (hr : R r₁ r₂) :
    Follows E R (c₁.hasFlag l₁ r₁) (c₂.hasFlag l₂ r₂) := by
  unfold Context.hasFlag
  rw [h.type hl, h.type hr]
  split
  · exact Follows.error _
  · rename_i enum henum
    have hneed := h.accessGuard hl (.inr (by rw [henum]; rfl))
    have finish {f₁ f₂ : Expr} (hf : R f₁ f₂) :
        R (c₁.guardIfNeeded l₁ (.mkScalar .hasFlag [l₁, f₁]))
          (c₂.guardIfNeeded l₂ (.mkScalar .hasFlag [l₂, f₂])) :=
      h.guardAccess hneed hl (h.mkScalar _ (.cons hl (.cons hf .nil)))
    dsimp only
    rw [h.enumLiteral enum hr]
    split
    · exact finish hr
    · refine (Follows.eq_refl _).bind fun value _ hv => ?_
      subst hv
      exact finish (h.const _ (.scalar rfl))

theorem comparison (op : BinaryOp) (hl : R l₁ l₂) (hr : R r₁ r₂) :
    Follows E R (c₁.comparison op l₁ r₁) (c₂.comparison op l₂ r₂) := by
  unfold Context.comparison
  rw [h.type hl, h.type hr]
  split
  · exact h.promotedOperation op (h.project _ hl) (h.project _ hr)
  · have ho := h.ordinal op hl hr
    revert ho
    cases Bind.ordinal? op l₁ r₁ <;> cases Bind.ordinal? op l₂ r₂ <;> intro ho
    · exact h.promotedOperation op hl hr
    · cases ho
    · cases ho
    · cases ho with
      | some he => exact he

/-- **An operator of queries on related operands gives related expressions.** -/
theorem binaryOperation (op : QueryOp) (hl : R l₁ l₂) (hr : R r₁ r₂) :
    Follows E R (c₁.binary op l₁ r₁) (c₂.binary op l₂ r₂) := by
  unfold Context.binary
  split
  · exact h.hasFlag hl hr
  · refine (h.unifyEnums hl hr).bind fun p q hp => ?_
    have hn := h.unifyNulls hp.1 hp.2
    dsimp only
    split_ifs
    · exact h.logical _ hn.1 hn.2
    · exact h.comparison _ hn.1 hn.2
    · exact h.promotedOperation _ hn.1 hn.2

theorem unaryOperation (op : QueryUnaryOp) (he : R e₁ e₂) :
    Follows E R (Bind.unaryOperation op e₁) (Bind.unaryOperation op e₂) := by
  unfold Bind.unaryOperation
  rw [h.type he]
  cases op with
  | not =>
    dsimp only
    split_ifs
    · exact h.mkUnary _ he
    · exact h.mkUnary _ (h.convert _ he)
    · exact Follows.error _
  | negate =>
    dsimp only
    split_ifs
    · exact h.mkUnary _ he
    · exact Follows.error _

/-! ### Conversions -/

theorem convertToEnum (target : HostType) (enum : EnumType) (he : R e₁ e₂) :
    Follows E R (Bind.convertToEnum e₁ target enum) (Bind.convertToEnum e₂ target enum) := by
  unfold Bind.convertToEnum
  rw [h.constValue he, h.type he]
  split
  · split
    · exact h.const _ (.scalar rfl)
    · exact Follows.error _
  · split_ifs
    · exact h.convert _ he
    · exact Follows.error _

theorem convertTo (target : HostType) (he : R e₁ e₂) :
    Follows E R (Bind.convertTo e₁ target) (Bind.convertTo e₂ target) := by
  unfold Bind.convertTo
  dsimp only
  rw [h.type he, h.isNullConst he]
  split
  · exact he
  split
  · exact h.mkNull _
  split
  · exact h.convert _ he
  split
  · exact h.convertToEnum _ _ he
  · split_ifs
    · exact h.convert _ he
    · exact h.mkCond (h.mkEqual he (h.mkNull _)) (h.mkNull _) (h.convert _ he)
    · exact h.convert _ he

theorem castToEnum (target : HostType) (enum : EnumType) (he : R e₁ e₂) :
    R (Bind.castToEnum e₁ target enum) (Bind.castToEnum e₂ target enum) := by
  unfold Bind.castToEnum
  rw [h.constValue he]
  split
  · split
    · exact h.const _ (.scalar rfl)
    · exact h.mkNull _
  · exact h.mkNull _

theorem cast (target : HostType) (he : R e₁ e₂) : R (Bind.cast e₁ target) (Bind.cast e₂ target) := by
  unfold Bind.cast
  dsimp only
  rw [h.type he, h.isNullConst he]
  split
  · exact h.mkNull _
  split
  · exact he
  split
  · exact h.mkCond (h.typeIs _ he) (h.convert _ he) (h.mkNull _)
  split
  · exact h.castToEnum _ _ he
  · exact h.mkTypeAs _ he
  · split_ifs
    · exact h.convert _ he
    · exact h.mkNull _

theorem isOf (target : HostType) (he : R e₁ e₂) : R (Bind.isOf e₁ target) (Bind.isOf e₂ target) := by
  unfold Bind.isOf
  rw [h.type he, h.isNullConst he]
  split_ifs
  · exact h.mkBool _
  · exact h.mkCond (h.typeIs _ he) (h.const _ (.scalar rfl)) (h.mkNull _)
  · exact h.typeIs _ he

/-! ### Calls -/

theorem coerce (function : String) (k : ArgKind) (he : R e₁ e₂) :
    Follows E R (Bind.coerce function e₁ k) (Bind.coerce function e₂ k) := by
  unfold Bind.coerce
  rw [h.type he, h.isNullConst he]
  split_ifs
  · exact h.mkNull _
  · exact h.convert _ he
  · exact he
  · exact Follows.error _

theorem integralToDouble (he : R e₁ e₂) :
    R (Bind.integralToDouble e₁) (Bind.integralToDouble e₂) := by
  unfold Bind.integralToDouble
  rw [h.type he]
  split_ifs
  · exact h.convert _ he
  · exact he

theorem map_integralToDouble (hargs : List.Forall₂ R args₁ args₂) :
    List.Forall₂ R (args₁.map Bind.integralToDouble) (args₂.map Bind.integralToDouble) := by
  induction hargs with
  | nil => exact .nil
  | cons he _ ih => exact .cons (h.integralToDouble he) ih

theorem isNull (he : R e₁ e₂) :
    R (.mkEqual e₁ (.mkNull e₁.type)) (.mkEqual e₂ (.mkNull e₂.type)) := by
  rw [h.type he]
  exact h.mkEqual he (h.mkNull _)

theorem guardCall (hargs : List.Forall₂ R args₁ args₂) (he : R e₁ e₂) :
    R (Bind.guardCall args₁ e₁) (Bind.guardCall args₂ e₂) := by
  unfold Bind.guardCall
  rw [h.type he]
  cases hargs with
  | nil => exact he
  | cons ha hrest =>
    refine h.mkCond ?_ (h.mkNull _) (h.convertNode _ he)
    -- the tests of the arguments so far are related, and so are those with one more
    have fold {t₁ t₂ : Expr} {rest₁ rest₂ : List Expr} (ht : R t₁ t₂)
        (hr : List.Forall₂ R rest₁ rest₂) :
        R (rest₁.foldl (fun test e => .mkBinary .orElse test (.mkEqual e (.mkNull e.type)) false) t₁)
          (rest₂.foldl (fun test e => .mkBinary .orElse test (.mkEqual e (.mkNull e.type)) false)
            t₂) := by
      induction hr generalizing t₁ t₂ with
      | nil => exact ht
      | cons ha _ ih => exact ih (h.mkBinary _ _ ht (h.isNull ha))
    exact fold (h.isNull ha) hrest

theorem itemType (hs : R s₁ s₂) : Bind.itemType s₁ = Bind.itemType s₂ := by
  unfold Bind.itemType
  rw [h.type hs]

end NodeCongruence

theorem Congruence.filter_needsGuard {c₁ c₂ : Context} {R : Expr → Expr → Prop}
    (h : Congruence c₁ c₂ R) {args₁ args₂ : List Expr} (hargs : List.Forall₂ R args₁ args₂) :
    List.Forall₂ R (args₁.filter c₁.needsGuard) (args₂.filter c₂.needsGuard) := by
  induction hargs with
  | nil => exact .nil
  | cons he _ ih =>
    rw [List.filter_cons, List.filter_cons, h.needsGuard he]
    split_ifs
    · exact .cons he ih
    · exact ih

/-! ## Properties of expressions -/

/-- A property of expressions that inline literals and the schema have and nodes keep. -/
structure Expr.Inherited (P : Expr → Prop) : Prop where
  const : ∀ v t, P (.const v t)
  model : ∀ s, P (.captured "model" (.model s) .model)
  member : ∀ {s} m, P s → P (.member s m)
  index : ∀ {s k}, P s → P k → P (.index s k)
  binary : ∀ {l r} op lifted t, P l → P r → P (.binary op l r lifted t)
  unary : ∀ {x} op t, P x → P (.unary op x t)
  convert : ∀ {x} t, P x → P (.convert x t)
  typeIs : ∀ {x} t, P x → P (.typeIs x t)
  typeAs : ∀ {x} t, P x → P (.typeAs x t)
  cond : ∀ {b x y} t, P b → P x → P y → P (.cond b x y t)
  call : ∀ {args} m t, (∀ e ∈ args, P e) → P (.call m args t)

/-- A property of expressions that all literals have and nodes keep. -/
structure Expr.Hereditary (P : Expr → Prop) : Prop extends Expr.Inherited P where
  captured : ∀ name v t, P (.captured name v t)

/-- Equality of expressions with a property that nodes keep is a congruence. -/
theorem Expr.Inherited.congruence {P : Expr → Prop} (h : Expr.Inherited P) (ctx : Context) :
    Congruence ctx ctx fun a b => a = b ∧ P a where
  schema := rfl
  nullPropagation := rfl
  type := fun ⟨he, _⟩ => by rw [he]
  isNullConst := fun ⟨he, _⟩ => by rw [he]
  constValue := fun ⟨he, _⟩ => by rw [he]
  lambdaType := fun ⟨he, _⟩ => by rw [he]
  needsGuard := fun ⟨he, _⟩ => by rw [he]
  const t _ := ⟨rfl, h.const _ t⟩
  model s := ⟨rfl, h.model s⟩
  member := fun m ⟨he, hp⟩ => ⟨by rw [he], h.member m hp⟩
  index := fun ⟨hs, ps⟩ ⟨hk, pk⟩ => ⟨by rw [hs, hk], h.index ps pk⟩
  binary := fun op lifted t ⟨hl, pl⟩ ⟨hr, pr⟩ => ⟨by rw [hl, hr], h.binary op lifted t pl pr⟩
  unary := fun op t ⟨he, hp⟩ => ⟨by rw [he], h.unary op t hp⟩
  convert := fun t ⟨he, hp⟩ => ⟨by rw [he], h.convert t hp⟩
  typeIs := fun t ⟨he, hp⟩ => ⟨by rw [he], h.typeIs t hp⟩
  typeAs := fun t ⟨he, hp⟩ => ⟨by rw [he], h.typeAs t hp⟩
  cond := fun t ⟨hb, pb⟩ ⟨hx, px⟩ ⟨hy, py⟩ => ⟨by rw [hb, hx, hy], h.cond t pb px py⟩
  call := fun {args₁ args₂} m t hargs => by
    have hall : args₁ = args₂ ∧ ∀ e ∈ args₁, P e := by
      induction hargs with
      | nil => exact ⟨rfl, nofun⟩
      | cons he _ ih => exact ⟨by rw [he.1, ih.1], List.forall_mem_cons.mpr ⟨he.2, ih.2⟩⟩
    exact ⟨by rw [hall.1], h.call m t hall.2⟩

end TypedQuery
