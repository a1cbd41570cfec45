import TypedQuery.Proofs.UnguardedOperators

/-!
# Calls with and without guards

Functions, quantifiers, counts and predicates with guards have the values that they have without guards,
where nothing is null.

* `ScalarFunction.apply_settles`: what a function gives is of its result type.
* **`Context.call_mirrors`**: a call of a function.
* `Lambda.Mirrors`: bodies that have the same values at the items of a collection.
* `Expr.Mirrors.quantified`, `Expr.Mirrors.count`: quantifiers and counts.
* `Context.normalizePredicate_mirrors`: predicates.
-/

namespace TypedQuery

/-! ## Functions -/

theorem Schema.Settles.of_fits {s : Schema} {t : HostType} {v : Value} (hv : v.isNull = false) (h : v.Fits t)
    (ht : t.nonNullable.isValueType = true ∨ t.nonNullable = .string) : s.Settles t v := by
  have hatomic : t.nonNullable.isAtomic = true := by
    rcases ht with ht | ht
    · exact HostType.isAtomic_of_isValueType ht
    · rw [ht]
      rfl
  have hplain := Value.isPlain_of_convert (t.nonNullable_toNullable ▸ hatomic) h hv
  have hinstance : v.isInstanceOf t.nonNullable = true := by
    unfold Value.Fits at h
    rw [Value.convert_of_not_collection hv (by rintro items rfl; cases hplain),
      t.nonNullable_toNullable] at h
    split_ifs at h with hinstance
    · exact hinstance
    · have hconverted := Value.convertScalar_isInstanceOf h
      rwa [t.nonNullable_toNullable] at hconverted
  have hkind : t.nonNullable.nonNullable = t.nonNullable := by
    rcases ht with ht | ht
    · exact HostType.nonNullable_of_isValueType ht
    · rw [ht]
      rfl
  exact .of_isAtom (Value.isAtom_of_isInstanceOf hinstance (by rwa [hkind])) hinstance

namespace ScalarFunction

variable {f : ScalarFunction} {args : List Value} {v w : Value} {s : Schema} {t : HostType}

theorem resultType_of_not_isRounding (hf : f.isRounding = false) (es : List Expr) :
    (f.resultType es).nonNullable.isValueType = true ∨ (f.resultType es).nonNullable = .string := by
  cases f <;> first | exact .inl rfl | exact .inr rfl | cases hf

/-- A number is rounded to one of its own type. -/
theorem roundValue_settles {mode : Number.Rounding} (hv : s.Settles t v) (ht : t.isNumeric = true)
    (h : f.roundValue mode v = .ok w) : s.Settles t.nonNullable w := by
  have hkind := HostType.nonNullable_of_isValueType (HostType.isValueType_of_isNumeric ht)
  have hnumeric : t.nonNullable.isNumeric = true := by
    unfold HostType.isNumeric at ht ⊢
    rwa [hkind]
  have htype := Value.hostType?_of_isInstanceOf hv.typed hnumeric
  have hnumber := Value.isNumber_of_isInstanceOf hv.typed hnumeric
  rw [hkind] at htype
  cases v with
  | int n =>
    cases h
    exact hv.congr hkind.symm
  | single x | double x | decimal x =>
    rw [← Option.some.inj htype]
    exact .of_isValueType (Value.ofFloat_isInstanceOf rfl h) rfl
  | _ => cases hnumber

/-- **What a function gives is of its result type**, if its arguments are not null, and numbers if it rounds. -/
theorem apply_settles [External] {es : List Expr} (h : List.Forall₂ (fun e v => s.Settles e.type v) es args)
    (hround : f.isRounding = true → ∀ e ∈ es, e.type.isNumeric = true) (hw : f.apply args = .ok w) :
    s.Settles (f.resultType es) w := by
  by_cases hf : f.isRounding = true
  · cases f <;> first | (cases hf; done) | skip
    -- the three functions that round take one argument
    all_goals
      cases h with
      | nil => cases hw
      | cons he hrest =>
        cases hrest with
        | nil => exact roundValue_settles he (hround hf _ List.mem_cons_self) hw
        | cons _ _ => cases hw
  · have hf : f.isRounding = false := by simpa using hf
    have hnull : ∀ v ∈ args, v.isNull = false := by
      intro v hv
      obtain ⟨e, -, hsettled⟩ := Outcome.forall₂_mem h.flip hv
      exact hsettled.isNull
    have hsafe := apply_nullSafe (f := f) hnull
    have hfits := apply_fits hf args es
    rw [hw] at hsafe hfits
    exact .of_fits (Value.isNull_of_isPlain hsafe.1) hfits (resultType_of_not_isRounding hf es)

end ScalarFunction

namespace Bind

variable {s : Schema} {V : Env → Prop} {e₁ e₂ a₁ : Expr}

theorem accepts_congr {t u : HostType} (h : t.Lifts u) (k : ArgKind) : k.accepts t = k.accepts u := by
  cases k with
  | text => simp only [ArgKind.accepts, HostType.isString, h.eq_iff (w := .string) rfl rfl]
  | _ =>
    simp only [ArgKind.accepts, HostType.isIntegral, HostType.isNumeric, HostType.isDateFamily,
      HostType.hasTimeOfDay, h.nonNullable]

/-- An argument made to fit. -/
theorem coerce_mirrors [External] {function : String} {k : ArgKind} (h : Expr.Mirrors s V e₁ e₂)
    (ha : coerce function e₁ k = .ok a₁) :
    ∃ a₂, coerce function e₂ k = .ok a₂ ∧ Expr.Mirrors s V a₁ a₂ ∧ k.accepts a₂.type = true := by
  unfold coerce at ha ⊢
  rw [(Expr.isOperand_iff.mp h.left).1, if_neg Bool.false_ne_true, h.type.isObject,
    accepts_congr h.type] at ha
  rw [(Expr.isOperand_iff.mp h.right).1, if_neg Bool.false_ne_true]
  split_ifs at ha ⊢ with hobject haccepts
  · cases ha
    refine ⟨_, rfl, h.convert (.refl _) fun v w hv hw => hv.convert hw (.inr ?_), ?_⟩
    · cases k <;> rfl
    · cases k <;> rfl
  · cases ha
    exact ⟨e₂, rfl, h, haccepts⟩

/-- An integer as a float. -/
theorem integralToDouble_mirrors [External] (h : Expr.Mirrors s V e₁ e₂) :
    Expr.Mirrors s V (integralToDouble e₁) (integralToDouble e₂) := by
  unfold integralToDouble
  rw [h.type.isIntegral]
  split_ifs with hint
  · refine h.convert (h.type.nullableLike _) fun v w hv hw => hv.convert hw (.inr ?_)
    rw [HostType.nonNullable_nullableLike]
    rfl
  · exact h

end Bind

namespace Expr

variable [External] {s : Schema} {V : Env → Prop}

/-- The values of arguments. -/
theorem mapM_eval_mirrors {args₁ args₂ : List Expr} (h : List.Forall₂ (Mirrors s V) args₁ args₂)
    (hnarrow : ∀ e ∈ args₁, e.isNarrow = true) {env : Env} (henv : V env) {vs : List Value}
    (hvs : args₁.mapM (·.eval env) = .ok vs) :
    args₂.mapM (·.eval env) = .ok vs ∧ List.Forall₂ (fun e v => s.Settles e.type v) args₂ vs := by
  induction h generalizing vs with
  | nil =>
    cases hvs
    exact ⟨rfl, .nil⟩
  | cons he _ ih =>
    rw [List.mapM_cons] at hvs ⊢
    obtain ⟨v, hv, hvs⟩ := Outcome.bind_eq_ok.mp hvs
    obtain ⟨rest, hrest, hvs⟩ := Outcome.bind_eq_ok.mp hvs
    cases hvs
    obtain ⟨hv, hsettled⟩ := he.eval (hnarrow _ List.mem_cons_self) henv hv
    obtain ⟨hrest, hsettleds⟩ := ih (fun e he => hnarrow e (List.mem_cons_of_mem _ he)) hrest
    rw [hv, hrest]
    exact ⟨rfl, .cons hsettled hsettleds⟩

theorem argType_mirrors {args₁ args₂ : List Expr} (h : List.Forall₂ (Mirrors s V) args₁ args₂) :
    (argType args₁ 0).nonNullable = (argType args₂ 0).nonNullable := by
  cases h with
  | nil => rfl
  | cons he _ => exact he.type.nonNullable

/-- A function of its arguments. -/
theorem Mirrors.scalar {f : ScalarFunction} {args₁ args₂ : List Expr}
    (h : List.Forall₂ (Mirrors s V) args₁ args₂)
    (hround : f.isRounding = true → ∀ e ∈ args₂, e.type.isNumeric = true) :
    Mirrors s V (mkScalar f args₁) (mkScalar f args₂) := by
  have htype : (mkScalar f args₁).type = (mkScalar f args₂).type := by
    change f.resultType args₁ = f.resultType args₂
    cases f <;> first | rfl | exact argType_mirrors h
  refine ⟨.inl htype, rfl, rfl, fun _ _ => htype, fun hnarrow env w henv hw => ?_⟩
  rw [eval_mkScalar] at hw ⊢
  obtain ⟨vs, hvs, hw⟩ := Outcome.bind_eq_ok.mp hw
  obtain ⟨hvs, hsettled⟩ := mapM_eval_mirrors h (isNarrow_mkCall.mp hnarrow) henv hvs
  rw [hvs]
  exact ⟨hw, ScalarFunction.apply_settles hsettled hround hw⟩

end Expr

theorem Builtin.args_of_isRounding : ∀ b ∈ all, b.isRounding = true → ∀ k ∈ b.args, k = .numeric := by
  decide

/-- **A call of a function**, guarded on the left. -/
theorem Context.call_mirrors [External] {ctx : Context} {s : Schema} {V : Env → Prop} {b : Builtin}
    {args₁ args₂ : List Expr} (h : List.Forall₂ (Expr.Mirrors s V) args₁ args₂)
    (hround : b.isRounding = true → ∀ e ∈ args₂, e.type.isNumeric = true) :
    Expr.Echoes s V (Bind.guardCall (args₁.filter ctx.needsGuard) (.mkScalar b.function args₁))
      (.mkScalar b.function args₂) := by
  have hrounding : b.function.isRounding = b.isRounding := by
    unfold ScalarFunction.isRounding Builtin.isRounding
    rfl
  refine ⟨.guardCall (fun a ha => ?_) (.scalar h fun hf => hround (hrounding ▸ hf)), ?_⟩
  · obtain ⟨a', -, ha'⟩ := Outcome.forall₂_mem h (List.mem_filter.mp ha).1
    exact ⟨a', ha'⟩
  · cases args₁.filter ctx.needsGuard <;> rfl

/-! ## Collections -/

theorem someItem_congr {p q : Value → Outcome Value} {items : List Value} {b : Bool}
    (h : ∀ v ∈ items, ∀ u, p v = .ok u → q v = .ok u) (hb : someItem p items = .ok b) :
    someItem q items = .ok b := by
  induction items with
  | nil => exact hb
  | cons v rest ih =>
    obtain ⟨u, hu, hb⟩ := Outcome.bind_eq_ok.mp hb
    rw [someItem, h v List.mem_cons_self u hu, Outcome.ok_bind]
    split_ifs at hb ⊢
    · exact hb
    · exact ih (fun w hw => h w (List.mem_cons_of_mem _ hw)) hb

theorem everyItem_congr {p q : Value → Outcome Value} {items : List Value} {b : Bool}
    (h : ∀ v ∈ items, ∀ u, p v = .ok u → q v = .ok u) (hb : everyItem p items = .ok b) :
    everyItem q items = .ok b := by
  induction items with
  | nil => exact hb
  | cons v rest ih =>
    obtain ⟨u, hu, hb⟩ := Outcome.bind_eq_ok.mp hb
    rw [everyItem, h v List.mem_cons_self u hu, Outcome.ok_bind]
    split_ifs at hb ⊢
    · exact ih (fun w hw => h w (List.mem_cons_of_mem _ hw)) hb
    · exact hb

/-- The bodies of functions have the same values at items of a type, which are without null. -/
def Lambda.Mirrors [External] (s : Schema) (V : Env → Prop) (element : HostType) (l₁ l₂ : Lambda) : Prop :=
  l₁.body.isNarrow = true → ∀ {env v u}, V env → s.Settles element v →
    l₁.body.eval ((l₁.param.id, v) :: env) = .ok u → l₂.body.eval ((l₂.param.id, v) :: env) = .ok u

namespace Expr.Mirrors

variable [External] {s : Schema} {V : Env → Prop} {s₁ s₂ : Expr} {element : HostType}

section Items

variable (h : Mirrors s V s₁ s₂) (ht : s₂.type = .collection element)
include h ht

/-- The items of a collection. -/
theorem exists_items (hnarrow : s₁.isNarrow = true) {env : Env} (henv : V env) {m : Method}
    {rest : List Operand} {items : List Value}
    (hitems : Operand.items m (⟨s₁.eval env, none⟩ :: rest) = .ok items) :
    s₁.eval env = .ok (.collection items) ∧ s₂.eval env = .ok (.collection items) ∧
      ∀ v ∈ items, s.Settles element v := by
  obtain ⟨v, hv₁, hitems⟩ := Outcome.bind_eq_ok.mp hitems
  obtain ⟨hv, hsettled⟩ := h.eval hnarrow henv hv₁
  rw [ht] at hsettled
  obtain ⟨values, rfl, hvalues⟩ := hsettled.exists_items
  cases hitems
  exact ⟨hv₁, hv, hvalues⟩

theorem anyItem : Mirrors s V (mkCollection .any [s₁]) (mkCollection .any [s₂]) := by
  refine .of_eval (.refl _) rfl rfl nofun fun hnarrow env u henv hu => ?_
  rw [eval_collection (isOperand_iff.mp h.left).2] at hu
  rw [eval_collection (isOperand_iff.mp h.right).2]
  obtain ⟨items, hitems, hu⟩ := Outcome.bind_eq_ok.mp hu
  obtain ⟨-, hv, -⟩ := h.exists_items ht (isNarrow_mkCall.mp hnarrow _ List.mem_cons_self) henv hitems
  cases hu
  rw [hv]
  exact ⟨rfl, .of_bool rfl _⟩

theorem count : Mirrors s V (mkCollection .longCount [s₁]) (mkCollection .longCount [s₂]) := by
  refine .of_eval (.refl _) rfl rfl nofun fun hnarrow env u henv hu => ?_
  rw [eval_collection (isOperand_iff.mp h.left).2] at hu
  rw [eval_collection (isOperand_iff.mp h.right).2]
  obtain ⟨items, hselected, hu⟩ := Outcome.bind_eq_ok.mp hu
  obtain ⟨values, hitems, hselected⟩ := Outcome.bind_eq_ok.mp hselected
  obtain ⟨-, hv, -⟩ := h.exists_items ht (isNarrow_mkCall.mp hnarrow _ List.mem_cons_self) henv hitems
  cases hselected
  rw [Accumulator.run_count] at hu
  cases hu
  rw [hv]
  exact ⟨Accumulator.run_count _ _, .of_isValueType rfl rfl⟩

/-- **A quantifier.** -/
theorem quantified {op : CollectionOperator} (hop : op = .any ∨ op = .all) {l₁ l₂ : Lambda}
    (hbody : l₁.Mirrors s V element l₂) :
    Mirrors s V (mkCollection op [s₁, l₁.toExpr]) (mkCollection op [s₂, l₂.toExpr]) := by
  have htype (e : Expr) (l : Lambda) : (mkCollection op [e, l.toExpr]).type = .bool := by
    rcases hop with rfl | rfl <;> rfl
  refine .of_eval ?_ rfl rfl ?_ fun hnarrow env u henv hu => ?_
  · rw [htype, htype]
    exact .refl _
  · rw [htype]
    decide
  · have hargs := isNarrow_mkCall.mp hnarrow
    have hlambda : l₁.body.isNarrow = true := hargs l₁.toExpr (by simp)
    rw [htype]
    rw [mkCollection, mkCall, Expr.eval, operands_cons (isOperand_iff.mp h.left).2, operands_lambda] at hu
    rw [mkCollection, mkCall, Expr.eval, operands_cons (isOperand_iff.mp h.right).2, operands_lambda]
    rcases hop with rfl | rfl
    all_goals
      obtain ⟨items, hitems, hu⟩ := Outcome.bind_eq_ok.mp hu
      obtain ⟨-, hv, hsettled⟩ := h.exists_items ht (hargs s₁ List.mem_cons_self) henv hitems
      obtain ⟨f, hf, hu⟩ := Outcome.bind_eq_ok.mp hu
      cases hf
      obtain ⟨b, hb, hu⟩ := Outcome.bind_eq_ok.mp hu
      cases hu
      rw [hv]
    · have hsome := someItem_congr (fun v hv u => hbody hlambda henv (hsettled v hv)) hb
      refine ⟨Outcome.bind_eq_ok.mpr ⟨items, rfl, Outcome.bind_eq_ok.mpr ⟨_, rfl, ?_⟩⟩, .of_bool rfl b⟩
      exact Outcome.bind_eq_ok.mpr ⟨b, hsome, rfl⟩
    · have hevery := everyItem_congr (fun v hv u => hbody hlambda henv (hsettled v hv)) hb
      refine ⟨Outcome.bind_eq_ok.mpr ⟨items, rfl, Outcome.bind_eq_ok.mpr ⟨_, rfl, ?_⟩⟩, .of_bool rfl b⟩
      exact Outcome.bind_eq_ok.mpr ⟨b, hevery, rfl⟩

end Items

end Expr.Mirrors

/-! ## Predicates -/

namespace Context

variable [External] {ctx : Context} {s : Schema} {V : Env → Prop} {e₁ e₂ p₁ : Expr}

/-- A boolean without null is the same after null is made false. -/
theorem foldNull_mirrors (hctx : ctx.settings.nullPropagation = true) (h : Expr.Mirrors s V e₁ e₂)
    (ht : e₁.type.isBool = true) : Expr.Mirrors s V (ctx.foldNull e₁) (e₂.convertTo .bool) := by
  have htype : e₂.type.isBool = true := h.type.isBool ▸ ht
  unfold foldNull
  rw [if_pos hctx]
  refine .of_eval ?_ rfl (Expr.isOperand_convertTo h.right) ?_ fun hnarrow env u henv hu => ?_
  · rw [Expr.type_convertTo]
    exact .refl _
  · exact nofun
  · rw [Expr.mkEqual, Expr.eval_mkBinary rfl] at hu
    obtain ⟨v, hv, hu⟩ := Outcome.bind_eq_ok.mp hu
    obtain ⟨hv, hsettled⟩ := h.eval (Expr.isNarrow_mkBinary.mp hnarrow).1 henv hv
    obtain ⟨b, rfl⟩ := hsettled.exists_bool htype
    obtain rfl : u = .bool b := by cases b <;> cases hu <;> rfl
    have hkind : e₂.type.nonNullable = .bool := of_decide_eq_true htype
    rw [Expr.eval_convertTo hv hsettled, hsettled.convert_self (u := .bool) hkind, Expr.type_convertTo]
    exact ⟨rfl, .of_bool rfl b⟩

/-- **A predicate that is never null.** -/
theorem normalizePredicate_mirrors (hctx : ctx.settings.nullPropagation = true) (h : Expr.Mirrors s V e₁ e₂)
    (hp : ctx.normalizePredicate e₁ = .ok p₁) :
    ∃ p₂, ctx.unguarded.normalizePredicate e₂ = .ok p₂ ∧ Expr.Mirrors s V p₁ p₂ := by
  obtain ⟨htype, rfl⟩ | ⟨htype, rfl⟩ | ⟨ht, rfl⟩ := normalizePredicate_eq_ok hp
  · have htype₂ := (h.type.eq_of_not_isNullableValueType (by rw [htype]; rfl)).symm.trans htype
    refine ⟨e₂, ?_, h⟩
    unfold normalizePredicate
    rw [htype₂]
  · have htype₂ := (h.type.eq_iff rfl rfl).mp htype
    refine ⟨_, ?_, foldNull_mirrors hctx (h.convert (.refl _) fun v w hv hw => hv.convert hw (.inr rfl)) rfl⟩
    unfold normalizePredicate
    rw [htype₂]
    rfl
  · refine ⟨_, ?_, foldNull_mirrors hctx h ht⟩
    -- the type has null on the left, and may have it on the right
    have htype₂ : e₂.type.isBool = true := h.type.isBool ▸ ht
    cases hnull : e₂.type.isNullableValueType with
    | true =>
      have htype₂ : e₂.type = HostType.bool.toNullable := by
        rw [HostType.eq_nullable hnull, show e₂.type.nonNullable = .bool from of_decide_eq_true htype₂]
        rfl
      unfold normalizePredicate Expr.convertTo
      rw [htype₂]
      rfl
    | false =>
      unfold normalizePredicate Expr.convertTo
      rw [Bind.type_of_isBool htype₂ hnull]
      rfl

end Context

end TypedQuery
