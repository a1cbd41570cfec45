import TypedQuery.Proofs.Guards
import TypedQuery.Proofs.Lockstep

/-!
# Literals by reference

With literals kept apart from the expression, nodes are bound to the same expressions with references
in the place of literals, which have the same values. The one test of binding that tells a reference
from a literal is that for guards: a literal is never guarded, a reference to a text or to a collection
is. Such a guard changes nothing but the static type: where it stands alone, a value that is never null
becomes a nullable one, and the logic of nullable values looks at both operands.

* `Expr.Inlines`: expressions that differ in references to literals.
* `Expr.guardsLiterals`: a nullable value whose guard asks about literals only.
* `Node.AvoidsLiteralGuards`: no node inside another is bound to such an expression.
* **`references_mean_their_literals`**: nodes that avoid such guards.
* **`guarded_literals_change_results`**: a node that does not.
-/

namespace TypedQuery

/-! ## Expressions with references to literals -/

namespace Expr

/-- Whether the expression is a reference to a literal other than null. -/
def isCapturedLiteral : Expr → Bool
  | .captured _ v t => !v.isNull && t.isLiteral
  | _ => false

/-- The parameter, or the member of a parameter, that the expression is. -/
def place? : Expr → Option (Param × Option Member)
  | .param p => some (p, none)
  | .member (.param p) m => some (p, some m)
  | _ => none

theorem place?_member (e : Expr) (m : Member) :
    (member e m).place? =
      e.place?.bind fun place => if place.2 = none then some (place.1, some m) else none := by
  cases e with
  | member s n => cases s <;> rfl
  | _ => rfl

/-- The record of a clause is recognized by its place. -/
theorem isCurrent_eq_place? (e : Expr) (ctx : Context) :
    ctx.isCurrent e = e.place?.elim false fun place =>
      match place.2, ctx.flatteningSource with
      | none, _ => decide (place.1 = ctx.current)
      | some m, some type => decide (place.1 = ctx.current ∧ m = ctx.sourceMember type)
      | some _, none => false := by
  unfold Context.isCurrent
  cases e with
  | param p => rfl
  | member s m =>
    cases s with
    | param p => cases ctx.flatteningSource <;> rfl
    | _ => rfl
  | _ => rfl

theorem isCurrent_of_place? {e₁ e₂ : Expr} (h : e₁.place? = e₂.place?) (ctx : Context) :
    ctx.isCurrent e₁ = ctx.isCurrent e₂ := by rw [isCurrent_eq_place?, isCurrent_eq_place?, h]

/-- The second expression is the first one with literals in the place of references: binding tells
them apart by references to literals only, and they mean the same. -/
structure Inlines [External] (e₁ e₂ : Expr) : Prop where
  type : e₁.type = e₂.type
  isNullConst : e₁.isNullConst = e₂.isNullConst
  constValue : e₁.constValue? = e₂.constValue?
  lambdaType : e₁.lambdaType? = e₂.lambdaType?
  place : e₁.place? = e₂.place?
  literal : e₁.isNonNullConst = e₂.isNonNullConst ∨
    e₁.isCapturedLiteral = true ∧ e₂.isNonNullConst = true
  operands : ∀ env, operands [e₁] env = operands [e₂] env

namespace Inlines

variable [External] {e₁ e₂ : Expr}

theorem refl (e : Expr) : e.Inlines e := ⟨rfl, rfl, rfl, rfl, rfl, .inl rfl, fun _ => rfl⟩

theorem eval (h : e₁.Inlines e₂) (env : Env) : e₁.eval env = e₂.eval env := by
  have hvalues := congrArg (List.map Operand.value) (h.operands env)
  rw [map_value_operands, map_value_operands] at hvalues
  exact (List.cons.inj hvalues).1

/-- A reference to a literal, and the literal. -/
theorem literal_captured (name : String) {v : Value} {t : HostType} (hv : v.isNull = false)
    (ht : t.isLiteral = true) : (Expr.captured name v t).Inlines (.const v t) where
  type := rfl
  isNullConst := by cases v <;> first | rfl | cases hv
  constValue := rfl
  lambdaType := rfl
  place := rfl
  literal := .inr ⟨by simp [isCapturedLiteral, hv, ht], by simp [isNonNullConst, hv]⟩
  operands _ := rfl

/-- Neither side is a literal or a lambda, so only type, place and value count. -/
theorem of_eval (htype : e₁.type = e₂.type) (hconst₁ : e₁.constValue? = none)
    (hconst₂ : e₂.constValue? = none) (hlambda₁ : e₁.isLambda = false) (hlambda₂ : e₂.isLambda = false)
    (hplace : e₁.place? = e₂.place?) (heval : ∀ env, e₁.eval env = e₂.eval env) : e₁.Inlines e₂ := by
  have plain {e : Expr} (h : e.constValue? = none) :
      e.isNullConst = false ∧ e.isNonNullConst = false := by
    cases e <;> first | exact ⟨rfl, rfl⟩ | cases h
  exact {
    type := htype
    isNullConst := by rw [(plain hconst₁).1, (plain hconst₂).1]
    constValue := by rw [hconst₁, hconst₂]
    lambdaType := by rw [lambdaType?_eq_none hlambda₁, lambdaType?_eq_none hlambda₂]
    place := hplace
    literal := .inl (by rw [(plain hconst₁).2, (plain hconst₂).2])
    operands := fun env => by rw [operands_cons hlambda₁, operands_cons hlambda₂, heval] }

theorem operands_of_forall₂ {args₁ args₂ : List Expr} (h : List.Forall₂ Inlines args₁ args₂) (env : Env) :
    Expr.operands args₁ env = Expr.operands args₂ env := by
  have hcons (e : Expr) (rest : List Expr) :
      Expr.operands (e :: rest) env = Expr.operands [e] env ++ Expr.operands rest env := by
    cases e <;> rfl
  induction h with
  | nil => rfl
  | @cons a b as bs hab _ ih => rw [hcons a as, hcons b bs, hab.operands, ih]

end Inlines

end Expr

/-! ## Contexts with literals inline -/

/-- The second context binds literals inline where the first keeps them apart; both propagate nulls. -/
structure Context.Inlined (c₁ c₂ : Context) : Prop where
  parameterizeConstants : c₁.settings.parameterizeConstants = true
  nullPropagation : c₁.settings.nullPropagation = true
  eq : c₂ = { c₁ with
    settings := { c₁.settings with parameterizeConstants := false }, captures := c₂.captures }

namespace Context.Inlined

variable {c₁ c₂ : Context} (h : c₁.Inlined c₂) {e₁ e₂ : Expr}
include h

theorem isCurrent (e : Expr) : c₂.isCurrent e = c₁.isCurrent e := by
  rw [h.eq]
  rfl

/-- Guards differ at references to literals only. -/
theorem needsGuard [External] (he : e₁.Inlines e₂) :
    c₁.needsGuard e₁ = c₂.needsGuard e₂ ∨
      e₁.isCapturedLiteral = true ∧ c₂.needsGuard e₂ = false := by
  have hsettings : c₂.settings.nullPropagation = c₁.settings.nullPropagation := by rw [h.eq]
  have hcurrent := Expr.isCurrent_of_place? he.place c₁
  unfold Context.needsGuard
  rcases he.literal with hliteral | ⟨hcaptured, hliteral⟩
  · exact .inl (by rw [hsettings, h.isCurrent, he.type, hcurrent, hliteral])
  · exact .inr ⟨hcaptured, by simp [hliteral]⟩

end Context.Inlined

namespace Expr

theorem isLiteral_of_isCapturedLiteral {e : Expr} (h : e.isCapturedLiteral = true) :
    e.type.isLiteral = true := by
  cases e with
  | captured name v t => exact (Bool.and_eq_true_iff.mp h).2
  | _ => cases h

end Expr

/-- **Binding respects references to literals**, but for guards. -/
theorem Context.Inlined.congruence [External] {c₁ c₂ : Context} (hc : c₁.Inlined c₂) :
    NodeCongruence c₁ c₂ Expr.Inlines where
  schema := by rw [hc.eq]
  nullPropagation := by rw [hc.eq]
  type h := h.type
  isNullConst h := h.isNullConst
  constValue h := h.constValue
  lambdaType h := h.lambdaType
  accessGuard {e₁ e₂} h htype := by
    rcases hc.needsGuard h with hneed | ⟨hcaptured, hneed⟩
    · exact hneed
    · have hliteral := Expr.isLiteral_of_isCapturedLiteral hcaptured
      rw [hneed, Context.needsGuard]
      rw [← h.type] at htype
      simp only [HostType.isLiteral, Bool.and_eq_true, Bool.not_eq_true', Option.isNone_iff_eq_none]
        at hliteral
      rcases htype with hrecord | henum
      · rw [hliteral.1] at hrecord
        cases hrecord
      · have hvalue := HostType.isValueType_of_asEnum? henum
        rw [HostType.nonNullable_eq_self hliteral.2] at hvalue
        simp [HostType.isNullable, hvalue]
  const t _ := .refl _
  model _ := .refl _
  member m h := by
    refine .of_eval rfl rfl rfl rfl rfl ?_ fun env => by simp only [Expr.eval, h.eval]
    rw [Expr.place?_member, Expr.place?_member, h.place]
  index hs hk := .of_eval rfl rfl rfl rfl rfl rfl fun env => by simp only [Expr.eval, hs.eval, hk.eval]
  binary op lifted t hl hr := .of_eval rfl rfl rfl rfl rfl rfl fun env => by
    simp only [Expr.eval, hl.eval, hr.eval]
  unary op t h := .of_eval rfl rfl rfl rfl rfl rfl fun env => by simp only [Expr.eval, h.eval]
  convert t h := .of_eval rfl rfl rfl rfl rfl rfl fun env => by simp only [Expr.eval, h.eval]
  typeIs t h := .of_eval rfl rfl rfl rfl rfl rfl fun env => by simp only [Expr.eval, h.eval]
  typeAs t h := .of_eval rfl rfl rfl rfl rfl rfl fun env => by simp only [Expr.eval, h.eval]
  cond t hb hx hy := .of_eval rfl rfl rfl rfl rfl rfl fun env => by
    simp only [Expr.eval, hb.eval, hx.eval, hy.eval]
  call m t hargs := .of_eval rfl rfl rfl rfl rfl rfl fun env => by
    simp only [Expr.eval, Expr.Inlines.operands_of_forall₂ hargs]

/-! ## Guards -/

namespace Expr

/-- Whether one of several expressions is null; those after it are not looked at. -/
def someNull [External] (env : Env) : List Expr → Outcome Bool
  | [] => .ok false
  | e :: rest => do if (← e.eval env).isNull then return true else someNull env rest

theorem someNull_of_nonNull [External] {es : List Expr} {env : Env}
    (h : ∀ e ∈ es, ∃ v, e.eval env = .ok v ∧ v.isNull = false) : someNull env es = .ok false := by
  induction es with
  | nil => rfl
  | cons e rest ih =>
    obtain ⟨⟨v, hv, hnull⟩, hrest⟩ := List.forall_mem_cons.mp h
    rw [someNull, hv, Outcome.ok_bind, hnull]
    exact ih hrest

theorem someNull_of_null [External] {es : List Expr} {env : Env} {e : Expr} {v : Value}
    (h : ∀ e ∈ es, ∃ v, e.eval env = .ok v) (he : e ∈ es) (hv : e.eval env = .ok v)
    (hnull : v.isNull = true) : someNull env es = .ok true := by
  induction es with
  | nil => cases he
  | cons a rest ih =>
    obtain ⟨⟨u, hu⟩, hrest⟩ := List.forall_mem_cons.mp h
    rw [someNull, hu, Outcome.ok_bind]
    rcases List.mem_cons.mp he with rfl | he
    · rw [hv] at hu
      cases hu
      rw [hnull]
      rfl
    · cases u.isNull
      · exact ih hrest he
      · rfl

/-- The question whether one of several expressions is null, added to a test. -/
theorem eval_foldl_isNull [External] {env : Env} {test : Expr} {o : Outcome Bool} (htype : test.type = .bool)
    (htest : test.eval env = o.map .bool) (rest : List Expr) :
    (rest.foldl (fun test e => mkBinary .orElse test (mkEqual e (mkNull e.type)) false) test).eval env =
      (o >>= fun b => if b then .ok true else someNull env rest).map .bool := by
  induction rest generalizing test o with
  | nil =>
    rw [List.foldl_nil, htest]
    rcases o with e | b
    · rfl
    · cases b <;> rfl
  | cons a rest ih =>
    have hnext : (mkBinary .orElse test (mkEqual a (mkNull a.type)) false).type = .bool := by
      simp [mkBinary, mkEqual, Expr.type, binaryType, htype, BinaryOp.isComparison, BinaryOp.isLogical,
        HostType.isNullableValueType]
    have heval : (mkBinary .orElse test (mkEqual a (mkNull a.type)) false).eval env =
        Except.map .bool (o >>= fun b => if b then .ok true else a.eval env >>= fun v => .ok v.isNull) := by
      rw [eval_logical rfl (by rw [htype]; rfl) rfl, htest, eval_isNull]
      rcases o with e | b
      · rfl
      · cases b
        · cases a.eval env <;> rfl
        · rfl
    rw [List.foldl_cons, ih hnext heval]
    rcases o with e | b
    · rfl
    · cases b
      · rcases ha : a.eval env with e | v
        · simp only [someNull, ha]
          rfl
        · simp only [someNull, ha, Outcome.ok_bind]
          cases v.isNull <;> rfl
      · rfl

theorem eval_guardCall [External] (a : Expr) (rest : List Expr) (e : Expr) (env : Env) :
    (Bind.guardCall (a :: rest) e).eval env = someNull env (a :: rest) >>= fun b =>
      if b then .ok .null else (e.convertTo e.type.toNullable).eval env := by
  have hfirst : (mkEqual a (mkNull a.type)).eval env =
      Except.map .bool (a.eval env >>= fun v => .ok v.isNull) := by
    rw [eval_isNull]
    cases a.eval env <;> rfl
  have htest := eval_foldl_isNull rfl hfirst rest
  have hsome : (a.eval env >>= fun v => Except.ok v.isNull) >>= (fun b =>
      if b then .ok true else someNull env rest) = someNull env (a :: rest) := by
    cases ha : a.eval env with
    | error err =>
      simp only [someNull, ha]
      rfl
    | ok v =>
      simp only [someNull, ha, Outcome.ok_bind]
      rfl
  rw [hsome] at htest
  unfold Bind.guardCall
  simp only [Bind.someIsNull?, mkCond]
  rcases hnull : someNull env (a :: rest) with err | b
  · rw [hnull] at htest
    rw [eval_cond_of_error htest]
    rfl
  · rw [hnull] at htest
    rw [eval_cond_of_bool htest]
    rfl

theorem type_guardCall (a : Expr) (rest : List Expr) (e : Expr) :
    (Bind.guardCall (a :: rest) e).type = e.type.toNullable := by
  simp only [Bind.guardCall, Bind.someIsNull?, mkCond, Expr.type, mkNull, isNullConst, if_true,
    type_convertTo, HostType.toNullable_toNullable]

/-- A literal is not null. -/
theorem someNull_captured [External] {e : Expr} (h : e.isCapturedLiteral = true) (env : Env)
    (rest : List Expr) :
    someNull env (e :: rest) = someNull env rest := by
  cases e with
  | captured name v t =>
    have hv : v.isNull = false := by
      simpa [isCapturedLiteral] using (Bool.and_eq_true_iff.mp h).1
    simp only [someNull, Expr.eval, Outcome.ok_bind, hv, Bool.false_eq_true, if_false]
  | _ => cases h

end Expr

/-! ## Results of calls -/

/-- The value is one of a type that is made nullable: it is converted to itself. -/
def Value.Fits (t : HostType) (v : Value) : Prop := v.convert t.toNullable = .ok v

namespace ScalarFunction

variable {f : ScalarFunction} {args : List Value} {w : Value}

theorem HasResult.fits (h : f.HasResult w) (es : List Expr) : w.Fits (f.resultType es) := by
  obtain ⟨hatom, htype⟩ := h
  have hplain := Value.isPlain_of_isAtom hatom
  unfold Value.Fits
  rw [Value.convert_of_not_collection (Value.isNull_of_isPlain hplain) (by rintro items rfl; cases hplain),
    HostType.nonNullable_toNullable, if_pos (Value.isInstanceOf_nonNullable (htype es))]

theorem convert_date_fits (v : Value) : (v.convert .date).Gives (Value.Fits .date) := by
  cases v with
  | dateTimeOffset d =>
    have hshown : (Value.dateTimeOffset d).convert .date =
        orAbort (d.shown?.map fun d => .date d.date) := rfl
    rw [hshown]
    refine .orAbort trivial fun w hw => ?_
    obtain ⟨_, _, rfl⟩ := Option.map_eq_some_iff.mp hw
    rfl
  | _ => trivial

theorem convert_time_fits (v : Value) : (v.convert .timeOfDay).Gives (Value.Fits .timeOfDay) := by
  cases v <;> trivial

/-- A function that does not round gives values of its result type. -/
theorem apply_fits [External] (hf : f.isRounding = false) (args : List Value) (es : List Expr) :
    (f.apply args).Gives (Value.Fits (f.resultType es)) := by
  unfold apply
  split
  next =>
    rw [positionOf_eq]
    exact rfl
  next =>
    unfold matchPattern
    split
    next => exact rfl
    next => trivial
  next v => exact convert_date_fits v
  next v => exact convert_time_fits v
  next => cases hf
  next => cases hf
  next => cases hf
  next =>
    exact .orFail trivial fun w hw => (hasResult_of_computed hw).fits es

end ScalarFunction

/-- What is rounded is of the type of its argument, without null. -/
theorem ScalarFunction.type_mkCall_of_isRounding {f : ScalarFunction} (hf : f.isRounding = true) (e : Expr) :
    (Expr.mkCall (.scalar f) [e]).type = e.type.nonNullable := by
  revert hf
  cases f <;> intro hf <;> first | rfl | cases hf

theorem Builtin.length_args_of_isRounding :
    ∀ b ∈ Builtin.all, b.function.isRounding = true → b.args.length = 1 := by decide

/-- A call of a query that is guarded by a literal gives values of its result type, if that is never
null: what is rounded is a number, which needs no guard. -/
theorem Bind.GuardedCall.fits [External] {sources args : List Expr} {m : Method}
    (h : GuardedCall sources m args)
    (ht : (Expr.mkCall m args).type.isValueType = true) {s : Expr} (hs : s ∈ sources)
    (hliteral : s.type.isLiteral = true) (hnullable : s.type.isNullable = true) (env : Env) :
    ((Expr.mkCall m args).eval env).Gives (Value.Fits (Expr.mkCall m args).type) := by
  cases h with
  | @scalar b sources hb hlength =>
    by_cases hround : b.function.isRounding = true
    · rw [Builtin.length_args_of_isRounding b hb hround] at hlength
      obtain ⟨a, rfl⟩ := List.length_eq_one_iff.mp (Nat.le_antisymm hlength (List.length_pos_of_mem hs))
      obtain rfl := List.mem_singleton.mp hs
      have hself : s.type.nonNullable = s.type := by
        simp only [HostType.isLiteral, Bool.and_eq_true, Bool.not_eq_true'] at hliteral
        exact HostType.nonNullable_eq_self hliteral.2
      rw [ScalarFunction.type_mkCall_of_isRounding hround, hself] at ht
      simp [HostType.isNullable, ht] at hnullable
    · have heval := Expr.eval_mkScalar b.function sources env
      unfold Expr.mkScalar at heval
      rw [heval]
      have hround : b.function.isRounding = false := Bool.eq_false_iff.mpr hround
      exact Outcome.Meets.after fun vs => ScalarFunction.apply_fits hround vs sources
  | @collection op hop source args =>
    simp only [Expr.mkCall, Expr.eval, Method.apply]
    unfold CollectionOperator.apply
    cases op with
    | any =>
      refine Outcome.Meets.after fun items => ?_
      split
      · exact Outcome.Meets.after fun p => Outcome.Meets.after fun b => rfl
      · exact rfl
    | all =>
      exact Outcome.Meets.after fun items => Outcome.Meets.after fun p => Outcome.Meets.after fun b => rfl
    | contains => exact Outcome.Meets.after fun items => Outcome.Meets.after fun probe => rfl
    | longCount =>
      refine Outcome.Meets.after fun values => ?_
      rw [Accumulator.run_count]
      exact rfl
    | cast target => cases ht
    | _ => cases hop

/-! ## Guards of literals -/

namespace Expr

/-- Whether the expression asks of references to literals whether they are null, and of nothing
else. -/
def asksLiterals : Expr → Bool
  | .binary .orElse l r _ _ => l.asksLiterals && r.asksLiterals
  | .binary .equal l _ _ _ => l.isCapturedLiteral
  | _ => false

/-- Whether the expression is a nullable value whose guard asks about literals only. -/
def guardsLiterals : Expr → Bool
  | .cond test _ _ t => test.asksLiterals && t.isNullableValueType
  | _ => false

theorem guardsLiterals_guardCall {a e : Expr} {rest : List Expr}
    (h : ∀ x ∈ a :: rest, x.isCapturedLiteral = true) (ht : e.type.isValueType = true) :
    (Bind.guardCall (a :: rest) e).guardsLiterals = true := by
  have fold {test : Expr} {rest : List Expr} (htest : test.asksLiterals = true)
      (h : ∀ x ∈ rest, x.isCapturedLiteral = true) :
      (rest.foldl (fun test e => mkBinary .orElse test (mkEqual e (mkNull e.type)) false)
        test).asksLiterals = true := by
    induction rest generalizing test with
    | nil => exact htest
    | cons x rest ih =>
      obtain ⟨hx, hrest⟩ := List.forall_mem_cons.mp h
      exact ih (Bool.and_eq_true_iff.mpr ⟨htest, hx⟩) hrest
  obtain ⟨ha, hrest⟩ := List.forall_mem_cons.mp h
  have htype := type_guardCall a rest e
  have hnullable : (Bind.guardCall (a :: rest) e).type.isNullableValueType = true := by
    rw [htype, HostType.toNullable, if_pos ht]
    rfl
  exact Bool.and_eq_true_iff.mpr ⟨fold ha hrest, hnullable⟩

theorem someNull_congr [External] {a b : Expr} {as bs : List Expr} {env : Env} (h : a.eval env = b.eval env)
    (hrest : someNull env as = someNull env bs) : someNull env (a :: as) = someNull env (b :: bs) := by
  rw [someNull, someNull, h, hrest]

/-- Values of a type stay as they are where the type is made nullable. -/
theorem eval_convertTo_of_fits [External] {e : Expr} {env : Env}
    (h : (e.eval env).Gives (Value.Fits e.type)) :
    (e.convertTo e.type.toNullable).eval env = e.eval env := by
  cases hv : e.eval env with
  | error err => exact eval_convertTo_of_error hv _
  | ok v =>
    rw [hv] at h
    exact (eval_convertTo_of_eval hv fun _ => h).trans h

/-- The second expression is the first one with literals in the place of references, or the first one
is a guard of literals around the same value. -/
def InlinesGuarded [External] (e₁ e₂ : Expr) : Prop :=
  e₁.Inlines e₂ ∨ e₁.guardsLiterals = true ∧ ∀ env, e₁.eval env = e₂.eval env

end Expr

theorem Context.needsGuard_isNullable {ctx : Context} {e : Expr} (h : ctx.needsGuard e = true) :
    e.type.isNullable = true := by
  simp only [needsGuard, Bool.and_eq_true] at h
  exact h.1.1.2

namespace Context.Inlined

variable [External] {c₁ c₂ : Context} (hc : c₁.Inlined c₂) {sources₁ sources₂ : List Expr}
  (hsources : List.Forall₂ Expr.Inlines sources₁ sources₂)
include hc hsources

/-- What is guarded by only in the first context are literals. -/
theorem filter_needsGuard :
    (∀ env, Expr.someNull env (sources₁.filter c₁.needsGuard) =
      Expr.someNull env (sources₂.filter c₂.needsGuard)) ∧
    (sources₁.filter c₁.needsGuard = [] → sources₂.filter c₂.needsGuard = []) ∧
    (sources₂.filter c₂.needsGuard = [] →
      ∀ e ∈ sources₁.filter c₁.needsGuard, e.isCapturedLiteral = true) := by
  induction hsources with
  | nil => exact ⟨fun _ => rfl, id, nofun⟩
  | @cons a b as bs hab _ ih =>
    obtain ⟨hnull, hnil, hcaptured⟩ := ih
    rcases hc.needsGuard hab with hneed | ⟨ha, hneed⟩
    · rw [List.filter_cons, List.filter_cons, hneed]
      split
      · exact ⟨fun env => Expr.someNull_congr (hab.eval env) (hnull env), nofun, nofun⟩
      · exact ⟨hnull, hnil, hcaptured⟩
    · rw [List.filter_cons, List.filter_cons, hneed, if_neg Bool.false_ne_true]
      split
      · refine ⟨fun env => (Expr.someNull_captured ha env _).trans (hnull env), nofun, fun h => ?_⟩
        exact List.forall_mem_cons.mpr ⟨ha, hcaptured h⟩
      · exact ⟨hnull, hnil, hcaptured⟩

/-- **A guard of literals changes the static type only**, and that only where nothing else is guarded
by and the value is never null. -/
theorem guard {m : Method} {args₁ args₂ : List Expr} (hcall : Bind.GuardedCall sources₁ m args₁)
    (hresult : (Expr.mkCall m args₁).Inlines (.mkCall m args₂)) :
    Expr.InlinesGuarded (Bind.guardCall (sources₁.filter c₁.needsGuard) (.mkCall m args₁))
      (Bind.guardCall (sources₂.filter c₂.needsGuard) (.mkCall m args₂)) := by
  obtain ⟨hnull, hnil, hcaptured⟩ := hc.filter_needsGuard hsources
  cases h₁ : sources₁.filter c₁.needsGuard with
  | nil =>
    rw [hnil h₁]
    exact .inl hresult
  | cons a as =>
    rw [h₁] at hnull hcaptured
    cases h₂ : sources₂.filter c₂.needsGuard with
    | cons b bs =>
      refine .inl (.of_eval ?_ rfl rfl rfl rfl rfl fun env => ?_)
      · rw [Expr.type_guardCall, Expr.type_guardCall, hresult.type]
      · rw [Expr.eval_guardCall, Expr.eval_guardCall, hnull, h₂, hresult.type]
        have hconvert := (hc.congruence.convertNode (Expr.mkCall m args₂).type.toNullable hresult).eval env
        rw [hconvert]
    | nil =>
      rw [h₂] at hnull hcaptured
      have hbare : Bind.guardCall [] (.mkCall m args₂) = .mkCall m args₂ := rfl
      rw [hbare]
      have heval (env : Env) : (Bind.guardCall (a :: as) (.mkCall m args₁)).eval env =
          ((Expr.mkCall m args₁).convertTo (Expr.mkCall m args₁).type.toNullable).eval env := by
        rw [Expr.eval_guardCall, hnull]
        rfl
      cases ht : (Expr.mkCall m args₁).type.isValueType with
      | true =>
        have ha : a ∈ sources₁.filter c₁.needsGuard := h₁ ▸ List.mem_cons_self
        obtain ⟨hmem, hneed⟩ := List.mem_filter.mp ha
        have hliteral := Expr.isLiteral_of_isCapturedLiteral (hcaptured rfl a List.mem_cons_self)
        have hfits := hcall.fits ht hmem hliteral (needsGuard_isNullable hneed)
        refine .inr ⟨Expr.guardsLiterals_guardCall (hcaptured rfl) ht, fun env => ?_⟩
        rw [heval, ← hresult.eval]
        exact Expr.eval_convertTo_of_fits (hfits env)
      | false =>
        have hself : (Expr.mkCall m args₁).type.toNullable = (Expr.mkCall m args₁).type := by
          rw [HostType.toNullable, ht]
          rfl
        refine .inl (.of_eval ?_ rfl rfl rfl rfl rfl fun env => ?_)
        · rw [Expr.type_guardCall, hself, hresult.type]
        · rw [heval, Expr.convertTo, if_pos hself.symm, hresult.eval]

end Context.Inlined

/-! ## Two runs -/

open BindM (Relates)

/-- Functions with related bodies. -/
theorem Expr.Inlines.toExpr [External] {l₁ l₂ : Lambda} (hparam : l₁.param = l₂.param)
    (hbody : l₁.body.Inlines l₂.body) : l₁.toExpr.Inlines l₂.toExpr where
  type := hbody.type
  isNullConst := rfl
  constValue := rfl
  lambdaType := congrArg some hbody.type
  place := rfl
  literal := .inl rfl
  operands env := by
    rw [operands_lambda, operands_lambda, hparam]
    simp only [hbody.eval]

/-- Functions that are the same but for references to literals. -/
abbrev Lambda.Inlines [External] (l₁ l₂ : Lambda) : Prop := l₁.toExpr.Inlines l₂.toExpr

namespace Context.Inlined

variable [External]

/-- A literal is bound to a reference in the first context and inline in the second. -/
theorem constant {E : Error → Prop} {v : Value} {t : HostType} (ht : t.isLiteral = true) :
    Relates Inlined E Eq Expr.Inlines (BindM.constant v t) (BindM.constant v t) where
  ok {c₁ c₂ a c₁'} hc hx := by
    refine ⟨_, _, BindM.constant_inline v t (by rw [hc.eq]), ?_⟩
    obtain ⟨-, hnull, h₁⟩ | h₁ := BindM.constant_cases v t c₁
    · cases hx.symm.trans h₁
      exact ⟨.literal_captured _ hnull ht, hc.parameterizeConstants, hc.nullPropagation, hc.eq⟩
    · cases hx.symm.trans h₁
      exact ⟨.refl _, hc⟩
  error _ hx _ := absurd hx BindM.constant_ne_error

theorem rules (E : Error → Prop) :
    Rules Inlined E Eq Expr.Inlines Expr.InlinesGuarded Lambda.Inlines where
  errors _ := rfl
  congruence hc := hc.congruence
  unguarded := .inl
  guard hc hcall hsources hresult := hc.guard hsources hcall hresult
  resolve v hc := by
    rw [hc.eq]
    exact (Follows.eq_refl _).mono fun _ _ he => he ▸ .refl _
  constant _ ht := constant ht
  any hc hs hl := hc.congruence.mkCollection _ (.cons hs (.cons hl .nil))
  all hc hs hl := hc.congruence.mkCollection _ (.cons hs (.cons hl .nil))
  countWhere hc hs hl :=
    hc.congruence.mkCollection _ (.cons (hc.congruence.mkCollection _ (.cons hs (.cons hl .nil))) .nil)

end Context.Inlined

/-! ## Nodes that avoid guards of literals -/

/-- The result of a computation; one that is a guard of literals is refused with an error. -/
def BindM.refuseGuards (refusal : Error) (x : BindM Expr) : BindM Expr := do
  let e ← x
  if e.guardsLiterals then BindM.fail refusal else return e

/-- Binds a node where so many levels are left. Where a node inside another is bound to a guard of
literals, that is refused with an error. -/
def Node.bindRefusing (refusal : Error) (levels : Nat) (node : Node) : BindM Expr :=
  match levels with
  | 0 => node.bindWithin 0
  | levels + 1 => BindM.descend
    (Bind.step (fun inner => BindM.refuseGuards refusal (bindRefusing refusal levels inner)) node)

/-- In a context, no node inside the node is bound to a guard of literals: nothing is refused. -/
def Node.AvoidsLiteralGuards (ctx : Context) (node : Node) : Prop :=
  ∃ refusal, (node.bindRefusing refusal ctx.levelsLeft ctx).1 ≠ .error refusal

theorem BindM.Relates.refuseGuards {K : Context → Context → Prop} {R G : Expr → Expr → Prop}
    {refusal : Error} {x y : BindM Expr} (h : Relates K (· ≠ refusal) Eq G x y)
    (hG : ∀ {a b}, G a b → a.guardsLiterals = false → R a b) :
    Relates K (· ≠ refusal) Eq R (BindM.refuseGuards refusal x) y where
  ok {c₁ c₂ a c₁'} hc hx := by
    obtain ⟨e, d₁, he, hx⟩ := BindM.exists_of_bind_eq_ok hx
    obtain ⟨b, c₂', hy, hab, hc'⟩ := h.ok hc he
    split_ifs at hx with hguards
    · cases hx
    · cases hx
      exact ⟨b, c₂', hy, hG hab (Bool.eq_false_iff.mpr hguards), hc'⟩
  error {c₁ c₂ e c₁'} hc hx he := by
    unfold BindM.refuseGuards at hx
    rcases hr : x c₁ with ⟨e' | a, d₁⟩
    · rw [BindM.bind_of_error hr] at hx
      cases hx
      exact h.error hc hr he
    · rw [BindM.bind_of_ok hr] at hx
      split_ifs at hx
      · cases hx
        exact absurd rfl he
      · cases hx

/-- **Binding that refuses guards of literals runs like binding**, in contexts that stay at the same
place, if what is not refused is related. -/
theorem Node.bindRefusing_relates {K : Context → Context → Prop} {R G : Expr → Expr → Prop}
    {L : Lambda → Lambda → Prop} {refusal : Error} (hrules : Rules K (· ≠ refusal) Eq R G L)
    (hK : Context.Aligned K) (hdepth : ∀ {c₁ c₂}, K c₁ c₂ → c₁.depth = c₂.depth)
    (hlimit : ∀ {c₁ c₂}, K c₁ c₂ → c₁.settings.maxDepth = c₂.settings.maxDepth) (hrefl : ∀ e, R e e)
    (hG : ∀ {a b}, G a b → a.guardsLiterals = false → R a b)
    (hL : ∀ {l₁ l₂ : Lambda}, l₁.param = l₂.param → R l₁.body l₂.body → L l₁ l₂)
    (levels : Nat) (node : Node) :
    Relates K (· ≠ refusal) Eq G (node.bindRefusing refusal levels) (node.bindWithin levels) := by
  induction levels generalizing node with
  | zero =>
    refine Relates.reads (fun _ => rfl) fun hc => ?_
    rw [hdepth hc, hlimit hc]
    exact Follows.error _
  | succ levels ih =>
    have hsub (node : Node) := (ih node).refuseGuards hG
    refine Relates.descend (fun _ => rfl) ?_ hdepth hlimit hK.deeper hK.shallower
    exact hrules.alignedStep hK hrefl hL hsub node

theorem Context.Inlined.aligned : Context.Aligned Context.Inlined :=
  .of_settings (fun s => s.parameterizeConstants = true ∧ s.nullPropagation = true)
    (fun s => { s with parameterizeConstants := false })
    fun _ _ => ⟨fun h => ⟨⟨h.parameterizeConstants, h.nullPropagation⟩, h.eq⟩, fun h => ⟨h.1.1, h.1.2, h.2⟩⟩

theorem Context.Beside.aligned : Context.Aligned (Context.Beside fun _ => True) where
  current hc := by rw [hc.1]
  scope hc := by rw [hc.1]
  nextId hc := by rw [hc.1]
  flattened hc := by rw [hc.1]
  computed hc := by rw [hc.1]
  deeper hc := ⟨by rw [hc.1], trivial⟩
  shallower hc := ⟨by rw [hc.1], trivial⟩
  push name type hc := ⟨by rw [hc.1], trivial⟩
  pop name hc := ⟨by rw [hc.1], trivial⟩
  derive element hc := ⟨by rw [hc.1], trivial⟩
  absorb hc ha := ⟨by rw [hc.1, ha.1], trivial⟩

/-- What is bound without a refusal is bound the same by binding. -/
theorem Node.bindRefusing_eq {refusal : Error} {levels : Nat} {node : Node} {ctx : Context}
    (h : (node.bindRefusing refusal levels ctx).1 ≠ .error refusal) :
    (node.bindWithin levels ctx).1 = (node.bindRefusing refusal levels ctx).1 := by
  have htrue : Expr.Hereditary fun _ => True :=
    ⟨by constructor <;> intros <;> trivial, fun _ _ _ => trivial⟩
  have hrules := htrue.rules (Q := fun _ => True) (E := (· ≠ refusal)) (fun _ => rfl)
    (fun _ _ => trivial) (fun {c} v _ => by cases c.resolve v <;> trivial)
  have hlambda {l₁ l₂ : Lambda} (hparam : l₁.param = l₂.param) (hbody : l₁.body = l₂.body ∧ True) :
      l₁ = l₂ ∧ True := by
    obtain ⟨p, body⟩ := l₁
    obtain ⟨rfl, -⟩ := hbody
    exact ⟨by rw [show p = l₂.param from hparam], trivial⟩
  have hrun := Node.bindRefusing_relates hrules Context.Beside.aligned (fun hc => by rw [hc.1])
    (fun hc => by rw [hc.1]) (fun _ => ⟨rfl, trivial⟩) (fun hab _ => hab) hlambda levels node
  rcases hx : node.bindRefusing refusal levels ctx with ⟨e | a, c'⟩
  · rw [hx] at h
    have he : e ≠ refusal := fun heq => h (by rw [heq])
    obtain ⟨_, c₂, hy, rfl⟩ := hrun.error ⟨rfl, trivial⟩ hx he
    rw [hy]
  · obtain ⟨_, c₂, hy, ⟨rfl, -⟩, -⟩ := hrun.ok ⟨rfl, trivial⟩ hx
    rw [hy]

/-- The context that keeps literals apart, or binds them inline. -/
def Context.parameterized (ctx : Context) (apart : Bool) : Context :=
  { ctx with settings := { ctx.settings with parameterizeConstants := apart } }

/-- **References mean their literals.** Let a context propagate nulls, and let no node inside a node be
bound to a guard of literals. Then the node is bound with literals apart and with literals inline to
expressions that have the same value in every environment or fail alike, or it fails with the same
error in both cases. -/
theorem references_mean_their_literals [External] {ctx : Context}
    (hnull : ctx.settings.nullPropagation = true)
    {node : Node} (hnode : node.AvoidsLiteralGuards (ctx.parameterized true)) :
    (∀ e₁, (node.bind (ctx.parameterized true)).1 = .ok e₁ →
      ∃ e₂, (node.bind (ctx.parameterized false)).1 = .ok e₂ ∧ ∀ env, e₁.eval env = e₂.eval env) ∧
    ∀ error, (node.bind (ctx.parameterized true)).1 = .error error →
      (node.bind (ctx.parameterized false)).1 = .error error := by
  obtain ⟨refusal, hrefusal⟩ := hnode
  have hbind := Node.bindRefusing_eq hrefusal
  have hc : (ctx.parameterized true).Inlined (ctx.parameterized false) := ⟨rfl, hnull, rfl⟩
  have hrun := Node.bindRefusing_relates (Context.Inlined.rules (· ≠ refusal)) Context.Inlined.aligned
    (fun hc => by rw [hc.eq]) (fun hc => by rw [hc.eq]) Expr.Inlines.refl
    (fun hab hguards => hab.resolve_right fun h => by simp [hguards] at h)
    Expr.Inlines.toExpr (ctx.parameterized true).levelsLeft node
  unfold Node.bind
  rw [hbind]
  refine ⟨fun e₁ he₁ => ?_, fun error herror => ?_⟩
  · obtain ⟨e₂, c₂, he₂, hinlines, -⟩ := hrun.ok hc (Prod.ext he₁ rfl)
    refine ⟨e₂, congrArg Prod.fst he₂, fun env => ?_⟩
    rcases hinlines with hinlines | ⟨-, heval⟩
    · exact hinlines.eval env
    · exact heval env
  · have herr : error ≠ refusal := fun heq => hrefusal (by rw [herror, heq])
    obtain ⟨_, c₂, he₂, rfl⟩ := hrun.error hc (Prod.ext herror rfl) herr
    exact congrArg Prod.fst he₂

/-! ### Coloured items -/

/-- Items with a colour and a count. -/
def itemSchema : Schema :=
  ⟨[("Item", ⟨"Item", [("Color", .string), ("Count", .int .int32)], none⟩)], [], []⟩

/-- The clause over items. -/
def itemContext : Context := .initial itemSchema {} (.record "Item")

/-- A member of the item. -/
def itemMember (name : String) : Node :=
  .property (.rangeVariable ⟨RangeVariable.itName, .entity "Item" true⟩) name .single

/-- The colour contains a letter, and is green. -/
def greenNode : Node :=
  .binary .and (.call "contains" [itemMember "Color", .constant (.string "e") none])
    (.binary .eq (itemMember "Color") (.constant (.string "green") none))

/-- A text in an item is looked for, and compared. -/
theorem references_mean_their_literals_of_green :
    ∃ e₁ e₂, (greenNode.bind (itemContext.parameterized true)).1 = .ok e₁ ∧
      (greenNode.bind (itemContext.parameterized false)).1 = .ok e₂ ∧
      ∀ env, e₁.eval env = e₂.eval env := by
  have hok : (greenNode.bind (itemContext.parameterized true)).1.toOption.isSome = true := by
    decide +kernel
  have havoids : (greenNode.bindRefusing .invalidSettings (itemContext.parameterized true).levelsLeft
      (itemContext.parameterized true)).1.toOption.isSome = true := by decide +kernel
  obtain ⟨e₁, c₁, he₁⟩ := BindM.exists_of_isSome hok
  have he₁ := congrArg Prod.fst he₁
  have hnode : greenNode.AvoidsLiteralGuards (itemContext.parameterized true) := by
    refine ⟨.invalidSettings, fun herror => ?_⟩
    rw [herror] at havoids
    cases havoids
  obtain ⟨e₂, he₂, heval⟩ := (references_mean_their_literals rfl hnode).1 e₁ he₁
  exact ⟨e₁, e₂, he₁, he₂, heval⟩

/-- `Color in ('red', 'blue') and 10 div Count gt 1`. -/
def scarceNode : Node :=
  .binary .and
    (.isIn (itemMember "Color")
      (.collectionConstant [.string "red", .string "blue"] (.primitive .string true)))
    (.binary .gt (.binary .div (.constant (.int32 10) none) (itemMember "Count"))
      (.constant (.int32 1) none))

/-- A green item, of which there are none left. -/
def greenItem : Value := .record "Item" [("Color", .string "green"), ("Count", .int32 0)]

/-- **A guard of literals changes a result.** The colours are guarded if they are kept apart, which
makes the first operand nullable, so that the second one is looked at though the first is false. -/
theorem guarded_literals_change_results :
    itemContext.settings.nullPropagation = true ∧
      ∃ e₁ e₂, (scarceNode.bind (itemContext.parameterized true)).1 = .ok e₁ ∧
        (scarceNode.bind (itemContext.parameterized false)).1 = .ok e₂ ∧
        (e₁.eval [(0, greenItem)]).toOption.isNone = true ∧
        (e₂.eval [(0, greenItem)]).toOption.bind Truth.ofValue? = some .false := by
  have hapart : ((scarceNode.bind (itemContext.parameterized true)).1.toOption.map fun e =>
      (e.eval [(0, greenItem)]).toOption.isNone) = some true := by decide +kernel
  have hinline : ((scarceNode.bind (itemContext.parameterized false)).1.toOption.map fun e =>
      (e.eval [(0, greenItem)]).toOption.bind Truth.ofValue?) = some (some .false) := by decide +kernel
  obtain ⟨e₁, he₁, hfails⟩ := Option.map_eq_some_iff.mp hapart
  obtain ⟨e₂, he₂, hfalse⟩ := Option.map_eq_some_iff.mp hinline
  exact ⟨rfl, e₁, e₂, Outcome.toOption_eq_some.mp he₁, Outcome.toOption_eq_some.mp he₂, hfails, hfalse⟩

end TypedQuery
