import TypedQuery.Bind.Node
import TypedQuery.Proofs.Aggregates
import TypedQuery.Proofs.Conformance

/-!
# Expressions that no null breaks

An expression is safe in some environments if it gives a value of its static type there, and if it
fails, not because of a null. The operations of binding build safe expressions from safe ones: they
guard what they read from, lift what they compare and convert what they combine.

* `Expr.Safe`: safety in the environments with a property.
* `Expr.Safe.guardedBy`: a guard makes safe what is safe where its source is not null.
* **`Context.Guarding.openAccess`**, **`Context.Guarding.binary`**, **`Context.Guarding.call`**:
  properties, operators and calls.
* `Context.normalizePredicate_eq_ok`: what a predicate is normalized to.
-/

namespace TypedQuery

namespace Expr

/-- Where an environment has the property, the expression has a value of its type, or fails for a
cause other than a null. -/
def Safe [External] (s : Schema) (V : Env → Prop) (e : Expr) : Prop :=
  ∀ env, V env → (e.eval env).NullSafe (Conforms s e.type)

/-- The expression is not null in an environment. -/
def NonNullAt [External] (env : Env) (e : Expr) : Prop := ∀ v, e.eval env = .ok v → v.isNull = false

/-- The environments with a property in which an expression is not null. -/
def NonNullIn [External] (V : Env → Prop) (e : Expr) : Env → Prop := fun env => V env ∧ e.NonNullAt env

variable {s : Schema} {V W : Env → Prop} {e l r x source result : Expr} {t : HostType} {env : Env}

theorem Safe.mono [External] (h : e.Safe s V) (hW : ∀ env, W env → V env) : e.Safe s W :=
  fun env henv => h env (hW env henv)

theorem Safe.nonNullIn [External] (h : e.Safe s V) : e.Safe s (NonNullIn V x) := h.mono fun _ => And.left

/-- An expression of a type without null is not null. -/
theorem Safe.nonNullAt [External] (h : e.Safe s V) (ht : e.type.isNullable = false) (henv : V env) :
    e.NonNullAt env := by
  intro v hv
  have hsafe := h env henv
  rw [hv] at hsafe
  by_contra hnull
  rw [hsafe.isNullable (by simpa using hnull)] at ht
  cases ht

/-! ## Constants -/

theorem safe_const [External] {v : Value} (h : Conforms s t v) : (Expr.const v t).Safe s V := fun _ _ => h

theorem safe_mkNull [External] (t : HostType) : (mkNull t).Safe s V := safe_const
    (.null t.isNullable_toNullable)

theorem safe_mkBool [External] (b : Bool) : (mkBool b).Safe s V := safe_const (.plain rfl rfl)

theorem safe_mkConst [External] {v : Value} (hv : v.isPlain = true) : (mkConst v).Safe s V := by
  refine safe_const (.plain ?_ hv)
  cases v <;> first | rfl | cases hv

/-- The literal null is null. -/
theorem isNullConst_of_eval [External] {v : Value} (he : e.eval env = .ok v) (hv : v.isNull = false) :
    e.isNullConst = false := by
  unfold isNullConst
  split
  · cases he
    cases hv
  · rfl

/-- A literal other than null is not null. -/
theorem isNonNullConst_of_eval [External] {v : Value} (he : e.eval env = .ok v) (hv : v.isNull = true) :
    e.isNonNullConst = false := by
  cases e <;> first | rfl | skip
  cases he
  simp [isNonNullConst, hv]

/-- A function has no value. -/
theorem isLambda_of_eval [External] {v : Value} (he : e.eval env = .ok v) : e.isLambda = false := by
  cases e <;> first | rfl | cases he

/-! ## Conversions -/

theorem type_convertTo (x : Expr) (t : HostType) : (x.convertTo t).type = t := by
  unfold convertTo
  split_ifs with h
  · exact h
  · rfl

theorem isNullConst_convertTo (x : Expr) (t : HostType) :
    (x.convertTo t).isNullConst = (decide (x.type = t) && x.isNullConst) := by
  unfold convertTo
  split_ifs with h
  · rw [decide_eq_true h, Bool.true_and]
  · rw [decide_eq_false h, Bool.false_and]
    rfl

theorem eval_convertTo_of_error [External] {err : Error} (h : x.eval env = .error err) (t : HostType) :
    (x.convertTo t).eval env = .error err := by
  unfold convertTo
  split_ifs
  · exact h
  · rw [eval, h]
    rfl

/-- What is brought to a type is a conversion of the value, if that stays as it is where the type is the same. -/
theorem eval_convertTo_of_eval [External] {v : Value} (hv : x.eval env = .ok v)
    (hself : x.type = t → v.convert t = .ok v) : (x.convertTo t).eval env = v.convert t := by
  unfold convertTo
  split_ifs with ht
  · rw [hv, hself ht]
  · rw [eval, hv]
    rfl

theorem Safe.convert_atomic [External] (h : x.Safe s V) (hx : x.type.nonNullable.isAtomic = true)
    (hnull : x.type.isNullable = true → t.isNullable = true) : (Expr.convert x t).Safe s V := by
  intro env henv
  refine (h env henv).bind fun v hv => ?_
  exact Value.convert_of_plain (hv.atomic hx) fun hv' => hnull (hv.isNullable hv')

theorem Safe.convert_plain [External] (h : x.Safe s V) (ht : t.isPlain = true)
    (hnull : x.type.isNullable = true → t.isNullable = true) : (Expr.convert x t).Safe s V := by
  intro env henv
  refine (h env henv).bind fun v hv => ?_
  exact Value.convert_plain ht fun hv' => hnull (hv.isNullable hv')

theorem Safe.convert_same [External] (h : x.Safe s V) (ht : x.type.nonNullable = t.nonNullable)
    (hnull : x.type.isNullable = true → t.isNullable = true) : (Expr.convert x t).Safe s V := by
  intro env henv
  refine (h env henv).bind fun v hv => ?_
  exact Value.convert_same hv ht fun hv' => hnull (hv.isNullable hv')

theorem Safe.convertTo [External] (h : x.Safe s V) (hconvert : (Expr.convert x t).Safe s V) :
    (x.convertTo t).Safe s V := by
  unfold Expr.convertTo
  split_ifs
  · exact h
  · exact hconvert

theorem Safe.toNullable [External] (h : x.Safe s V) : (x.convertTo x.type.toNullable).Safe s V :=
  h.convertTo (h.convert_same x.type.nonNullable_toNullable.symm fun _ => x.type.isNullable_toNullable)

/-! ## Guards -/

/-- The test whether an expression is null. -/
theorem eval_isNull [External] (e : Expr) (t : HostType) (env : Env) :
    (mkEqual e (mkNull t)).eval env = e.eval env >>= fun v => .ok (.bool v.isNull) := by
  simp only [mkEqual, mkBinary, mkNull, eval, BinaryOp.isLogical, Bool.false_and]
  refine congrArg (_ >>= ·) (funext fun v => ?_)
  cases v <;> rfl

theorem eval_cond_of_bool [External] {test ifTrue ifFalse : Expr} {b : Bool}
    (h : test.eval env = .ok (.bool b)) :
    (Expr.cond test ifTrue ifFalse t).eval env = if b then ifTrue.eval env else ifFalse.eval env := by
  simp only [eval, h, Outcome.ok_bind]
  cases b <;> rfl

theorem eval_cond_of_error [External] {test ifTrue ifFalse : Expr} {err : Error}
    (h : test.eval env = .error err) : (Expr.cond test ifTrue ifFalse t).eval env = .error err := by
  simp only [eval, h, Outcome.error_bind]

/-- Null where a test holds, and else what is safe where it does not. -/
theorem safe_nullWhere [External] {test : Expr} (P : Env → Prop)
    (htest : ∀ env, V env → (test.eval env).NullSafe fun v => ∃ b, v = .bool b ∧ (b = false → P env))
    (hr : result.Safe s fun env => V env ∧ P env) :
    (mkCond test (mkNull t) (result.convertTo result.type.toNullable)).Safe s V := by
  intro env henv
  have htype : (mkCond test (mkNull t) (result.convertTo result.type.toNullable)).type
      = result.type.toNullable := by
    simp only [mkCond, Expr.type, mkNull, isNullConst, if_true, type_convertTo,
      HostType.toNullable_toNullable]
  rw [htype]
  have htest := htest env henv
  cases hc : test.eval env with
  | error err =>
    rw [hc] at htest
    rw [mkCond, eval_cond_of_error hc]
    exact htest
  | ok v =>
    rw [hc] at htest
    obtain ⟨b, rfl, hb⟩ := htest
    rw [mkCond, eval_cond_of_bool hc]
    cases b with
    | true => exact .null result.type.isNullable_toNullable
    | false =>
      have hsafe := hr.toNullable env ⟨henv, hb rfl⟩
      rwa [type_convertTo] at hsafe

theorem isNull_nullSafe [External] (h : e.Safe s V) (henv : V env) :
    ((mkEqual e (mkNull t)).eval env).NullSafe fun v =>
      ∃ b, v = .bool b ∧ (b = false → e.NonNullAt env) := by
  rw [eval_isNull]
  refine (h env henv).self.bind fun v hv => ⟨_, rfl, fun hnull w hw => ?_⟩
  rw [hv.2] at hw
  cases hw
  exact hnull

/-- **A guard makes safe what is safe where its source is not null.** -/
theorem Safe.guardedBy [External] (hs : source.Safe s V) (hr : result.Safe s (NonNullIn V source)) :
    (result.guardedBy source).Safe s V :=
  safe_nullWhere (source.NonNullAt ·) (fun _ henv => isNull_nullSafe hs henv) hr

end Expr

/-- The environments are those of a context with null propagation, and the record of its clause is
not null in them. -/
structure Context.Guarding [External] (ctx : Context) (V : Env → Prop) : Prop where
  propagation : ctx.settings.nullPropagation = true
  current : ∀ env, V env → ∀ e, ctx.isCurrent e = true → e.NonNullAt env

namespace Context.Guarding

variable [External] {ctx : Context} {s : Schema} {V W : Env → Prop} {source result : Expr} {env : Env}

theorem mono (h : ctx.Guarding V) (hW : ∀ env, W env → V env) : ctx.Guarding W :=
  ⟨h.propagation, fun env henv => h.current env (hW env henv)⟩

/-- What needs no guard is not null. -/
theorem nonNullAt (h : ctx.Guarding V) (hs : source.Safe s V) (hguard : ctx.needsGuard source = false)
    (henv : V env) : source.NonNullAt env := by
  unfold needsGuard at hguard
  simp only [h.propagation, Bool.true_and, Bool.and_eq_false_iff] at hguard
  rcases hguard with (ht | hcurrent) | hconst
  · exact hs.nonNullAt ht henv
  · exact h.current env henv source (by simpa using hcurrent)
  · intro v hv
    cases source <;> first | cases hconst | skip
    cases hv
    simpa [Expr.isNonNullConst] using hconst

theorem guardIfNeeded (h : ctx.Guarding V) (hs : source.Safe s V)
    (hr : result.Safe s (source.NonNullIn V)) : (ctx.guardIfNeeded source result).Safe s V := by
  unfold Context.guardIfNeeded
  split_ifs with hguard
  · exact hs.guardedBy hr
  · exact fun env henv => hr env ⟨henv, h.nonNullAt hs (by simpa using hguard) henv⟩

end Context.Guarding

/-! ## Properties -/

namespace HostType

/-- A type that is widened is widened to one with plain values, with null if it has null. -/
theorem widened?_eq_some {t u : HostType} (h : t.nonNullable.widened? = some u) :
    (u.nullableLike t).isPlain = true ∧
      (t.isNullable = true → (u.nullableLike t).isNullable = true) := by
  have hu : u.isPlain = true ∧ (t.nonNullable.isNullable = true → u.isNullable = true) := by
    revert h
    generalize t.nonNullable = n
    intro h
    unfold widened? at h
    split at h <;> cases h <;> first | exact ⟨rfl, fun _ => rfl⟩ | exact ⟨rfl, fun h => by cases h⟩
  unfold nullableLike
  split_ifs with ht
  · rw [isPlain_toNullable]
    exact ⟨hu.1, fun _ => u.isNullable_toNullable⟩
  · rw [nonNullable_eq_self (by simpa using ht)] at hu
    exact hu

end HostType

namespace Expr

variable [External] {s : Schema} {V : Env → Prop} {e source : Expr}

theorem Safe.widenPrimitive (h : e.Safe s V) : e.widenPrimitive.Safe s V := by
  unfold Expr.widenPrimitive
  split
  next t ht =>
    obtain ⟨hplain, hnull⟩ := HostType.widened?_eq_some ht
    exact h.convert_plain hplain hnull
  next => exact h

/-- A declared member, where its record is not null. -/
theorem Safe.member (h : source.Safe s V) {typeName name : String} {m : Member}
    (ht : source.type = .record typeName) (hm : s.member? typeName name = some m) :
    (Expr.member source m).Safe s (source.NonNullIn V) := by
  rintro env ⟨henv, hnonNull⟩
  refine (h env henv).self.bind fun v hv => ?_
  rw [ht] at hv
  obtain ⟨_, fields, rfl, hfields⟩ := hv.1.record_inv (hnonNull v hv.2)
  have hname : m.name = name := by
    obtain ⟨_, _, hm⟩ := Option.bind_eq_some_iff.mp hm
    obtain ⟨_, _, hm⟩ := Option.bind_eq_some_iff.mp hm
    cases hm
    rfl
  refine .orFail rfl fun w hw => ?_
  rw [hname] at hw
  exact hfields name m w hm hw

end Expr

theorem Value.hasEntry_nullSafe (v : Value) (name : String) (h : v.isNull = false) :
    (v.hasEntry (.string name)).NullSafe fun _ => True := by
  cases v <;> trivial

theorem Value.entry_nullSafe (v : Value) (name : String) (h : v.isNull = false) :
    (v.entry (.string name)).NullSafe fun _ => True := by
  cases v <;> first | exact .orFail rfl fun _ _ => trivial | rfl | cases h

/-- Only records declare properties. -/
theorem Schema.declaresProperty_nullSafe (c : Schema) (v : Value) (name : String) :
    (c.declaresProperty v name).NullSafe fun b =>
      b = true → ∃ typeName fields, v = .record typeName fields := by
  unfold declaresProperty
  split
  next => split_ifs <;> first | exact fun _ => ⟨_, _, rfl⟩ | rfl
  next => exact fun h => by cases h

theorem Schema.dynamicProperty_nullSafe (c : Schema) (v : Value) (name : String) :
    (c.dynamicProperty v name).NullSafe fun _ => True := by
  unfold dynamicProperty
  split
  next => trivial
  next => split_ifs <;> first | (split <;> trivial) | rfl
  next => trivial

/-- The values of arguments are those of the expressions. -/
theorem Expr.map_value_operands [External] (args : List Expr) (env : Env) :
    (Expr.operands args env).map Operand.value = args.map (·.eval env) := by
  induction args with
  | nil => rfl
  | cons e rest ih =>
    obtain ⟨f, hf⟩ := Expr.operands_head e rest env
    rw [hf, List.map_cons, List.map_cons, ih]

theorem Operand.need_operands [External] (m : Method) (args : List Expr) (env : Env) (i : Nat) :
    Operand.need m (Expr.operands args env) i =
      match args[i]? with
      | some e => e.eval env
      | none => EvalError.fail (.missingArgument m i) := by
  have hvalue := congrArg (·[i]?) (Expr.map_value_operands args env)
  simp only [List.getElem?_map] at hvalue
  unfold Operand.need
  revert hvalue
  cases (Expr.operands args env)[i]? <;> cases args[i]? <;> intro hvalue
  · rfl
  · cases hvalue
  · cases hvalue
  · exact Option.some.inj hvalue

namespace Expr

variable [External] {s : Schema} {V : Env → Prop} {source bag : Expr}

theorem eval_containsKey (bag : Expr) (name : String) (env : Env) :
    (mkLookup .containsKey [bag, mkConst (.string name)]).eval env =
      bag.eval env >>= fun v => v.hasEntry (.string name) >>= fun b => .ok (.bool b) := by
  simp only [mkLookup, mkCall, eval, Method.apply, Lookup.apply, Operand.need_operands]
  rfl

theorem eval_hasDeclaredProperty (c : Schema) (source : Expr) (name : String) (env : Env) :
    (mkLookup .hasDeclaredProperty
      [.captured "model" (.model c) .model, source, mkConst (.string name)]).eval env =
        source.eval env >>= fun v => c.declaresProperty v name >>= fun b => .ok (.bool b) := by
  simp only [mkLookup, mkCall, eval, Method.apply, Lookup.apply, Operand.needModel, Operand.needString,
    Operand.need_operands]
  rfl

theorem eval_declaredProperty (source : Expr) (name : String) (env : Env) :
    (mkLookup .declaredProperty [source, mkConst (.string name)]).eval env =
      source.eval env >>= fun v => v.member name := by
  simp only [mkLookup, mkCall, eval, Method.apply, Lookup.apply, Operand.needString, Operand.need_operands]
  rfl

theorem eval_dynamicProperty (c : Schema) (source : Expr) (name : String) (env : Env) :
    (mkLookup .dynamicProperty
      [.captured "model" (.model c) .model, source, mkConst (.string name)]).eval env =
        source.eval env >>= fun v => c.dynamicProperty v name := by
  simp only [mkLookup, mkCall, eval, Method.apply, Lookup.apply, Operand.needModel, Operand.needString,
    Operand.need_operands]
  rfl

theorem eval_notNull (e : Expr) (t : HostType) (env : Env) :
    (mkNotEqual e (mkNull t)).eval env = e.eval env >>= fun v => .ok (.bool !v.isNull) := by
  simp only [mkNotEqual, mkBinary, mkNull, eval, BinaryOp.isLogical, Bool.false_and]
  refine congrArg (_ >>= ·) (funext fun v => ?_)
  cases v <;> rfl

/-- The logic of booleans that are never null. -/
theorem eval_logical {op : BinaryOp} (hop : op.isLogical = true) {l r : Expr}
    (hl : l.type.isNullableValueType = false) (hr : r.type.isNullableValueType = false) (lifted : Bool)
    (env : Env) :
    (mkBinary op l r lifted).eval env =
      l.eval env >>= fun v => op.shortCircuit v fun _ => r.eval env := by
  have htype : binaryType op l.type r.type lifted = .bool := by
    have hcomparison : op.isComparison = false := by cases op <;> first | rfl | cases hop
    simp [binaryType, hcomparison, hop, hl, hr]
  simp only [mkBinary, eval, htype, hop, HostType.isNullableValueType, Bool.not_false, Bool.and_self,
    if_true]

end Expr

namespace Context

variable [External]

/-- An entry is looked up only in a bag that is not null and has it. -/
theorem entryOfBag_eval {ctx : Context} (h : ctx.settings.nullPropagation = true) (bag : Expr)
    (name : String) (env : Env) :
    (ctx.entryOfBag bag name).eval env = bag.eval env >>= fun v =>
      if v.isNull then .ok .null
      else v.hasEntry (.string name) >>= fun b => if b then v.entry (.string name) else .ok .null := by
  have htest : (Expr.mkBinary .andAlso (.mkNotEqual bag (.mkNull .dictionary))
      (.mkLookup .containsKey [bag, .mkConst (.string name)]) false).eval env =
        bag.eval env >>= fun v =>
          if v.isNull then .ok (.bool false)
          else v.hasEntry (.string name) >>= fun b => .ok (.bool b) := by
    rw [Expr.eval_logical rfl rfl rfl, Expr.eval_notNull, Expr.eval_containsKey]
    cases bag.eval env with
    | error err => rfl
    | ok v =>
      simp only [Outcome.ok_bind]
      cases v.isNull with
      | true => rfl
      | false => cases v.hasEntry (.string name) <;> rfl
  unfold entryOfBag
  simp only [h, if_true, Expr.mkCond]
  rcases hv : bag.eval env with err | v <;> rw [hv] at htest
  · exact Expr.eval_cond_of_error htest
  rw [Outcome.ok_bind] at htest ⊢
  cases hnull : v.isNull with
  | true =>
    rw [hnull, if_pos rfl] at htest
    exact Expr.eval_cond_of_bool htest
  | false =>
    rw [hnull, if_neg Bool.false_ne_true] at htest
    rw [if_neg Bool.false_ne_true]
    rcases hc : v.hasEntry (.string name) with err | b <;> rw [hc] at htest
    · exact Expr.eval_cond_of_error htest
    · rw [Expr.eval_cond_of_bool htest]
      cases b with
      | true => simp only [if_true, Expr.eval, hv, Outcome.ok_bind, Expr.mkConst]
      | false => rfl

/-- What the type of the value declares is looked up first. -/
theorem dynamicAccess_eval (ctx : Context) (source : Expr) (name : String) (env : Env) :
    (ctx.dynamicAccess source name).eval env = source.eval env >>= fun v =>
      ctx.schema.declaresProperty v name >>= fun b =>
        if b then v.member name else ctx.schema.dynamicProperty v name := by
  have htest := Expr.eval_hasDeclaredProperty ctx.schema source name env
  unfold dynamicAccess modelExpr Expr.mkCond
  dsimp only
  rcases hv : source.eval env with err | v <;> rw [hv] at htest
  · exact Expr.eval_cond_of_error htest
  rw [Outcome.ok_bind] at htest ⊢
  rcases hc : ctx.schema.declaresProperty v name with err | b <;> rw [hc] at htest
  · exact Expr.eval_cond_of_error htest
  · rw [Expr.eval_cond_of_bool htest, Expr.eval_declaredProperty, Expr.eval_dynamicProperty, hv]
    rfl

end Context

namespace Context.Guarding

variable {ctx : Context} {s : Schema} {V : Env → Prop} {source bag e : Expr}

/-- Any value is an object. -/
theorem object {o : Outcome Value} {P : Value → Prop} (ho : o.NullSafe P) :
    o.NullSafe (Conforms s .object) :=
  ho.mono fun v _ => .object v

/-- A declared member. -/
theorem memberAccess [External] (h : ctx.Guarding V) {name : String} (hs : source.Safe ctx.schema V)
    (he : ctx.memberAccess source name = .ok e) : e.Safe ctx.schema V := by
  unfold Context.memberAccess at he
  split at he
  next m hm =>
    cases he
    obtain ⟨typeName, htype, hm⟩ := Option.bind_eq_some_iff.mp hm
    have htype : source.type = .record typeName := by
      revert htype
      cases source.type <;> intro htype <;> cases htype
      rfl
    exact h.guardIfNeeded hs (hs.member htype hm).widenPrimitive
  next => cases he

/-- An entry of a bag is looked up only if the bag is not null and has it. -/
theorem entryOfBag [External] (h : ctx.Guarding V) (hb : bag.Safe s V) (name : String) :
    (ctx.entryOfBag bag name).Safe s V := by
  intro env henv
  have hbag := hb env henv
  rw [Context.entryOfBag_eval h.propagation]
  refine hbag.bind fun v _ => ?_
  cases hnull : v.isNull with
  | true => exact .object _
  | false =>
    rw [if_neg Bool.false_ne_true]
    refine (v.hasEntry_nullSafe name hnull).bind fun b _ => ?_
    cases b with
    | true => exact object (v.entry_nullSafe name hnull)
    | false => exact .object _

/-- A member of an open record. -/
theorem bagAccess [External] (h : ctx.Guarding V) {typeName name : String} (hs : source.Safe ctx.schema V)
    (htype : source.type = .record typeName) (he : ctx.bagAccess source typeName name = .ok e) :
    e.Safe ctx.schema V := by
  unfold Context.bagAccess at he
  split_ifs at he with hdeclared
  · exact h.memberAccess hs he
  · split at he
    next m hm =>
      cases he
      obtain ⟨_, _, hm⟩ := Option.bind_eq_some_iff.mp hm
      obtain ⟨_, _, hm⟩ := Option.bind_eq_some_iff.mp hm
      exact h.guardIfNeeded hs ((h.mono fun _ => And.left).entryOfBag (hs.member htype hm) name)
    next => cases he

/-- A property of a value of any type. -/
theorem dynamicAccess [External] (hs : source.Safe s V) (name : String) :
    (ctx.dynamicAccess source name).Safe s V := by
  intro env henv
  rw [Context.dynamicAccess_eval]
  refine (hs env henv).bind fun v _ => ?_
  refine (ctx.schema.declaresProperty_nullSafe v name).bind fun b hdeclared => ?_
  cases b with
  | true =>
    obtain ⟨_, _, rfl⟩ := hdeclared rfl
    exact object (P := fun _ => True) (.orFail rfl fun _ _ => trivial)
  | false => exact object (ctx.schema.dynamicProperty_nullSafe v name)

/-- **A property that need not be declared.** -/
theorem openAccess [External] (h : ctx.Guarding V) {name : String} (hs : source.Safe ctx.schema V)
    (he : ctx.openAccess source name = .ok e) : e.Safe ctx.schema V := by
  unfold Context.openAccess at he
  split at he
  next =>
    cases he
    exact dynamicAccess hs name
  next htype => exact h.bagAccess hs htype he
  next => cases he

end Context.Guarding

/-! ## Operators -/

namespace Expr

variable {s : Schema} {V : Env → Prop} {l r x : Expr} {op : BinaryOp}

theorem eval_mkBinary [External] (hop : op.isLogical = false) (l r : Expr) (lifted : Bool) (env : Env) :
    (mkBinary op l r lifted).eval env =
      l.eval env >>= fun a => r.eval env >>= fun b =>
        op.apply a b lifted (binaryType op l.type r.type lifted) := by
  simp only [mkBinary, eval, hop, Bool.false_and, Bool.false_eq_true, if_false]

theorem Safe.comparison [External] (hop : op.isComparison = true) (hl : l.Safe s V) (hr : r.Safe s V)
    (lifted : Bool) : (mkBinary op l r lifted).Safe s V := by
  intro env henv
  have hlogical : op.isLogical = false := by cases op <;> first | rfl | cases hop
  rw [eval_mkBinary hlogical]
  refine (hl env henv).bind fun a _ => (hr env henv).bind fun b _ => ?_
  have hsafe := op.compareValues_nullSafe (s := s) a b lifted
  simpa only [BinaryOp.apply, hlogical, Bool.false_eq_true, if_false, hop, if_true, mkBinary, Expr.type,
    binaryType] using hsafe

/-- The type of arithmetic has null if the type of an operand has, and plain values if the type of the
left one has. -/
theorem binaryType_arithmetic (hlogical : op.isLogical = false) (hcomparison : op.isComparison = false)
    (a b : HostType) (lifted : Bool) :
    ((a.isNullable = true ∨ b.isNullableValueType = true) →
      (binaryType op a b lifted).isNullable = true) ∧
    (a.isPlain = true → (binaryType op a b lifted).isPlain = true) := by
  simp only [binaryType, hlogical, hcomparison, Bool.false_eq_true, if_false]
  split_ifs with h
  · rw [HostType.isPlain_toNullable, HostType.isPlain_nonNullable]
    exact ⟨fun _ => HostType.isNullable_toNullable _, id⟩
  · rw [Bool.or_eq_true, not_or] at h
    exact ⟨fun hnull => hnull.resolve_right h.2, id⟩

/-- Arithmetic is null only where an operand is. -/
theorem Safe.arithmetic [External] (hlogical : op.isLogical = false) (hcomparison : op.isComparison = false)
    (hl : l.Safe s V) (hr : r.Safe s V)
    (hnull : r.type.isNullable = true → l.type.isNullable = true ∨ r.type.isNullableValueType = true)
    (lifted : Bool) : (mkBinary op l r lifted).Safe s V := by
  intro env henv
  rw [eval_mkBinary hlogical]
  refine (hl env henv).bind fun a ha => (hr env henv).bind fun b hb => ?_
  obtain ⟨hnullable, hplain⟩ := binaryType_arithmetic hlogical hcomparison l.type r.type lifted
  change Outcome.NullSafe (Conforms s (binaryType op l.type r.type lifted)) _
  simp only [BinaryOp.apply, hlogical, hcomparison, Bool.false_eq_true, if_false]
  by_cases hsome : (a.isNull || b.isNull) = true
  · rw [if_pos hsome]
    refine Conforms.null (hnullable ?_)
    rcases Bool.or_eq_true .. ▸ hsome with ha' | hb'
    · exact .inl (ha.isNullable ha')
    · exact hnull (hb.isNullable hb')
  · rw [if_neg hsome]
    exact (op.arithmetic_nullSafe a b _).mono fun w hw =>
      .plain (hplain (ha.isPlain hw.2)) (Value.isPlain_of_isAtom hw.1)

theorem Safe.unary [External] (op : UnaryOp) (h : x.Safe s V) : (mkUnary op x).Safe s V := by
  intro env henv
  refine (h env henv).bind fun v hv => (op.apply_nullSafe v).mono fun w hw => ?_
  rcases hw with ⟨hw, hv'⟩ | ⟨hw, hv'⟩
  · obtain rfl := Value.eq_null hw
    exact .null (hv.isNullable hv')
  · exact .plain (hv.isPlain hv') (Value.isPlain_of_isAtom hw)

/-- The logic of booleans: both are never null, or both are brought to the type with null. -/
theorem Safe.logical [External] (hop : op.isLogical = true) (hl : l.Safe s V) (hr : r.Safe s V)
    (htype : (l.type = .bool ∧ r.type = .bool) ∨ l.type.isNullableValueType = true)
    (lifted : Bool) : (mkBinary op l r lifted).Safe s V := by
  intro env henv
  have hcomparison : op.isComparison = false := by cases op <;> first | rfl | cases hop
  change Outcome.NullSafe (Conforms s (binaryType op l.type r.type lifted)) _
  rcases htype with ⟨hlt, hrt⟩ | htype
  · have hresult : binaryType op l.type r.type lifted = .bool := by
      simp [binaryType, hcomparison, hop, hlt, hrt, HostType.isNullableValueType]
    have hbool {v : Value} (hv : Conforms s .bool v) : v.isNull = false :=
      Value.isNull_of_isPlain (hv.isPlain_of_isValueType rfl)
    rw [eval_logical hop (by rw [hlt]; rfl) (by rw [hrt]; rfl), hresult]
    refine (hl env henv).bind fun a ha => ?_
    have hright := (hr env henv).mono fun b hb => hbool (hrt ▸ hb)
    exact (op.shortCircuit_nullSafe (hbool (hlt ▸ ha)) hright).mono fun w hw =>
      .plain rfl (Value.isPlain_of_isAtom hw)
  · have hresult : binaryType op l.type r.type lifted = HostType.bool.toNullable := by
      simp [binaryType, hcomparison, hop, htype]
    simp only [mkBinary, hresult, eval]
    refine (hl env henv).bind fun a _ => ?_
    rw [if_neg (by simp [HostType.toNullable, HostType.isValueType, HostType.isNullableValueType])]
    exact (hr env henv).bind fun b _ => BinaryOp.apply_logical_nullSafe hop a b _ _

/-! ## Functions -/

theorem eval_mkScalar [External] (f : ScalarFunction) (args : List Expr) (env : Env) :
    (mkScalar f args).eval env = args.mapM (·.eval env) >>= f.apply := by
  have hargs : (operands args env).mapM Operand.value = args.mapM (·.eval env) := by
    have hvalues := congrArg (List.mapM id) (map_value_operands args env)
    simpa [List.mapM_map] using hvalues
  simp only [mkScalar, mkCall, eval, Method.apply, hargs]

/-- Arguments have values of their types. -/
theorem mapM_eval_nullSafe [External] {args : List Expr} (h : ∀ a ∈ args, a.Safe s V) {env : Env}
    (henv : V env) :
    Outcome.NullSafe (List.Forall₂ (fun a v => Conforms s a.type v ∧ a.eval env = .ok v) args)
      (args.mapM (·.eval env)) := by
  induction args with
  | nil => exact .nil
  | cons a rest ih =>
    have hrest := ih fun b hb => h b (List.mem_cons_of_mem _ hb)
    rw [List.mapM_cons]
    refine (h a List.mem_cons_self env henv).self.bind fun v hv => ?_
    exact hrest.bind fun vs hvs => List.Forall₂.cons hv hvs

/-- A function of arguments that are not null. -/
theorem Safe.scalar [External] {args : List Expr} (f : ScalarFunction) (h : ∀ a ∈ args, a.Safe s V)
    (hnonNull : ∀ env, V env → ∀ a ∈ args, a.NonNullAt env) : (mkScalar f args).Safe s V := by
  intro env henv
  rw [eval_mkScalar]
  refine (mapM_eval_nullSafe h henv).bind fun vs hvs => ?_
  have hvalues : ∀ v ∈ vs, v.isNull = false := by
    intro v hv
    obtain ⟨a, ha, hva⟩ := Outcome.forall₂_mem hvs.flip hv
    exact hnonNull env henv a ha v hva.2
  refine (ScalarFunction.apply_nullSafe hvalues).mono fun w hw => .plain ?_ hw.1
  change (f.resultType args).isPlain = true
  by_cases hf : f.isRounding = true
  · obtain ⟨v, rest, rfl, hv⟩ := hw.2 hf
    cases hvs with
    | @cons a _ args _ ha _ =>
      have hplain : a.type.nonNullable.isPlain = true := by
        rw [HostType.isPlain_nonNullable]
        exact ha.1.isPlain hv
      cases f <;> first | exact hplain | cases hf
  · cases f <;> first | rfl | exact absurd rfl hf

/-- A comparison of texts or byte sequences of which some may be null. -/
theorem Safe.ordinal [External] {f : ScalarFunction} (hf : f = .compare ∨ f = .bytesEqual) (hl : l.Safe s V)
    (hr : r.Safe s V) : (mkScalar f [l, r]).Safe s V := by
  intro env henv
  rw [eval_mkScalar]
  have hargs : ∀ a ∈ [l, r], a.Safe s V := by simp [hl, hr]
  refine (mapM_eval_nullSafe hargs henv).bind fun vs hvs => ?_
  obtain ⟨v, _, _, hrest, rfl⟩ := List.forall₂_cons_left_iff.mp hvs
  obtain ⟨w, _, _, hnil, rfl⟩ := List.forall₂_cons_left_iff.mp hrest
  obtain rfl := List.forall₂_nil_left_iff.mp hnil
  refine (ScalarFunction.apply_ordinal_nullSafe hf v w).mono fun u hu => .plain ?_ hu
  rcases hf with rfl | rfl <;> rfl

/-- The question whether one of several expressions is null, added to a test. -/
theorem foldl_isNull_nullSafe [External] {args : List Expr} (h : ∀ a ∈ args, a.Safe s V) {env : Env}
    (henv : V env) {test : Expr} {P : Prop} (htype : test.type = .bool)
    (htest : (test.eval env).NullSafe fun v => ∃ b, v = .bool b ∧ (b = false → P)) :
    ((args.foldl (fun test e => mkBinary .orElse test (mkEqual e (mkNull e.type)) false) test).eval
      env).NullSafe fun v => ∃ b, v = .bool b ∧ (b = false → P ∧ ∀ a ∈ args, a.NonNullAt env) := by
  induction args generalizing test P with
  | nil => exact htest.mono fun v ⟨b, hv, hb⟩ => ⟨b, hv, fun hfalse => ⟨hb hfalse, by simp⟩⟩
  | cons a rest ih =>
    have hrest (b : Expr) (hb : b ∈ rest) : b.Safe s V := h b (List.mem_cons_of_mem _ hb)
    have hnext : (mkBinary .orElse test (mkEqual a (mkNull a.type)) false).type = .bool := by
      simp [mkBinary, mkEqual, Expr.type, binaryType, htype, BinaryOp.isComparison, BinaryOp.isLogical,
        HostType.isNullableValueType]
    rw [List.foldl_cons]
    refine (ih hrest (P := P ∧ a.NonNullAt env) hnext ?_).mono fun v ⟨b, hv, hb⟩ =>
      ⟨b, hv, fun hfalse => ⟨(hb hfalse).1.1, List.forall_mem_cons.mpr ⟨(hb hfalse).1.2, (hb hfalse).2⟩⟩⟩
    rw [eval_logical rfl (by rw [htype]; rfl) rfl]
    refine htest.bind ?_
    rintro _ ⟨b, rfl, hb⟩
    cases b with
    | true => exact ⟨true, rfl, fun hfalse => by cases hfalse⟩
    | false =>
      refine (isNull_nullSafe (h a List.mem_cons_self) henv).bind ?_
      rintro _ ⟨c, rfl, hc⟩
      exact ⟨c, rfl, fun hfalse => ⟨hb rfl, hc hfalse⟩⟩

/-- The question whether one of several expressions is null. -/
theorem someIsNull?_nullSafe [External] {args : List Expr} {test : Expr} (h : ∀ a ∈ args, a.Safe s V)
    (ht : Bind.someIsNull? args = some test) {env : Env} (henv : V env) :
    (test.eval env).NullSafe fun v =>
      ∃ b, v = .bool b ∧ (b = false → ∀ a ∈ args, a.NonNullAt env) := by
  cases args with
  | nil => cases ht
  | cons a rest =>
    cases ht
    refine (foldl_isNull_nullSafe (fun b hb => h b (List.mem_cons_of_mem _ hb)) henv
      (P := a.NonNullAt env) rfl ?_).mono fun v ⟨b, hv, hb⟩ =>
        ⟨b, hv, fun hfalse => List.forall_mem_cons.mpr (hb hfalse)⟩
    exact isNull_nullSafe (h a List.mem_cons_self) henv

/-- What is null where one of several expressions is. -/
theorem Safe.guardCall [External] {args : List Expr} (h : ∀ a ∈ args, a.Safe s V)
    (hx : x.Safe s fun env => V env ∧ ∀ a ∈ args, a.NonNullAt env) : (Bind.guardCall args x).Safe s V := by
  unfold Bind.guardCall
  split
  next test htest =>
    exact safe_nullWhere (fun env => ∀ a ∈ args, a.NonNullAt env)
      (fun env henv => someIsNull?_nullSafe h htest henv) hx
  next hnone =>
    have hargs : args = [] := by
      cases args with
      | nil => rfl
      | cons a rest => cases hnone
    subst hargs
    exact fun env henv => hx env ⟨henv, by simp⟩

end Expr

/-! ## Operands of one type -/

namespace HostType

/-- A type that is a value type, with null or without, has null only if it is made nullable. -/
theorem isNullableValueType_of_isNullable {t : HostType} (hnull : t.isNullable = true)
    (ht : t.isNullableValueType = false → t.isValueType = true) : t.isNullableValueType = true := by
  cases h : t.isNullableValueType with
  | true => rfl
  | false =>
    rw [isNullable, ht h] at hnull
    cases hnull

theorem isNullableValueType_of_isValueType {t : HostType} (hnull : t.isNullable = true)
    (ht : t.nonNullable.isValueType = true) : t.isNullableValueType = true :=
  isNullableValueType_of_isNullable hnull fun h => by rwa [nonNullable_eq_self h] at ht

theorem isNullable_nullableLike {t : HostType} (u : HostType) (ht : t.nonNullable.isValueType = true)
    (hnull : t.isNullable = true) : (u.nullableLike t).isNullable = true := by
  unfold nullableLike
  rw [if_pos]
  · exact u.isNullable_toNullable
  · exact isNullableValueType_of_isValueType hnull ht

theorem isValueType_of_asEnum? {t : HostType} (h : t.asEnum?.isSome = true) :
    t.nonNullable.isValueType = true := by
  unfold asEnum? at h
  split at h
  next heq => rw [heq]; rfl
  next => cases h

theorem isValueType_of_isNumeric {t : HostType} (h : t.isNumeric = true) :
    t.nonNullable.isValueType = true := by
  unfold isNumeric at h
  split at h
  all_goals first | (rename_i heq; rw [heq]; rfl) | cases h

theorem isValueType_of_isIntegral {t : HostType} (h : t.isIntegral = true) :
    t.nonNullable.isValueType = true := by
  unfold isIntegral at h
  split at h
  next heq => rw [heq]; rfl
  next => cases h

end HostType

namespace Bind

variable {s : Schema} {V : Env → Prop} {e l r e' l' r' : Expr}

/-- A value type as a number. -/
theorem convert_nullableLike_safe [External] (h : e.Safe s V) (ht : e.type.nonNullable.isValueType = true)
    (u : HostType) : (Expr.convert e (u.nullableLike e.type)).Safe s V :=
  h.convert_atomic (HostType.isAtomic_of_isValueType ht) (HostType.isNullable_nullableLike u ht)

theorem toUnderlying_safe [External] {enum : EnumType} (h : e.Safe s V) (he : toUnderlying e enum = .ok e') :
    e'.Safe s V := by
  unfold toUnderlying at he
  dsimp only at he
  split_ifs at he with hnull henum hint
  · cases he
    exact Expr.safe_mkNull _
  · cases he
    exact convert_nullableLike_safe h (HostType.isValueType_of_asEnum? henum) _
  · cases he
    exact h.convertTo (convert_nullableLike_safe h (HostType.isValueType_of_isIntegral hint) _)
  · obtain ⟨value, _, he⟩ := Outcome.bind_eq_ok.mp he
    obtain ⟨w, hw, he⟩ := Outcome.bind_eq_ok.mp he
    cases he
    have hplain := Value.ofInt_nullSafe value.toInt enum.underlying
    rw [hw] at hplain
    exact Expr.safe_const hplain.conforms

theorem unifyEnums_safe [External] (hl : l.Safe s V) (hr : r.Safe s V) (he : unifyEnums l r = .ok (l', r')) :
    l'.Safe s V ∧ r'.Safe s V := by
  unfold unifyEnums at he
  split at he
  next =>
    cases he
    exact ⟨hl, hr⟩
  next enum _ =>
    obtain ⟨a, ha, he⟩ := Outcome.bind_eq_ok.mp he
    obtain ⟨b, hb, he⟩ := Outcome.bind_eq_ok.mp he
    cases he
    exact ⟨toUnderlying_safe hl ha, toUnderlying_safe hr hb⟩

theorem unifyNulls_safe [External] (hl : l.Safe s V) (hr : r.Safe s V) :
    (unifyNulls l r).1.Safe s V ∧ (unifyNulls l r).2.Safe s V := by
  unfold unifyNulls
  split
  · exact ⟨Expr.safe_mkNull _, hr⟩
  · exact ⟨hl, Expr.safe_mkNull _⟩
  · exact ⟨hl, hr⟩

/-! ## Logic -/

theorem asBoolean_safe [External] (h : e.Safe s V) (he : asBoolean e = .ok e') :
    e'.Safe s V ∧ e'.type.isBool = true := by
  unfold asBoolean at he
  split_ifs at he with hbool hobject
  · cases he
    exact ⟨h, hbool⟩
  · cases he
    exact ⟨h.convert_plain rfl fun _ => rfl, rfl⟩

theorem convertTo_bool_safe [External] (h : e.Safe s V) (ht : e.type.isBool = true) :
    (e.convertTo HostType.bool.toNullable).Safe s V := by
  have ht : e.type.nonNullable = .bool := by simpa [HostType.isBool] using ht
  exact h.convertTo (h.convert_same ht fun _ => rfl)

theorem type_of_isBool {t : HostType} (ht : t.isBool = true) (hnull : t.isNullableValueType = false) :
    t = .bool := by
  rw [HostType.isBool, HostType.nonNullable_eq_self hnull] at ht
  simpa using ht

theorem logical_safe [External] {op : BinaryOp} (hop : op.isLogical = true) (hl : l.Safe s V)
    (hr : r.Safe s V) (he : logical op l r = .ok e) : e.Safe s V := by
  unfold logical at he
  obtain ⟨a, ha, he⟩ := Outcome.bind_eq_ok.mp he
  obtain ⟨b, hb, he⟩ := Outcome.bind_eq_ok.mp he
  obtain ⟨ha, hat⟩ := asBoolean_safe hl ha
  obtain ⟨hb, hbt⟩ := asBoolean_safe hr hb
  dsimp only at he
  split_ifs at he with hnull
  · cases he
    refine (convertTo_bool_safe ha hat).logical hop (convertTo_bool_safe hb hbt) (.inr ?_) false
    rw [Expr.type_convertTo]
    rfl
  · cases he
    simp only [Bool.not_eq_true, Bool.or_eq_false_iff] at hnull
    exact ha.logical hop hb (.inl ⟨type_of_isBool hat hnull.1, type_of_isBool hbt hnull.2⟩) false

/-! ## Dates and times -/

/-- A safe expression of an integral type. -/
def SafeInt [External] (s : Schema) (V : Env → Prop) (w : IntWidth) (e : Expr) : Prop :=
  e.Safe s V ∧ e.type = .int w

theorem SafeInt.arithmetic [External] {op : BinaryOp} (hlogical : op.isLogical = false)
    (hcomparison : op.isComparison = false) {w u : IntWidth} (hl : SafeInt s V w l)
    (hr : SafeInt s V u r) : SafeInt s V w (.mkBinary op l r false) := by
  refine ⟨hl.1.arithmetic hlogical hcomparison hr.1 ?_ false, ?_⟩
  · rw [hr.2]
    intro h
    cases h
  · simp [Expr.mkBinary, Expr.type, Expr.binaryType, hlogical, hcomparison, hl.2, hr.2,
      HostType.isNullableValueType]

namespace TimeKey

section Parts

variable [External] (h : e.Safe s V) (hnonNull : ∀ env, V env → e.NonNullAt env)
include h hnonNull

theorem scalar_safeInt {f : ScalarFunction} (hf : f.resultType [e] = .int .int32) :
    SafeInt s V .int32 (.mkScalar f [e]) := by
  refine ⟨Expr.Safe.scalar f ?_ fun env henv => ?_, hf⟩
  · simpa using h
  · simpa using hnonNull env henv

theorem datePart_safeInt {f : ScalarFunction} (hf : f.resultType [e] = .int .int32) (scale : Int) :
    SafeInt s V .int32 (datePart e f scale) :=
  (scalar_safeInt h hnonNull hf).arithmetic rfl rfl (u := .int32) ⟨Expr.safe_mkConst rfl, rfl⟩

theorem timePart_safeInt {f : ScalarFunction} (hf : f.resultType [e] = .int .int32) (scale : Int) :
    SafeInt s V .int64 (timePart e f scale) := by
  have hpart := scalar_safeInt h hnonNull hf
  have hconvert : SafeInt s V .int64 (.convert (.mkScalar f [e]) (.int .int64)) := by
    refine ⟨hpart.1.convert_plain rfl fun hnull => ?_, rfl⟩
    rw [hpart.2] at hnull
    cases hnull
  exact hconvert.arithmetic rfl rfl (u := .int64) ⟨Expr.safe_mkConst rfl, rfl⟩

/-- The key of an expression that is not null. -/
theorem key_safe (k : TimeKey) : (k.key e).Safe s V ∧ (k.key e).type = k.type := by
  cases k with
  | date =>
    exact ((datePart_safeInt h hnonNull rfl _).arithmetic rfl rfl
      (datePart_safeInt h hnonNull rfl _)).arithmetic rfl rfl (scalar_safeInt h hnonNull rfl)
  | time =>
    exact (((timePart_safeInt h hnonNull rfl _).arithmetic rfl rfl
      (timePart_safeInt h hnonNull rfl _)).arithmetic rfl rfl
        (timePart_safeInt h hnonNull rfl _)).arithmetic rfl rfl (timePart_safeInt h hnonNull rfl _)

end Parts

/-- The types that have a key are value types, null aside. -/
theorem forTypes?_eq_some {a b : HostType} {k : TimeKey} (h : forTypes? a b = some k) :
    (a.isNullableValueType = false → a.isValueType = true) ∧
      (b.isNullableValueType = false → b.isValueType = true) := by
  have dated {t : HostType} (ht : t.nonNullable.isDateFamily = true)
      (hnull : t.isNullableValueType = false) : t.isValueType = true := by
    rw [HostType.nonNullable_eq_self hnull] at ht
    cases t <;> first | rfl | (cases hnull; done) | cases ht
  have timed {t : HostType} (ht : hasTime t.nonNullable = true)
      (hnull : t.isNullableValueType = false) : t.isValueType = true := by
    rw [HostType.nonNullable_eq_self hnull] at ht
    cases t <;> first | rfl | (cases hnull; done) | cases ht
  unfold forTypes? at h
  dsimp only at h
  split_ifs at h with _ hdate htime
  · exact ⟨dated hdate.2.1, dated hdate.2.2⟩
  · exact ⟨timed htime.2.1, timed htime.2.2⟩

theorem project_safe [External] (k : TimeKey) (h : e.Safe s V)
    (ht : e.type.isNullableValueType = false → e.type.isValueType = true) : (k.project e).Safe s V := by
  unfold project
  split_ifs with hnull hnullable
  · exact Expr.safe_mkNull _
  · have hkey := key_safe (V := e.NonNullIn V) h.nonNullIn (fun _ henv => henv.2) k
    have hconvert : (k.key e).convertTo (k.key e).type.toNullable =
        .convert (k.key e) k.type.toNullable := by
      unfold Expr.convertTo
      rw [hkey.2, if_neg (by cases k <;> decide)]
    rw [← hconvert]
    exact Expr.safe_nullWhere (e.NonNullAt ·) (fun _ henv => Expr.isNull_nullSafe h henv) hkey.1
  · have hvalue := ht (by simpa using hnullable)
    have hnever : e.type.isNullable = false := by rw [HostType.isNullable, hvalue]; rfl
    exact (key_safe h (fun _ henv => h.nonNullAt hnever henv) k).1

end TimeKey

/-! ## Texts and bytes -/

theorem ordinal?_safe [External] {op : BinaryOp} (hop : op.isComparison = true) (hl : l.Safe s V)
    (hr : r.Safe s V) (he : ordinal? op l r = some e) : e.Safe s V := by
  unfold ordinal? at he
  dsimp only at he
  split_ifs at he
  · cases he
    exact (hl.ordinal (.inl rfl) hr).comparison hop (Expr.safe_mkConst rfl) false
  · cases he
    exact (hl.ordinal (.inr rfl) hr).unary .not
  · cases he
    exact hl.ordinal (.inr rfl) hr

/-! ## Promotion -/

/-- Two different types meet in a plain type, or one is the other with null. -/
theorem meet?_eq_some {a b t : HostType} (hne : a ≠ b) (h : meet? a b = some t) :
    (t.isPlain = true ∧ a.nonNullable.isValueType = true ∧ b.nonNullable.isValueType = true) ∨
      (t.isNullableValueType = false ∧ a.nonNullable = t ∧ b.nonNullable = t ∧
        (a.isNullableValueType || b.isNullableValueType) = true) := by
  unfold meet? at h
  split_ifs at h with hnumeric hsame
  · cases h
    rw [Bool.and_eq_true] at hnumeric
    refine .inl ⟨?_, HostType.isValueType_of_isNumeric hnumeric.1,
      HostType.isValueType_of_isNumeric hnumeric.2⟩
    unfold wider
    split <;> rfl
  · cases h
    refine .inr ?_
    cases ha : a.isNullableValueType with
    | true =>
      cases hb : b.isNullableValueType with
      | true =>
        refine absurd ?_ hne
        rw [HostType.eq_nullable ha, HostType.eq_nullable hb, hsame]
      | false =>
        rw [HostType.nonNullable_eq_self hb] at hsame
        exact ⟨hsame ▸ hb, rfl, (HostType.nonNullable_eq_self hb).trans hsame.symm, rfl⟩
    | false =>
      rw [HostType.nonNullable_eq_self ha] at hsame ⊢
      cases hb : b.isNullableValueType with
      | true => exact ⟨ha, rfl, hsame.symm, rfl⟩
      | false =>
        rw [HostType.nonNullable_eq_self hb] at hsame
        exact absurd hsame hne
  · split at h
    next ha hb =>
      cases h
      exact .inl ⟨rfl, by rw [ha]; rfl, by rw [hb]; rfl⟩
    next ha hb =>
      cases h
      exact .inl ⟨rfl, by rw [ha]; rfl, by rw [hb]; rfl⟩
    next => cases h

/-- A type with null is brought to one with null. -/
theorem promoted_safe [External] {t : HostType} {nullable : Bool} (h : e.Safe s V)
    (hnullable : e.type.isNullableValueType = true → nullable = true)
    (ht : (t.isPlain = true ∧ e.type.nonNullable.isValueType = true) ∨
      (t.isNullableValueType = false ∧ e.type.nonNullable = t ∧ nullable = true)) :
    (e.convertTo (if nullable then t.toNullable else t)).Safe s V := by
  refine h.convertTo ?_
  rcases ht with ⟨hplain, hvalue⟩ | ⟨ht, hsame, rfl⟩
  · refine h.convert_plain ?_ fun hnull => ?_
    · split_ifs
      · rwa [HostType.isPlain_toNullable]
      · exact hplain
    · -- a value type has null only if it is made nullable
      rw [if_pos]
      · exact t.isNullable_toNullable
      · exact hnullable (HostType.isNullableValueType_of_isValueType hnull hvalue)
  · refine h.convert_same ?_ fun _ => t.isNullable_toNullable
    rw [if_pos rfl, HostType.nonNullable_toNullable, HostType.nonNullable_eq_self ht, hsame]

theorem promote_safe [External] (hl : l.Safe s V) (hr : r.Safe s V) (he : promote l r = .ok (l', r')) :
    l'.Safe s V ∧ r'.Safe s V ∧ l'.type = r'.type := by
  unfold promote at he
  split_ifs at he with htype hobject
  · cases he
    exact ⟨hl, hr, htype⟩
  · cases he
    rw [Expr.type_convertTo, Expr.type_convertTo]
    exact ⟨hl.convertTo (hl.convert_plain rfl fun _ => rfl),
      hr.convertTo (hr.convert_plain rfl fun _ => rfl), rfl⟩
  · split at he
    next => cases he
    next t ht =>
      cases he
      rw [Expr.type_convertTo, Expr.type_convertTo]
      have hmeet := meet?_eq_some htype ht
      refine ⟨promoted_safe hl (fun h => ?_) ?_, promoted_safe hr (fun h => ?_) ?_, rfl⟩
      · rw [h, Bool.true_or]
      · exact hmeet.imp (fun h => ⟨h.1, h.2.1⟩) fun h => ⟨h.1, h.2.1, h.2.2.2⟩
      · rw [h, Bool.or_true]
      · exact hmeet.imp (fun h => ⟨h.1, h.2.2⟩) fun h => ⟨h.1, h.2.2.1, h.2.2.2⟩

end Bind

namespace Context

variable {ctx : Context} {e p : Expr}

/-- A predicate is a boolean without null, or one whose null is made false. -/
theorem normalizePredicate_eq_ok (h : ctx.normalizePredicate e = .ok p) :
    (e.type = .bool ∧ p = e) ∨
      (e.type = .object ∧ p = ctx.foldNull (.convert e HostType.bool.toNullable)) ∨
      (e.type.isBool = true ∧ p = ctx.foldNull e) := by
  unfold normalizePredicate at h
  split at h
  next htype =>
    cases h
    exact .inl ⟨htype, rfl⟩
  next htype =>
    cases h
    exact .inr (.inl ⟨htype, rfl⟩)
  next =>
    split_ifs at h with hbool
    cases h
    exact .inr (.inr ⟨hbool, rfl⟩)

theorem type_foldNull (e : Expr) : (ctx.foldNull e).type = .bool := by
  unfold foldNull
  split_ifs <;> rfl

/-- Null made false. -/
theorem eval_foldNull [External] (hpropagation : ctx.settings.nullPropagation = true) (e : Expr) (env : Env) :
    (ctx.foldNull e).eval env = e.eval env >>= fun v => BinaryOp.equal.compareValues v (.bool true) false := by
  unfold foldNull
  rw [if_pos hpropagation, Expr.mkEqual, Expr.eval_mkBinary rfl]
  rfl

end Context

namespace Context.Guarding

variable [External] {ctx : Context} {s : Schema} {V : Env → Prop} {e l r l' r' : Expr} {op : BinaryOp}

theorem operation (hop : op.isLogical = false) (hl : l.Safe s V) (hr : r.Safe s V)
    (htype : l.type = r.type) : (ctx.operation op l r).Safe s V := by
  unfold Context.operation
  cases hcomparison : op.isComparison with
  | true => exact hl.comparison hcomparison hr _
  | false => exact hl.arithmetic hop hcomparison hr (fun h => .inl (htype ▸ h)) _

theorem promotedOperation (hop : op.isLogical = false) (hl : l.Safe s V) (hr : r.Safe s V)
    (he : (do let (l, r) ← Bind.promote l r; return ctx.operation op l r) = (.ok e : Outcome Expr)) :
    e.Safe s V := by
  obtain ⟨⟨a, b⟩, hpromote, he⟩ := Outcome.bind_eq_ok.mp he
  cases he
  obtain ⟨ha, hb, htype⟩ := Bind.promote_safe hl hr hpromote
  exact operation hop ha hb htype

theorem comparison (hop : op.isComparison = true) (hl : l.Safe s V) (hr : r.Safe s V)
    (he : ctx.comparison op l r = .ok e) : e.Safe s V := by
  have hlogical : op.isLogical = false := by cases op <;> first | rfl | cases hop
  unfold Context.comparison at he
  split at he
  next k hk =>
    obtain ⟨hlt, hrt⟩ := Bind.TimeKey.forTypes?_eq_some hk
    exact promotedOperation hlogical (k.project_safe hl hlt) (k.project_safe hr hrt) he
  next =>
    split at he
    next hordinal =>
      cases he
      exact Bind.ordinal?_safe hop hl hr hordinal
    next => exact promotedOperation hlogical hl hr he

/-- **An operator on two operands.** -/
theorem binary {op : QueryOp} (hop : op ≠ .has) (hl : l.Safe s V) (hr : r.Safe s V)
    (he : ctx.binary op l r = .ok e) : e.Safe s V := by
  unfold Context.binary at he
  split at he
  next hnone => cases op <;> first | exact absurd rfl hop | cases hnone
  next op _ =>
    obtain ⟨⟨a, b⟩, henums, he⟩ := Outcome.bind_eq_ok.mp he
    obtain ⟨ha, hb⟩ := Bind.unifyEnums_safe hl hr henums
    obtain ⟨ha, hb⟩ := Bind.unifyNulls_safe ha hb
    dsimp only at he
    split_ifs at he with hlogical hcomparison
    · exact Bind.logical_safe hlogical ha hb he
    · exact comparison hcomparison ha hb he
    · exact promotedOperation (by simpa using hlogical) ha hb he

/-- **A call of a function.** Arguments that may be null are guarded. -/
theorem call (h : ctx.Guarding V) {args : List Expr} (hargs : ∀ a ∈ args, a.Safe s V) (f : ScalarFunction) :
    (Bind.guardCall (args.filter ctx.needsGuard) (.mkScalar f args)).Safe s V := by
  refine Expr.Safe.guardCall (fun a ha => hargs a (List.mem_filter.mp ha).1) ?_
  refine Expr.Safe.scalar f (fun a ha => (hargs a ha).mono fun _ => And.left) fun env henv a ha => ?_
  cases hguard : ctx.needsGuard a with
  | true => exact henv.2 a (List.mem_filter.mpr ⟨ha, hguard⟩)
  | false => exact h.nonNullAt (hargs a ha) hguard henv.1

/-- A predicate that is never null. -/
theorem normalizePredicate (h : ctx.Guarding V) (hs : e.Safe s V)
    (he : ctx.normalizePredicate e = .ok l) : l.Safe s V := by
  have hfold {x : Expr} (hx : x.Safe s V) : (ctx.foldNull x).Safe s V := by
    unfold foldNull
    rw [if_pos h.propagation]
    exact hx.comparison rfl (Expr.safe_const (.plain rfl rfl)) false
  obtain ⟨-, rfl⟩ | ⟨-, rfl⟩ | ⟨-, rfl⟩ := normalizePredicate_eq_ok he
  · exact hs
  · exact hfold (hs.convert_plain rfl fun _ => rfl)
  · exact hfold hs

end Context.Guarding

namespace Bind

variable [External] {s : Schema} {V : Env → Prop} {e e' source : Expr}

theorem unaryOperation_safe {op : QueryUnaryOp} (h : e.Safe s V) (he : unaryOperation op e = .ok e') :
    e'.Safe s V := by
  unfold unaryOperation at he
  cases op with
  | not =>
    dsimp only at he
    split_ifs at he
    · cases he
      exact h.unary .not
    · cases he
      exact (h.convert_plain rfl fun _ => rfl).unary .not
  | negate =>
    dsimp only at he
    split_ifs at he
    cases he
    exact h.unary .negate

theorem coerce_safe {function : String} {k : ArgKind} (h : e.Safe s V)
    (he : coerce function e k = .ok e') : e'.Safe s V := by
  unfold coerce at he
  split_ifs at he
  · cases he
    exact Expr.safe_mkNull _
  · cases he
    exact h.convert_plain (by cases k <;> rfl) fun _ => by cases k <;> rfl
  · cases he
    exact h

theorem integralToDouble_safe (h : e.Safe s V) : (integralToDouble e).Safe s V := by
  unfold integralToDouble
  split_ifs with hint
  · exact convert_nullableLike_safe h (HostType.isValueType_of_isIntegral hint) _
  · exact h

end Bind

/-! ## Collections -/

theorem someItem_nullSafe {p : Value → Outcome Value} {items : List Value}
    (h : ∀ v ∈ items, (p v).NullSafe fun _ => True) : (someItem p items).NullSafe fun _ => True := by
  induction items with
  | nil => trivial
  | cons v rest ih =>
    refine (h v List.mem_cons_self).bind fun w _ => ?_
    split_ifs
    · trivial
    · exact ih fun u hu => h u (List.mem_cons_of_mem _ hu)

theorem everyItem_nullSafe {p : Value → Outcome Value} {items : List Value}
    (h : ∀ v ∈ items, (p v).NullSafe fun _ => True) : (everyItem p items).NullSafe fun _ => True := by
  induction items with
  | nil => trivial
  | cons v rest ih =>
    refine (h v List.mem_cons_self).bind fun w _ => ?_
    split_ifs
    · exact ih fun u hu => h u (List.mem_cons_of_mem _ hu)
    · trivial

namespace Expr

variable [External] {s : Schema} {V : Env → Prop} {source : Expr} {element : HostType}

section Items

variable (h : source.Safe s V) (ht : source.type = .collection element)
include h ht

/-- The items of a collection that is not null. -/
theorem items_nullSafe (m : Method) (rest : List Expr) {env : Env} (henv : source.NonNullIn V env) :
    (Operand.items m (operands (source :: rest) env)).NullSafe fun items =>
      ∀ v ∈ items, Conforms s element v := by
  obtain ⟨f, hf⟩ := operands_head source rest env
  rw [hf]
  refine (h env henv.1).self.bind fun v hv => ?_
  rw [ht] at hv
  obtain ⟨items, rfl, hitems⟩ := hv.1.collection_inv (henv.2 v hv.2)
  exact hitems

theorem Safe.anyItem : (mkCollection .any [source]).Safe s (source.NonNullIn V) := by
  intro env henv
  obtain ⟨f, hf⟩ := operands_head source [] env
  have hitems := items_nullSafe h ht (.collection .any) [] henv
  simp only [mkCollection, mkCall, eval, Method.apply, CollectionOperator.apply]
  refine hitems.bind fun items _ => ?_
  rw [hf]
  exact .plain rfl rfl

theorem Safe.count : (mkCollection .longCount [source]).Safe s (source.NonNullIn V) := by
  intro env henv
  obtain ⟨f, hf⟩ := operands_head source [] env
  have hitems := items_nullSafe h ht (.collection .longCount) [] henv
  simp only [mkCollection, mkCall, eval, Method.apply, CollectionOperator.apply, Operand.selected]
  refine (hitems.bind (R := fun _ => True) fun items _ => ?_).bind fun items _ => ?_
  · rw [hf]
    trivial
  · rw [Accumulator.run_count]
    exact .plain rfl rfl

variable {l : Lambda} (hbody : ∀ env v, V env → Conforms s element v →
  (l.body.eval ((l.param.id, v) :: env)).NullSafe fun _ => True)
include hbody

theorem Safe.anyWhere : (mkCollection .any [source, l.toExpr]).Safe s (source.NonNullIn V) := by
  intro env henv
  obtain ⟨f, hf⟩ := operands_head source [l.toExpr] env
  have hitems := items_nullSafe h ht (.collection .any) [l.toExpr] henv
  simp only [mkCollection, mkCall, eval, Method.apply, CollectionOperator.apply]
  refine hitems.bind fun items hconforms => ?_
  rw [hf]
  have hsome := someItem_nullSafe fun v hv => hbody env v henv.1 (hconforms v hv)
  exact hsome.bind fun b _ => .plain rfl rfl

theorem Safe.allWhere : (mkCollection .all [source, l.toExpr]).Safe s (source.NonNullIn V) := by
  intro env henv
  obtain ⟨f, hf⟩ := operands_head source [l.toExpr] env
  have hitems := items_nullSafe h ht (.collection .all) [l.toExpr] henv
  simp only [mkCollection, mkCall, eval, Method.apply, CollectionOperator.apply]
  refine hitems.bind fun items hconforms => ?_
  rw [hf]
  have hevery := everyItem_nullSafe fun v hv => hbody env v henv.1 (hconforms v hv)
  exact hevery.bind fun b _ => .plain rfl rfl

end Items

end Expr

end TypedQuery
