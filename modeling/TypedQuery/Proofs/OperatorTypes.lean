import TypedQuery.Proofs.Operands
import TypedQuery.Proofs.TruthTables

/-!
# Operators on values of their types

An operator of queries that is bound to two operands gives a value of its static type, or a result out of
range, wherever the operands have values of theirs, if the operator is one that the type of an operand has.
Binding does not ask for that: it takes any two operands of one type. Two spans are added and subtracted
by a calendar that stops the program where no span is the result.

* `HostType.isOrdered`, `QueryOp.supports`: the operators that a type has.
* `QueryOp.leavesCalendar`, `Context.binary_spans`: where the program stops.
* **`operators_are_type_safe`**: the operators on the values of such types.
-/

namespace TypedQuery

/-! ## The operators of a type -/

/-- Whether the values of a type have an order. -/
def HostType.isOrdered (t : HostType) : Bool :=
  match t.nonNullable with
  | .bool | .int _ | .single | .double | .decimal | .char | .string | .bytes | .guid | .date | .dateTime
  | .dateTimeOffset | .timeOfDay | .timeSpan | .enum .. => true
  | _ => false

/-- Whether an operator gives a result of a type for two values of the type. -/
def QueryOp.supports (op : QueryOp) (t : HostType) : Bool :=
  match op with
  | .gt | .ge | .lt | .le => t.isOrdered
  | .add | .sub => t.isNumeric || t.asEnum?.isSome || t.nonNullable = .timeSpan
  | .mul | .div | .mod => t.isNumeric || t.asEnum?.isSome
  | _ => true

theorem HostType.isObject_of_isNumeric {t : HostType} (ht : t.isNumeric = true) : t.isObject = false := by
  cases t <;> first | rfl | cases ht

namespace Schema

variable {s : Schema} {t : HostType} {v : Value}

theorem admits_bool (ht : t.isBool = true) (b : Bool) : s.admits t (.bool b) = true := by
  rw [admits_of_isPlain rfl, Value.isInstanceOf_congr (u := .bool) _ (of_decide_eq_true ht)]
  rfl

theorem exists_bool_of_admits (h : s.admits t v = true) (ht : t.isBool = true) (hnull : v.isNull = false) :
    ∃ b, v = .bool b := by
  have hform := Value.hasForm_of_isInstanceOf (isInstanceOf_of_admits h hnull)
  rwa [show t.nonNullable = .bool from of_decide_eq_true ht] at hform

theorem exists_span_of_admits (h : s.admits t v = true) (ht : t.nonNullable = .timeSpan) (hnull : v.isNull = false) :
    ∃ a, v = .timeSpan a := by
  have hform := Value.hasForm_of_isInstanceOf (isInstanceOf_of_admits h hnull)
  rwa [ht] at hform

theorem exists_truth_of_admits (h : s.admits t v = true) (ht : t.isBool = true) :
    ∃ τ : Truth, v = τ.toValue := by
  cases hnull : v.isNull with
  | true => exact ⟨.unknown, Value.eq_null hnull⟩
  | false =>
    obtain ⟨b, rfl⟩ := exists_bool_of_admits h ht hnull
    cases b
    · exact ⟨.false, rfl⟩
    · exact ⟨.true, rfl⟩

end Schema

namespace Value

variable {a b : Value} {t : HostType}

/-- Values of an ordered type compare. -/
theorem compare?_isSome (ha : a.isInstanceOf t = true) (hb : b.isInstanceOf t = true)
    (ht : t.isOrdered = true) : ∃ o, a.compare? b = some o := by
  have floats {x y : Float} (hx : x.isNaN = false) (hy : y.isNaN = false) :
      ∃ o, Number.compareFloat? x y = some o := by
    unfold Number.compareFloat?
    rw [hx, hy, if_neg (by decide)]
    exact ⟨_, rfl⟩
  unfold isInstanceOf at ha hb
  unfold HostType.isOrdered at ht
  revert ha hb ht
  generalize t.nonNullable = u
  intro ha hb ht
  cases u <;> first | (cases ht; done) | skip
  all_goals
    cases a <;> first | (simp [hostType?] at ha; done) | skip
    cases b <;> first | (simp [hostType?] at hb; done) | skip
  case single.single.single x y => exact floats (Number.isNaN_widen x) (Number.isNaN_widen y)
  case double.double.double x y => exact floats x.notNaN y.notNaN
  case decimal.decimal.decimal x y => exact floats x.notNaN y.notNaN
  all_goals exact ⟨_, rfl⟩

end Value

/-! ## Operators on values -/

namespace BinaryOp

variable {op : BinaryOp} {a b : Value} {t : HostType}

theorem isComparison_of_isRelational (hop : op.isRelational = true) : op.isComparison = true := by
  cases op <;> first | rfl | cases hop

theorem isLogical_of_isComparison (hop : op.isComparison = true) : op.isLogical = false := by
  cases op <;> first | rfl | cases hop

/-- Whether arithmetic with the operator stays in a type: numbers, and sums of spans. -/
def Computes (op : BinaryOp) (t : HostType) : Prop :=
  t.isNumeric = true ∨ (t.nonNullable = .timeSpan ∧ (op = .add ∨ op = .subtract))

theorem Computes.isPlain {v : Value} (ht : op.Computes t) (hv : v.isInstanceOf t = true) :
    v.isPlain = true := by
  rcases ht with ht | ⟨ht, -⟩
  · have hnumber := Value.isNumber_of_isInstanceOf hv ht
    cases v <;> first | rfl | cases hnumber
  · have hform := Value.hasForm_of_isInstanceOf hv
    rw [ht] at hform
    obtain ⟨span, rfl⟩ := hform
    rfl

theorem floats?_isSome (hlogical : op.isLogical = false) (hcomparison : op.isComparison = false)
    (x y : Float) : ∃ z, op.floats? x y = some z := by
  cases op <;> first | exact ⟨_, rfl⟩ | (cases hlogical; done) | cases hcomparison

theorem temporal?_of_isNumber (op : BinaryOp) (ha : a.isNumber = true) (b : Value) :
    op.temporal? a b = none := by
  cases a <;> first | (cases ha; done) | (cases op <;> rfl)

/-- How arithmetic on values of a type fails: a number is out of range, or the program stops as no span is as long as
the sum or the difference of two. -/
def FailsOn (t : HostType) (err : Error) : Prop :=
  err.isRangeError = true ∨ (err = .aborted ∧ t.nonNullable = .timeSpan)

theorem failsOn_of_inRange {P : Value → Prop} {o : Outcome Value} (h : o.InRange P) (t : HostType) :
    o.Meets (FailsOn t) P := h.weaken fun _ => .inl

/-- Arithmetic on two values of a type. -/
theorem arithmetic_meets (hlogical : op.isLogical = false) (hcomparison : op.isComparison = false)
    (ha : a.isInstanceOf t = true) (hb : b.isInstanceOf t = true) (ht : op.Computes t) :
    (op.arithmetic a b t.nonNullable).Meets (FailsOn t) fun v => v.isInstanceOf t = true := by
  unfold arithmetic
  rcases ht with ht | ⟨ht, hop⟩
  · have hnumeric : t.nonNullable.isNumeric = true ∧
        ∀ v : Value, v.isInstanceOf t.nonNullable = v.isInstanceOf t := by
      rcases HostType.isNumeric_iff.mp ht with ⟨w, h⟩ | h | h | h
      all_goals exact ⟨by rw [h]; rfl, fun v => v.isInstanceOf_congr (by rw [h]; rfl)⟩
    rw [temporal?_of_isNumber op (Value.isNumber_of_isInstanceOf ha ht)]
    dsimp only
    unfold numeric
    split
    next =>
      split
      next n _ => exact (failsOn_of_inRange (Value.ofInt_inRange n hnumeric.1) t).mono fun v hv => hnumeric.2 v ▸ hv
      next => exact .inl rfl
    next =>
      obtain ⟨x, hx, -⟩ := Value.asFloat?_of_isNumber (Value.isNumber_of_isInstanceOf ha ht)
      obtain ⟨y, hy, -⟩ := Value.asFloat?_of_isNumber (Value.isNumber_of_isInstanceOf hb ht)
      obtain ⟨z, hz⟩ := floats?_isSome hlogical hcomparison x y
      simp only [hx, hy, hz, hnumeric.1, if_true]
      split_ifs
      · exact .inl rfl
      · exact (failsOn_of_inRange (Value.ofFloat_inRange z hnumeric.1) t).mono fun v hv => hnumeric.2 v ▸ hv
  · have hforma := Value.hasForm_of_isInstanceOf ha
    have hformb := Value.hasForm_of_isInstanceOf hb
    rw [ht] at hforma hformb
    obtain ⟨a, rfl⟩ := hforma
    obtain ⟨b, rfl⟩ := hformb
    rcases hop with rfl | rfl
    all_goals
      refine .orAbort (.inr ⟨rfl, ht⟩) fun v hv => ?_
      obtain ⟨span, -, rfl⟩ := Option.map_eq_some_iff.mp hv
      rw [Value.isInstanceOf_congr (u := .timeSpan) _ ht]
      rfl

end BinaryOp

namespace Expr

variable [External] {s : Schema} {E : Error → Prop} {env : Env} {nl nr : Bool} {op : BinaryOp} {l r : Expr}

/-- A comparison of two operands of one type, with an order if it asks for one. -/
theorem TypedAt.comparison (hop : op.isComparison = true) (hl : l.TypedAt s E env nl)
    (hr : r.TypedAt s E env nr) (htype : l.type = r.type)
    (hordered : op.isRelational = true → nl = false → nr = false → l.type.isOrdered = true)
    (lifted : Bool) : (mkBinary op l r lifted).TypedAt s E env (lifted && (nl || nr)) := by
  have hlogical := BinaryOp.isLogical_of_isComparison hop
  have hresult : (mkBinary op l r lifted).type = if lifted then HostType.bool.toNullable else .bool := by
    simp [mkBinary, Expr.type, binaryType, hop]
  have hbool (b : Bool) : s.admits (if lifted then HostType.bool.toNullable else .bool) (.bool b) = true := by
    cases lifted <;> rfl
  unfold TypedAt
  rw [eval_mkBinary hlogical, hresult]
  refine hl.bind fun a ha => hr.bind fun b hb => ?_
  obtain ⟨ha, rfl⟩ := ha
  obtain ⟨hb, rfl⟩ := hb
  simp only [BinaryOp.apply, hlogical, Bool.false_eq_true, if_false, hop, if_true, BinaryOp.compareValues]
  by_cases hnull : (a.isNull || b.isNull) = true
  · rw [if_pos hnull, hnull, Bool.and_true]
    cases lifted with
    | true => exact ⟨rfl, rfl⟩
    | false => cases op <;> exact ⟨rfl, rfl⟩
  · rw [if_neg hnull]
    have hnull : (a.isNull || b.isNull) = false := by simpa using hnull
    rw [hnull, Bool.and_false]
    rw [Bool.or_eq_false_iff] at hnull
    cases hrelational : op.isRelational with
    | false => cases op <;> first | exact ⟨hbool _, rfl⟩ | (cases hrelational; done) | cases hop
    | true =>
      have hinstance := Schema.isInstanceOf_of_admits hb hnull.2
      rw [← htype] at hinstance
      obtain ⟨o, ho⟩ := Value.compare?_isSome (Schema.isInstanceOf_of_admits ha hnull.1) hinstance
        (hordered hrelational hnull.1 hnull.2)
      cases op <;> first | (cases hrelational; done) | (rw [ho]; exact ⟨hbool _, rfl⟩)

section Arithmetic

variable (hlogical : op.isLogical = false) (hcomparison : op.isComparison = false)
include hlogical hcomparison

/-- Arithmetic on two operands of one type. Where an operand is null it is null. -/
theorem TypedAt.arithmetic_of (hl : l.TypedAt s E env nl) (hr : r.TypedAt s E env nr)
    (htype : l.type = r.type)
    (hvalue : nl = false → nr = false → op.Computes l.type ∧ ∀ err, BinaryOp.FailsOn l.type err → E err) :
    (mkBinary op l r false).TypedAt s E env (nl || nr) := by
  unfold TypedAt
  rw [eval_mkBinary hlogical]
  change Outcome.Meets E (fun v => s.admits (binaryType op l.type r.type false) v = true ∧ _) _
  refine hl.bind fun a ha => hr.bind fun b hb => ?_
  obtain ⟨ha, rfl⟩ := ha
  obtain ⟨hb, rfl⟩ := hb
  simp only [BinaryOp.apply, hlogical, hcomparison, Bool.false_eq_true, if_false]
  by_cases hnull : (a.isNull || b.isNull) = true
  · rw [if_pos hnull, hnull]
    refine ⟨(binaryType_arithmetic hlogical hcomparison l.type r.type false).1 (.inl ?_), rfl⟩
    rcases Bool.or_eq_true .. ▸ hnull with h | h
    · exact Schema.isNullable_of_admits ha h
    · rw [htype]
      exact Schema.isNullable_of_admits hb h
  · have hnull : (a.isNull || b.isNull) = false := by simpa using hnull
    rw [if_neg (by simp [hnull]), hnull]
    rw [Bool.or_eq_false_iff] at hnull
    obtain ⟨hcomputes, herrors⟩ := hvalue hnull.1 hnull.2
    have hkind : (binaryType op l.type r.type false).nonNullable = l.type.nonNullable := by
      have hsame : l.type.nonNullable.nonNullable = l.type.nonNullable := by
        rcases hcomputes with h | ⟨h, -⟩
        · exact HostType.nonNullable_of_isValueType (HostType.isValueType_of_isNumeric h)
        · rw [h]
          rfl
      simp only [binaryType, hlogical, hcomparison, Bool.false_eq_true, if_false]
      split_ifs
      · rw [HostType.nonNullable_toNullable, hsame]
      · rfl
    rw [hkind]
    have hinstance := Schema.isInstanceOf_of_admits hb hnull.2
    rw [← htype] at hinstance
    have hrange := BinaryOp.arithmetic_meets hlogical hcomparison
      (Schema.isInstanceOf_of_admits ha hnull.1) hinstance hcomputes
    refine (Outcome.Meets.weaken hrange herrors).mono fun v hv => ?_
    have hplain := hcomputes.isPlain hv
    rw [Schema.admits_of_isPlain hplain, v.isInstanceOf_congr hkind]
    exact ⟨hv, Value.isNull_of_isPlain hplain⟩

end Arithmetic

theorem eval_mkScalar_pair (f : ScalarFunction) (l r : Expr) (env : Env) :
    (mkScalar f [l, r]).eval env = l.eval env >>= fun a => r.eval env >>= fun b => f.apply [a, b] := by
  rw [eval_mkScalar]
  simp only [List.mapM_cons, List.mapM_nil]
  cases l.eval env with
  | error err => rfl
  | ok a => cases r.eval env <;> rfl

theorem eval_comparison (hop : op.isComparison = true) (l r : Expr) (lifted : Bool) (env : Env) :
    (mkBinary op l r lifted).eval env =
      l.eval env >>= fun a => r.eval env >>= fun b => op.compareValues a b lifted := by
  have hlogical := BinaryOp.isLogical_of_isComparison hop
  rw [eval_mkBinary hlogical]
  simp only [BinaryOp.apply, hlogical, Bool.false_eq_true, if_false, hop, if_true]

/-- Texts or byte sequences in an order. -/
theorem eval_ordinal (hop : op.isRelational = true) (l r : Expr) (env : Env) :
    (mkBinary op (mkScalar .compare [l, r]) (mkConst (.int32 0)) false).eval env =
      l.eval env >>= fun a => r.eval env >>= fun b =>
        orFail (.notApplicable .compare [a, b])
          ((a.compareNullFirst? b).map fun o => .bool (op.holds o)) := by
  have happly (a b : Value) : ScalarFunction.compare.apply [a, b] =
      orFail (.notApplicable .compare [a, b]) ((a.compareNullFirst? b).map orderValue) := by
    simp only [ScalarFunction.apply, ScalarFunction.text?, ScalarFunction.temporal?,
      ScalarFunction.comparison?, Option.orElse_eq_or, Option.none_or]
  rw [eval_comparison (BinaryOp.isComparison_of_isRelational hop), eval_mkScalar_pair]
  simp only [bind_assoc, happly]
  refine bind_congr fun a => bind_congr fun b => ?_
  cases a.compareNullFirst? b with
  | none => rfl
  | some o => cases op <;> first | (cases hop; done) | (cases o <;> rfl)

end Expr

/-! ## Texts, bytes and booleans -/

namespace Bind

variable {s : Schema} {E : Error → Prop} {env : Env} {nl nr : Bool} {op : BinaryOp}
  {e e' l r : Expr}

/-- The values of an order as a number. -/
theorem orderValue_typed (o : Ordering) :
    s.admits (.int .int32) (orderValue o) = true ∧ (orderValue o).isNull = false := by
  cases o <;> exact ⟨rfl, rfl⟩

/-- Two texts or two byte sequences. -/
def AreOrdinal (l r : Expr) : Prop :=
  (l.type = .string ∧ r.type = .string) ∨ (l.type = .bytes ∧ r.type = .bytes)

theorem areOrdinal_of_ordinal? (h : ordinal? op l r = some e) :
    AreOrdinal l r := by
  unfold ordinal? at h
  dsimp only at h
  simp only [AreOrdinal]
  split_ifs at h with hrelational hbytes
  · rw [Bool.and_eq_true] at hrelational
    simpa [HostType.isBytes, HostType.isString] using hrelational.2
  all_goals exact .inr (by simpa [HostType.isBytes] using hbytes)

/-- An order of texts or byte sequences goes through a function. -/
theorem ordinal?_relational (hop : op.isRelational = true) (l r : Expr) :
    ordinal? op l r =
      if (l.type.isString && r.type.isString || l.type.isBytes && r.type.isBytes) = true then
        some (.mkBinary op (.mkScalar .compare [l, r]) (.mkConst (.int32 0)) false)
      else none := by
  unfold ordinal?
  dsimp only
  rw [hop, Bool.true_and]
  split_ifs with hordinal hbytes
  · rfl
  · simp [hbytes] at hordinal
  · rfl

theorem compare_typed [External] (hl : l.TypedAt s E env nl) (hr : r.TypedAt s E env nr)
    (ht : AreOrdinal l r) : (Expr.mkScalar .compare [l, r]).TypedAt s E env false := by
  unfold Expr.TypedAt
  rw [Expr.eval_mkScalar_pair]
  refine hl.bind fun a ha => hr.bind fun b hb => ?_
  have hordered : l.type.isOrdered = true := by rcases ht with ⟨h, -⟩ | ⟨h, -⟩ <;> rw [h] <;> rfl
  have htype : l.type = r.type := by rcases ht with ⟨h, h'⟩ | ⟨h, h'⟩ <;> rw [h, h']
  have hcompare : ∃ o, a.compareNullFirst? b = some o := by
    unfold Value.compareNullFirst?
    split
    · exact ⟨_, rfl⟩
    · exact ⟨_, rfl⟩
    · exact ⟨_, rfl⟩
    · next hna hnb =>
      have hinstance := Schema.isInstanceOf_of_admits hb.1 hnb
      rw [← htype] at hinstance
      exact Value.compare?_isSome (Schema.isInstanceOf_of_admits ha.1 hna) hinstance hordered
  obtain ⟨o, ho⟩ := hcompare
  simp only [ScalarFunction.apply, ScalarFunction.text?, ScalarFunction.temporal?,
    ScalarFunction.comparison?, ho, Option.map_some, Option.orElse_eq_or, Option.none_or, orFail]
  exact orderValue_typed o

theorem bytesEqual_typed [External] (hl : l.TypedAt s E env nl) (hr : r.TypedAt s E env nr)
    (hlt : l.type = .bytes)
    (hrt : r.type = .bytes) : (Expr.mkScalar .bytesEqual [l, r]).TypedAt s E env false := by
  unfold Expr.TypedAt
  rw [Expr.eval_mkScalar_pair]
  refine hl.bind fun a ha => hr.bind fun b hb => ?_
  have bytes {v : Value} (hv : s.admits .bytes v = true) : v = .null ∨ ∃ bs, v = .bytes bs := by
    cases v <;> first | exact .inl rfl | exact .inr ⟨_, rfl⟩ | simp [Schema.admits, Value.isInstanceOf,
      HostType.nonNullable, Value.hostType?] at hv
  rcases bytes (hlt ▸ ha.1) with rfl | ⟨as, rfl⟩ <;> rcases bytes (hrt ▸ hb.1) with rfl | ⟨bs, rfl⟩
  all_goals exact ⟨rfl, rfl⟩

theorem not_typed [External] (h : e.TypedAt s E env nl) (ht : e.type.isBool = true) :
    (Expr.mkUnary .not e).TypedAt s E env nl := by
  refine h.bind fun v hv => ?_
  obtain ⟨hv, rfl⟩ := hv
  cases hnull : v.isNull with
  | true =>
    obtain rfl := Value.eq_null hnull
    exact ⟨hv, rfl⟩
  | false =>
    obtain ⟨b, rfl⟩ := Schema.exists_bool_of_admits hv ht hnull
    exact ⟨Schema.admits_bool ht _, rfl⟩

/-- A comparison of texts or byte sequences is a boolean. -/
theorem ordinal?_typed [External] (hop : op.isComparison = true) (hl : l.TypedAt s E env nl)
    (hr : r.TypedAt s E env nr) (he : ordinal? op l r = some e) : e.TypedAt s E env false := by
  unfold ordinal? at he
  dsimp only at he
  split_ifs at he with hrelational hbytes hne
  · cases he
    rw [Bool.and_eq_true] at hrelational
    have hordinal : AreOrdinal l r := by
      simpa [AreOrdinal, HostType.isBytes, HostType.isString] using hrelational.2
    exact (compare_typed hl hr hordinal).comparison hop (Expr.typedAt_const (v := .int32 0) rfl) rfl
      (fun _ _ _ => rfl) false
  · cases he
    have hbytes : l.type = .bytes ∧ r.type = .bytes := by simpa [HostType.isBytes] using hbytes
    exact not_typed (bytesEqual_typed hl hr hbytes.1 hbytes.2) rfl
  · cases he
    have hbytes : l.type = .bytes ∧ r.type = .bytes := by simpa [HostType.isBytes] using hbytes
    exact bytesEqual_typed hl hr hbytes.1 hbytes.2

theorem asBoolean_eq_ok (he : asBoolean e = .ok e') (ht : e.type.isObject = false) :
    e' = e ∧ e.type.isBool = true := by
  unfold asBoolean at he
  split_ifs at he with hbool hobject
  · cases he
    exact ⟨rfl, hbool⟩
  · rw [ht] at hobject
    cases hobject

/-- Logic on booleans that may be null. -/
theorem lifted_logical_typed [External] (hop : op.isLogical = true) (hl : l.TypedAt s E env nl)
    (hr : r.TypedAt s E env nr)
    (hlt : l.type = HostType.bool.toNullable) (hrt : r.type = HostType.bool.toNullable) :
    ((Expr.mkBinary op l r false).eval env).Meets E fun v => s.admits (Expr.mkBinary op l r false).type v = true := by
  have htype : Expr.binaryType op l.type r.type false = HostType.bool.toNullable := by
    rw [BinaryOp.binaryType_logical hop, hlt]
    rfl
  have hlong : (op.isLogical && !HostType.bool.toNullable.isNullableValueType) = false := by
    rw [hop]
    rfl
  simp only [Expr.mkBinary, htype, Expr.eval, hlong, Expr.type]
  refine hl.bind fun v hv => hr.bind fun w hw => ?_
  rw [hlt] at hv
  rw [hrt] at hw
  obtain ⟨τ, rfl⟩ := Schema.exists_truth_of_admits hv.1 rfl
  obtain ⟨σ, rfl⟩ := Schema.exists_truth_of_admits hw.1 rfl
  rw [op.apply_toValue hop]
  generalize op.combine τ σ = truth
  cases truth <;> exact rfl

/-- Logic on booleans without null, which stops at an operand that decides. -/
theorem plain_logical_typed [External] (hop : op.isLogical = true) (hl : l.TypedAt s E env nl)
    (hr : r.TypedAt s E env nr) (hlt : l.type = .bool) (hrt : r.type = .bool) :
    ((Expr.mkBinary op l r false).eval env).Meets E fun v => s.admits (Expr.mkBinary op l r false).type v = true := by
  have known {v : Value} (hv : s.admits .bool v = true) : ∃ b, v = .bool b := by
    cases v <;> first | exact ⟨_, rfl⟩ | cases hv
  have htype : (Expr.mkBinary op l r false).type = .bool := by
    change Expr.binaryType op l.type r.type false = .bool
    rw [BinaryOp.binaryType_logical hop, hlt, hrt]
    rfl
  rw [Expr.eval_logical hop (by rw [hlt]; rfl) (by rw [hrt]; rfl), htype]
  refine hl.bind fun v hv => ?_
  rw [hlt] at hv
  obtain ⟨x, rfl⟩ := known hv.1
  unfold BinaryOp.shortCircuit
  dsimp only
  split_ifs
  · exact rfl
  · refine hr.bind fun w hw => ?_
    rw [hrt] at hw
    obtain ⟨y, rfl⟩ := known hw.1
    exact rfl

/-- Logic on booleans, some of which may be null. -/
theorem logical_typed [External] (hop : op.isLogical = true) (hl : l.TypedAt s E env nl)
    (hr : r.TypedAt s E env nr)
    (hlt : l.type.isObject = false) (hrt : r.type.isObject = false) (he : logical op l r = .ok e) :
    (e.eval env).Meets E fun v => s.admits e.type v = true := by
  unfold logical at he
  obtain ⟨a, ha, hrest⟩ := Outcome.bind_eq_ok.mp he
  obtain ⟨b, hb, hmade⟩ := Outcome.bind_eq_ok.mp hrest
  obtain ⟨rfl, hlbool⟩ := asBoolean_eq_ok ha hlt
  obtain ⟨rfl, hrbool⟩ := asBoolean_eq_ok hb hrt
  have hnullable {x : Expr} {null : Bool} (hx : x.TypedAt s E env null) (ht : x.type.isBool = true) :
      (x.convertTo HostType.bool.toNullable).TypedAt s E env null :=
    hx.convertTo (hx.convert_same (of_decide_eq_true ht) fun _ => rfl)
  dsimp only at hmade
  split_ifs at hmade with hnull
  · cases hmade
    exact lifted_logical_typed hop (hnullable hl hlbool) (hnullable hr hrbool) (Expr.type_convertTo ..)
      (Expr.type_convertTo ..)
  · cases hmade
    simp only [Bool.not_eq_true, Bool.or_eq_false_iff] at hnull
    exact plain_logical_typed hop hl hr (type_of_isBool hlbool hnull.1) (type_of_isBool hrbool hnull.2)

end Bind

/-! ## Keys of dates and times -/

namespace Bind.TimeKey

variable {s : Schema} {E : Error → Prop} {env : Env} {e : Expr} {v : Value} {k : TimeKey}

/-- Whether a value has the parts of a key. -/
def Reads (k : TimeKey) (v : Value) : Prop :=
  match k with
  | .date => ∃ d, v.dayPart? = some d
  | .time => ∃ t, v.timeParts? = some t

/-- The values of types that have a key have its parts. -/
theorem reads_of_isInstanceOf {a b : HostType} (h : forTypes? a b = some k)
    (hv : v.isInstanceOf a.nonNullable = true ∨ v.isInstanceOf b.nonNullable = true) : k.Reads v := by
  have dated {t : HostType} (ht : t.isDateFamily = true) (hv : v.isInstanceOf t = true) : Reads .date v := by
    have hform := Value.hasForm_of_isInstanceOf hv
    unfold HostType.isDateFamily at ht
    generalize t.nonNullable = u at ht hform
    cases u <;> first | (cases ht; done) | skip
    all_goals
      obtain ⟨d, rfl⟩ := hform
      exact ⟨_, rfl⟩
  have timed {t : HostType} (ht : hasTime t = true) (hv : v.isInstanceOf t = true) : Reads .time v := by
    have ht : t.hasTimeOfDay = true := by
      unfold hasTime at ht
      rw [Bool.or_eq_true, Bool.or_eq_true, decide_eq_true_iff, decide_eq_true_iff] at ht
      rcases ht with (ht | rfl) | rfl
      · unfold HostType.isTimeFamily at ht
        unfold HostType.hasTimeOfDay
        split at ht <;> first | (cases ht; done) | (rename_i heq; rw [heq])
      · rfl
      · rfl
    have hform := Value.hasForm_of_isInstanceOf hv
    unfold HostType.hasTimeOfDay at ht
    generalize t.nonNullable = u at ht hform
    cases u <;> first | (cases ht; done) | skip
    all_goals
      obtain ⟨d, rfl⟩ := hform
      exact ⟨_, rfl⟩
  unfold forTypes? at h
  dsimp only at h
  split_ifs at h with _ hdate htime
  · cases h
    exact hv.elim (dated hdate.2.1) (dated hdate.2.2)
  · cases h
    exact hv.elim (timed htime.2.1) (timed htime.2.2)

theorem reads_of_forTypes? {a b : HostType} (h : forTypes? a b = some k) (hnull : v.isNull = false)
    (hv : s.admits a v = true ∨ s.admits b v = true) : k.Reads v := by
  have instanceOf {t : HostType} (ht : s.admits t v = true) : v.isInstanceOf t.nonNullable = true :=
    Value.isInstanceOf_nonNullable (Schema.isInstanceOf_of_admits ht hnull)
  exact reads_of_isInstanceOf h (hv.imp instanceOf instanceOf)

theorem apply_dateParts [External] {d : Day} (h : v.dayPart? = some d) :
    ScalarFunction.year.apply [v] = .ok (.int32 d.year) ∧
      ScalarFunction.month.apply [v] = .ok (.int32 d.month) ∧
      ScalarFunction.day.apply [v] = .ok (.int32 d.day) := by
  simp [ScalarFunction.apply, ScalarFunction.text?, ScalarFunction.temporal?, h, orFail]

theorem apply_timeParts [External] {t : TimeParts} (h : v.timeParts? = some t) :
    ScalarFunction.hour.apply [v] = .ok (.int32 t.hour) ∧
      ScalarFunction.minute.apply [v] = .ok (.int32 t.minute) ∧
      ScalarFunction.second.apply [v] = .ok (.int32 t.second) ∧
      ScalarFunction.millisecond.apply [v] = .ok (.int32 (t.nanos.tdiv 1000000)) := by
  simp [ScalarFunction.apply, ScalarFunction.text?, ScalarFunction.temporal?, h, orFail]

theorem eval_part [External] (f : ScalarFunction) (he : e.eval env = .ok v) :
    (Expr.mkScalar f [e]).eval env = f.apply [v] := by
  rw [Expr.eval_mkScalar, List.mapM_cons, he]
  rfl

/-- An expression with an integer that is not null. -/
def IntAt [External] (s : Schema) (E : Error → Prop) (env : Env) (w : IntWidth) (e : Expr) : Prop :=
  e.TypedAt s E env false ∧ e.type = .int w

section InRange

variable [External] (hE : ∀ err : Error, err.isRangeError = true → E err)
include hE

theorem IntAt.arithmetic {op : BinaryOp} (hlogical : op.isLogical = false)
    (hcomparison : op.isComparison = false) {w : IntWidth} {l r : Expr} (hl : IntAt s E env w l)
    (hr : IntAt s E env w r) : IntAt s E env w (.mkBinary op l r false) := by
  refine ⟨hl.1.arithmetic_of hlogical hcomparison hr.1 (hl.2.trans hr.2.symm) fun _ _ => ⟨.inl ?_, ?_⟩, ?_⟩
  · rw [hl.2]
    rfl
  · rintro err (herr | ⟨-, hspan⟩)
    · exact hE err herr
    · rw [hl.2] at hspan
      cases hspan
  · simp [Expr.mkBinary, Expr.type, Expr.binaryType, hlogical, hcomparison, hl.2, hr.2,
      HostType.isNullableValueType]

/-- The key of a value that has its parts is a number, if it is in range. -/
theorem key_inRange (he : e.eval env = .ok v) (hv : k.Reads v) : (k.key e).TypedAt s E env false := by
  have part {f : ScalarFunction} {n : Int} (hf : f.resultType [e] = .int .int32)
      (hpart : f.apply [v] = .ok (.int32 n)) : IntAt s E env .int32 (.mkScalar f [e]) := by
    refine ⟨?_, hf⟩
    rw [Expr.TypedAt, eval_part f he, hpart]
    change s.admits (f.resultType [e]) _ = true ∧ _
    rw [hf]
    exact ⟨rfl, rfl⟩
  have scaled {f : ScalarFunction} (scale : Int) (hf : IntAt s E env .int32 (.mkScalar f [e])) :
      IntAt s E env .int32 (datePart e f scale) :=
    hf.arithmetic hE rfl rfl ⟨Expr.typedAt_const (v := .int32 scale) rfl, rfl⟩
  have ticks {f : ScalarFunction} (scale : Int) (hf : IntAt s E env .int32 (.mkScalar f [e])) :
      IntAt s E env .int64 (timePart e f scale) := by
    refine IntAt.arithmetic hE rfl rfl ⟨hf.1.convert fun w _ hw hnull => ?_, rfl⟩
      ⟨Expr.typedAt_const (v := .int64 scale) rfl, rfl⟩
    rw [hf.2] at hw
    have hrank : numericRank (.int .int32) ≤ 1 := by decide
    have htarget : (HostType.int .int64).nonNullable = ofRank 1 := rfl
    obtain ⟨u, hu, hadmits, hisNull⟩ := Schema.convert_widening hw rfl hrank htarget fun h => by
      rw [hnull] at h
      cases h
    rw [hu]
    exact ⟨hadmits, hisNull.trans hnull⟩
  cases k with
  | date =>
    obtain ⟨d, hd⟩ := hv
    obtain ⟨hyear, hmonth, hday⟩ := apply_dateParts hd
    exact (((scaled _ (part rfl hyear)).arithmetic hE rfl rfl
      (scaled _ (part rfl hmonth))).arithmetic hE rfl rfl (part rfl hday)).1
  | time =>
    obtain ⟨t, ht⟩ := hv
    obtain ⟨hhour, hminute, hsecond, hmillisecond⟩ := apply_timeParts ht
    exact ((((ticks _ (part rfl hhour)).arithmetic hE rfl rfl
      (ticks _ (part rfl hminute))).arithmetic hE rfl rfl
        (ticks _ (part rfl hsecond))).arithmetic hE rfl rfl (ticks _ (part rfl hmillisecond))).1

end InRange

/-- The key of a value that has its parts is what is projected. -/
theorem eval_project [External] (hv : e.eval env = .ok v) (hnull : v.isNull = false) (hreads : k.Reads v) :
    (k.project e).eval env = (k.key e).eval env :=
  k.eval_project_of_typed (s := .empty) (E := fun _ => True) hv hnull (key_inRange (fun _ _ => trivial) hv hreads)

end Bind.TimeKey

/-! ## Operators -/

namespace BinaryOp

/-- Whether an operator gives a result for two values of a type. -/
structure Supports (op : BinaryOp) (t : HostType) : Prop where
  ordered : op.isRelational = true → t.isOrdered = true
  computes : op.isLogical = false → op.isComparison = false → op.Computes t

variable {op : BinaryOp} {t u : HostType}

theorem Supports.congr (h : op.Supports t) (htype : t.nonNullable = u.nonNullable) : op.Supports u := by
  refine ⟨fun hop => ?_, fun hlogical hcomparison => ?_⟩
  · have hordered := h.ordered hop
    unfold HostType.isOrdered at hordered ⊢
    rwa [← htype]
  · refine (h.computes hlogical hcomparison).imp (fun hnumeric => ?_) fun hspan => ?_
    · rw [HostType.isNumeric_iff] at hnumeric ⊢
      rwa [← htype]
    · rwa [← htype]

theorem supports_of_isNumeric (op : BinaryOp) (ht : t.isNumeric = true) : op.Supports t := by
  refine ⟨fun _ => ?_, fun _ _ => .inl ht⟩
  unfold HostType.isOrdered
  rcases HostType.isNumeric_iff.mp ht with ⟨w, h⟩ | h | h | h <;> rw [h]

/-- The operators of a type that is no enumeration. -/
theorem supports_of_queryOp {q : QueryOp} (hq : q.binaryOp? = some op) (h : q.supports t = true)
    (ht : t.asEnum? = none) : op.Supports t := by
  cases q <;> cases hq
  all_goals refine ⟨fun hop => ?_, fun hlogical hcomparison => ?_⟩
  all_goals first
    | (cases hop; done)
    | (cases hlogical; done)
    | (cases hcomparison; done)
    | exact h
    | skip
  all_goals simp [QueryOp.supports, ht] at h
  all_goals simp [Computes, h]

end BinaryOp

namespace Bind

variable {s : Schema} {E : Error → Prop} {env : Env} {op : BinaryOp} {l r l' r' : Expr}

/-- The type that two operands are brought to has the operators that the type of one of them has. -/
theorem Promotion.supports {p : Expr × Expr} (h : Promotion l r p) (hl : l.type.isObject = false)
    (hr : r.type.isObject = false) (hop : op.Supports l.type ∨ op.Supports r.type) :
    op.Supports p.1.type := by
  cases h with
  | same h => exact hop.elim id fun hop => h ▸ hop
  | object h =>
    rw [hl, hr] at h
    simp at h
  | numeric hlt hrt ht =>
    rw [Expr.type_convertTo]
    refine op.supports_of_isNumeric (HostType.isNumeric_iff.mpr ?_)
    rw [ht, wider_eq]
    unfold ofRank
    split <;> simp
  | alike hlt hrt =>
    rw [Expr.type_convertTo]
    exact hop.elim (·.congr hlt) (·.congr hrt)
  | instants h ht =>
    rw [Expr.type_convertTo]
    have instant {t : HostType} (ht : t.nonNullable = .dateTime ∨ t.nonNullable = .dateTimeOffset) :
        ¬ op.Computes t := by
      rintro (hnumeric | ⟨hspan, -⟩)
      · rw [HostType.isNumeric_iff] at hnumeric
        rcases ht with ht | ht <;> simp [ht] at hnumeric
      · rcases ht with ht | ht <;> simp [ht] at hspan
    refine ⟨fun _ => by unfold HostType.isOrdered; rw [ht], fun hlogical hcomparison => ?_⟩
    rcases hop with hop | hop
    · exact absurd (hop.computes hlogical hcomparison) (instant (h.imp And.left And.left))
    · exact absurd (hop.computes hlogical hcomparison) (instant (h.symm.imp And.right And.right))

/-- Operands are brought to spans only if they are spans. -/
theorem Promotion.timeSpans {p : Expr × Expr} (h : Promotion l r p) (hl : l.type.isObject = false)
    (hr : r.type.isObject = false) (ht : p.1.type.nonNullable = .timeSpan) :
    l.type.nonNullable = .timeSpan ∧ r.type.nonNullable = .timeSpan := by
  cases h with
  | same h => exact ⟨ht, h ▸ ht⟩
  | object h =>
    rw [hl, hr] at h
    simp at h
  | numeric _ _ htarget =>
    rw [Expr.type_convertTo, htarget, wider_eq] at ht
    unfold ofRank at ht
    split at ht <;> cases ht
  | alike hlt hrt =>
    rw [Expr.type_convertTo] at ht
    exact ⟨hlt.trans ht, hrt.trans ht⟩
  | instants _ htarget =>
    rw [Expr.type_convertTo, htarget] at ht
    cases ht

section Unified

variable (he : unifyEnums l r = .ok (l', r'))
  (henum : ∀ enum, unifiedBy? l.type r.type = some enum → ∃ w, enum.underlying = .int w)
include he henum

theorem unifyEnums_types : (l' = l ∧ r' = r ∧ l.type.asEnum? = none ∧ r.type.asEnum? = none) ∨
    (l'.type.isNumeric = true ∧ r'.type.isNumeric = true) := by
  rcases unifyEnums_cases he with ⟨hnone, rfl, rfl⟩ | ⟨enum, hunified, ha, hb⟩
  · rw [unifiedBy?, Option.orElse_eq_or, Option.or_eq_none_iff] at hnone
    exact .inl ⟨rfl, rfl, hnone⟩
  · obtain ⟨w, hw⟩ := henum enum hunified
    have number {e e' : Expr} (he : toUnderlying e enum = .ok e') : e'.type.isNumeric = true :=
      HostType.isNumeric_iff.mpr (.inl ⟨w, type_toUnderlying hw he⟩)
    exact .inr ⟨number ha, number hb⟩

theorem unifyEnums_isObject (hl : l.type.isObject = false) (hr : r.type.isObject = false) :
    l'.type.isObject = false ∧ r'.type.isObject = false := by
  rcases unifyEnums_types he henum with ⟨rfl, rfl, -⟩ | ⟨ha, hb⟩
  · exact ⟨hl, hr⟩
  · exact ⟨HostType.isObject_of_isNumeric ha, HostType.isObject_of_isNumeric hb⟩

/-- Operands that are spans are those that were given: values of enumerations become numbers. -/
theorem unifyEnums_timeSpan (hl : l'.type.nonNullable = .timeSpan) (hr : r'.type.nonNullable = .timeSpan) :
    l.type.nonNullable = .timeSpan ∧ r.type.nonNullable = .timeSpan := by
  rcases unifyEnums_types he henum with ⟨rfl, rfl, -⟩ | ⟨hnumeric, -⟩
  · exact ⟨hl, hr⟩
  · rw [HostType.isNumeric_iff, hl] at hnumeric
    simp at hnumeric

/-- Operands that are no values of enumerations any more have the operators that they had. -/
theorem unifyEnums_supports {q : QueryOp} (hq : q.binaryOp? = some op)
    (hsupports : q.supports l.type = true ∨ q.supports r.type = true) :
    op.Supports l'.type ∨ op.Supports r'.type := by
  rcases unifyEnums_types he henum with ⟨rfl, rfl, hla, hra⟩ | ⟨ha, -⟩
  · exact hsupports.imp (op.supports_of_queryOp hq · hla) (op.supports_of_queryOp hq · hra)
  · exact .inl (op.supports_of_isNumeric ha)

end Unified

theorem unifyNulls_eq_self [External] {nl nr : Bool} (hl : l.TypedAt s E env nl) (hr : r.TypedAt s E env nr)
    (hnl : nl = false) (hnr : nr = false) : unifyNulls l r = (l, r) := by
  have hconst {e : Expr} {null : Bool} (he : e.TypedAt s E env null) (hnull : null = false) :
      e.isNullConst = false := by
    by_contra h
    have := he.of_isNullConst (by simpa using h)
    simp [hnull] at this
  rw [unifyNulls, hconst hl hnl, hconst hr hnr]

/-- The literal null has no type of any value next to an operand that has none. -/
theorem unifyNulls_isObject (hl : l.type.isObject = false) (hr : r.type.isObject = false) :
    (unifyNulls l r).1.type.isObject = false ∧ (unifyNulls l r).2.type.isObject = false := by
  have hnull {t : HostType} (ht : t.isObject = false) : (Expr.mkNull t).type.isObject = false := by
    cases t <;> first | rfl | cases ht
  unfold unifyNulls
  split
  · exact ⟨hnull hr, hr⟩
  · exact ⟨hl, hnull hl⟩
  · exact ⟨hl, hr⟩

end Bind

namespace Context

variable [External] {ctx : Context} {s : Schema} {E : Error → Prop} {env : Env} {nl nr : Bool} {op : BinaryOp}
  {e l r : Expr}

section InRange

variable (hE : ∀ err : Error, err.isRangeError = true → E err) (hl : l.TypedAt s E env nl)
  (hr : r.TypedAt s E env nr)
include hE hl hr

/-- An operator on operands that are brought to one type. -/
theorem operation_typed {p : Expr × Expr} (hop : op.isLogical = false) (hp : Bind.promote l r = .ok p)
    (hsupports : nl = false → nr = false → (op.Supports l.type ∨ op.Supports r.type) ∧
      l.type.isObject = false ∧ r.type.isObject = false)
    (hspans : op.isComparison = false → nl = false → nr = false → l.type.nonNullable = .timeSpan →
      r.type.nonNullable = .timeSpan → E .aborted) :
    ((ctx.operation op p.1 p.2).eval env).Meets E fun v =>
      s.admits (ctx.operation op p.1 p.2).type v = true := by
  obtain ⟨hpl, hpr, htype⟩ := Bind.promote_typed hl hr hp
  have hresult (hnl : nl = false) (hnr : nr = false) : op.Supports p.1.type := by
    obtain ⟨hop, hlo, hro⟩ := hsupports hnl hnr
    exact (Bind.promote_cases hp).supports hlo hro hop
  unfold operation
  cases hcomparison : op.isComparison with
  | true =>
    exact (hpl.comparison hcomparison hpr htype (fun h hnl hnr => (hresult hnl hnr).ordered h) _).mono
      fun _ => And.left
  | false =>
    refine (hpl.arithmetic_of hop hcomparison hpr htype fun hnl hnr => ?_).mono fun _ => And.left
    refine ⟨(hresult hnl hnr).computes hop hcomparison, ?_⟩
    rintro err (herr | ⟨rfl, hspan⟩)
    · exact hE err herr
    · obtain ⟨-, hlo, hro⟩ := hsupports hnl hnr
      obtain ⟨hlt, hrt⟩ := (Bind.promote_cases hp).timeSpans hlo hro hspan
      exact hspans hcomparison hnl hnr hlt hrt

theorem comparison_typed (hop : op.isComparison = true) (he : ctx.comparison op l r = .ok e)
    (hsupports : nl = false → nr = false → (op.Supports l.type ∨ op.Supports r.type) ∧
      l.type.isObject = false ∧ r.type.isObject = false) :
    (e.eval env).Meets E fun v => s.admits e.type v = true := by
  have hlogical : op.isLogical = false := by cases op <;> first | rfl | cases hop
  rcases comparison_cases he with ⟨k, p, hk, hp, rfl⟩ | hordinal | ⟨p, hp, rfl⟩
  · obtain ⟨hlt, hrt⟩ := Bind.TimeKey.forTypes?_eq_some hk
    obtain ⟨hkl, hklt⟩ := k.project_typed hl (fun v hv hadmits hnull => k.key_inRange hE hv
      (Bind.TimeKey.reads_of_forTypes? hk hnull (.inl hadmits))) hlt
    obtain ⟨hkr, hkrt⟩ := k.project_typed hr (fun v hv hadmits hnull => k.key_inRange hE hv
      (Bind.TimeKey.reads_of_forTypes? hk hnull (.inr hadmits))) hrt
    have number {e : Expr} (he : e.type.nonNullable = k.type) : e.type.isNumeric = true := by
      refine HostType.isNumeric_iff.mpr (.inl ?_)
      rw [he]
      cases k <;> exact ⟨_, rfl⟩
    exact operation_typed hE hkl hkr hlogical hp (fun _ _ => ⟨.inl (op.supports_of_isNumeric (number hklt)),
      HostType.isObject_of_isNumeric (number hklt), HostType.isObject_of_isNumeric (number hkrt)⟩) (by simp [hop])
  · exact (Bind.ordinal?_typed hop hl hr hordinal).mono fun _ => And.left
  · exact operation_typed hE hl hr hlogical hp hsupports (by simp [hop])

end InRange

end Context

/-! ## Sums of spans -/

/-- Whether two values are spans of which no span is the sum or the difference. -/
def QueryOp.leavesCalendar (op : QueryOp) (v w : Value) : Bool :=
  match op, v, w with
  | .add, .timeSpan a, .timeSpan b => (Span.ofNanos? (a.nanos + b.nanos)).isNone
  | .sub, .timeSpan a, .timeSpan b => (Span.ofNanos? (a.nanos - b.nanos)).isNone
  | _, _, _ => false

/-- Arithmetic on two spans stops exactly where their sum or difference leaves the calendar. -/
theorem QueryOp.arithmetic_spans {op : QueryOp} {bop : BinaryOp} (hop : op.binaryOp? = some bop)
    (hlogical : bop.isLogical = false) (hcomparison : bop.isComparison = false) (a b : Span) :
    (bop.arithmetic (.timeSpan a) (.timeSpan b) .timeSpan = .error .aborted ↔
      op.leavesCalendar (.timeSpan a) (.timeSpan b) = true) := by
  have stops {o : Option Span} : orAbort (o.map Value.timeSpan) = .error .aborted ↔ o.isNone = true := by
    cases o <;> simp [orAbort]
  cases op <;> cases hop <;> first | (cases hlogical; done) | (cases hcomparison; done) | skip
  case add => exact stops
  case sub => exact stops
  all_goals simp [leavesCalendar, BinaryOp.arithmetic, BinaryOp.temporal?, BinaryOp.numeric, Value.asFloat?,
    Value.asInt?, EvalError.fail]

namespace Context

variable [External] {ctx : Context} {op : QueryOp} {bop : BinaryOp} {l r l' r' e : Expr} {s : Schema}
    {env : Env}
  {a b : Span} {p : Expr × Expr}

/-- A span keeps its value where its type is given null. -/
theorem eval_convertTo_span {t : HostType} (hl : l.eval env = .ok (.timeSpan a))
    (hlt : s.admits l.type (.timeSpan a) = true) (ht : l.type.nonNullable = t.nonNullable) :
    (l.convertTo t).eval env = .ok (.timeSpan a) := by
  have hself : l.type = t → (Value.timeSpan a).convert t = .ok (.timeSpan a) := fun h =>
    h ▸ (Schema.convert_of_admits hlt rfl nofun).1
  rw [Expr.eval_convertTo_of_eval hl hself, (Schema.convert_of_admits hlt ht nofun).1]

omit [External] in
/-- A type that admits a span is that of no enumeration. -/
theorem asEnum?_of_admits_span {t : HostType} (ha : s.admits t (.timeSpan a) = true) : t.asEnum? = none := by
  have hinstance := Schema.isInstanceOf_of_admits ha rfl
  have hform := Value.hasForm_of_isInstanceOf hinstance
  unfold HostType.asEnum?
  split
  next henum =>
    rw [henum] at hform
    obtain ⟨_, hform⟩ := hform
    cases hform
  next => rfl

/-- **Spans are added and subtracted as they are.** -/
theorem operation_spans (hlogical : bop.isLogical = false) (hcomparison : bop.isComparison = false)
    (hp : Bind.promote l r = .ok p) (hlo : l.type.isObject = false) (hro : r.type.isObject = false)
    (hl : l.eval env = .ok (.timeSpan a)) (hr : r.eval env = .ok (.timeSpan b))
    (hlt : s.admits l.type (.timeSpan a) = true) (hrt : s.admits r.type (.timeSpan b) = true)
    (hkind : l.type.nonNullable = .timeSpan ∨ r.type.nonNullable = .timeSpan) :
    (ctx.operation bop p.1 p.2).eval env = bop.arithmetic (.timeSpan a) (.timeSpan b) .timeSpan := by
  have hform := Value.hasForm_of_isInstanceOf (Schema.isInstanceOf_of_admits hlt rfl)
  obtain ⟨hpl, hpr, hkind⟩ : p.1.eval env = .ok (.timeSpan a) ∧ p.2.eval env = .ok (.timeSpan b) ∧
      p.1.type.nonNullable = .timeSpan := by
    cases Bind.promote_cases hp with
    | same h => exact ⟨hl, hr, hkind.elim id fun hkind => h ▸ hkind⟩
    | object h =>
      rw [hlo, hro] at h
      simp at h
    | numeric hnumeric =>
      cases Value.isNumber_of_isInstanceOf (Schema.isInstanceOf_of_admits hlt rfl) hnumeric
    | alike hl' hr' =>
      refine ⟨eval_convertTo_span hl hlt hl', eval_convertTo_span hr hrt hr', ?_⟩
      rw [Expr.type_convertTo]
      exact hkind.elim hl'.symm.trans hr'.symm.trans
    | instants h =>
      rcases h with ⟨h, -⟩ | ⟨h, -⟩ <;> rw [h] at hform <;> cases hform.choose_spec
  have hresult (lifted : Bool) :
      (Expr.binaryType bop p.1.type p.2.type lifted).nonNullable = .timeSpan := by
    simp only [Expr.binaryType, hlogical, hcomparison, Bool.false_eq_true, if_false]
    split_ifs
    · rw [HostType.nonNullable_toNullable, hkind]
      rfl
    · exact hkind
  rw [operation, Expr.eval_mkBinary hlogical, hpl, hpr, Outcome.ok_bind, Outcome.ok_bind, BinaryOp.apply, hlogical,
    hcomparison, if_neg Bool.false_ne_true, if_neg Bool.false_ne_true, hresult]
  rfl

omit [External] in
/-- A type that has an operator and admits a span is that of spans. -/
theorem timeSpan_of_supports {t : HostType} (hlogical : bop.isLogical = false) (hcomparison : bop.isComparison = false)
    (hop : op.binaryOp? = some bop) (ht : op.supports t = true) (ha : s.admits t (.timeSpan a) = true) :
    t.nonNullable = .timeSpan ∧ t.asEnum? = none := by
  have hinstance := Schema.isInstanceOf_of_admits ha rfl
  have hnumeric : t.isNumeric = false := by
    by_contra h
    cases Value.isNumber_of_isInstanceOf hinstance (by simpa using h)
  have henum : t.asEnum? = none := asEnum?_of_admits_span ha
  refine ⟨?_, henum⟩
  cases op <;> cases hop <;> first | (cases hlogical; done) | (cases hcomparison; done) | skip
  case add => simpa [QueryOp.supports, hnumeric, henum] using ht
  case sub => simpa [QueryOp.supports, hnumeric, henum] using ht
  all_goals simp [QueryOp.supports, hnumeric, henum] at ht

/-- **Arithmetic on two spans** stops exactly where their sum or difference leaves the calendar. -/
theorem binary_spans (hop : op.binaryOp? = some bop) (hlogical : bop.isLogical = false)
    (hcomparison : bop.isComparison = false) (hl : l.type.isObject = false) (hr : r.type.isObject = false)
    (hsupports : op.supports l.type = true ∨ op.supports r.type = true)
    (he : ctx.binary op l r = .ok e) (hv : l.eval env = .ok (.timeSpan a)) (hw : r.eval env = .ok (.timeSpan b))
    (hvt : s.admits l.type (.timeSpan a) = true) (hwt : s.admits r.type (.timeSpan b) = true) :
    e.eval env = .error .aborted ↔ op.leavesCalendar (.timeSpan a) (.timeSpan b) = true := by
  have henums : Bind.unifyEnums l r = .ok (l, r) := by
    simp [Bind.unifyEnums, asEnum?_of_admits_span hvt, asEnum?_of_admits_span hwt]
  have hnulls : Bind.unifyNulls l r = (l, r) :=
    Bind.unifyNulls_eq_self (E := fun _ => True) (Expr.typedAt_of_eval hv hvt) (Expr.typedAt_of_eval hw hwt) rfl rfl
  unfold binary at he
  rw [hop] at he
  simp only [henums, Outcome.ok_bind, hnulls, hlogical, hcomparison, Bool.false_eq_true, if_false] at he
  obtain ⟨p, hp, he⟩ := Outcome.bind_eq_ok.mp he
  cases he
  have hkinds := hsupports.imp (timeSpan_of_supports hlogical hcomparison hop · hvt)
    (timeSpan_of_supports hlogical hcomparison hop · hwt)
  rw [operation_spans hlogical hcomparison hp hl hr hv hw hvt hwt (hkinds.imp And.left And.left)]
  exact QueryOp.arithmetic_spans hop hlogical hcomparison a b

end Context

/-- **Operators are type safe** on the types that have them: whatever values of their types the operands have,
an operator that is bound to them gives a value of its static type, or a result out of range. Where the sum or the
difference of two spans is longer than any span, the program stops instead. -/
theorem operators_are_type_safe [External] {ctx : Context} {op : QueryOp} {l r e : Expr} {s : Schema}
    {env : Env}
    {v w : Value} (hop : op ≠ .has) (hl : l.type.isObject = false) (hr : r.type.isObject = false)
    (henum : ∀ enum, Bind.unifiedBy? l.type r.type = some enum → ∃ width, enum.underlying = .int width)
    (he : ctx.binary op l r = .ok e) (hv : l.eval env = .ok v) (hw : r.eval env = .ok w)
    (hvt : s.admits l.type v = true) (hwt : s.admits r.type w = true)
    (hsupports : v.isNull = false → w.isNull = false →
      op.supports l.type = true ∨ op.supports r.type = true) :
    if op.leavesCalendar v w = true then e.eval env = .error .aborted
    else (e.eval env).InRange fun u => s.admits e.type u = true := by
  split_ifs with hleaves
  · -- only sums and differences of spans leave the calendar
    unfold QueryOp.leavesCalendar at hleaves
    split at hleaves
    · have hadd : QueryOp.binaryOp? .add = some .add := rfl
      exact (Context.binary_spans hadd rfl rfl hl hr (hsupports rfl rfl) he hv hw hvt hwt).mpr hleaves
    · have hsub : QueryOp.binaryOp? .sub = some .subtract := rfl
      exact (Context.binary_spans hsub rfl rfl hl hr (hsupports rfl rfl) he hv hw hvt hwt).mpr hleaves
    · cases hleaves
  · obtain ⟨bop, a, b, hbop, hunify, hcases⟩ := Context.binary_cases hop he
    -- an operator may still stop the program, but only as arithmetic on spans, which `binary_spans` rules out here
    let E (err : Error) : Prop := err.isRangeError = true ∨
      (err = .aborted ∧ bop.isLogical = false ∧ bop.isComparison = false ∧ ∃ x y, v = .timeSpan x ∧ w = .timeSpan y)
    have hE (err : Error) (herr : err.isRangeError = true) : E err := .inl herr
    have hholds (width : IntWidth) (x : Expr) : Bind.Holds E width env x := fun _ _ _ _ => .inr (.inl rfl)
    obtain ⟨ha, hb⟩ := Bind.unifyEnums_typed (E := E) (Expr.typedAt_of_eval hv hvt) (Expr.typedAt_of_eval hw hwt)
      (fun enum hunified => (henum enum hunified).imp fun width h => ⟨h, hholds width l, hholds width r⟩) hunify
    obtain ⟨hna, hnb⟩ := Bind.unifyNulls_typed ha hb
    have hobject := Bind.unifyEnums_isObject hunify henum hl hr
    have hboth (hnl : v.isNull = false) (hnr : w.isNull = false) :
        (bop.Supports (Bind.unifyNulls a b).1.type ∨ bop.Supports (Bind.unifyNulls a b).2.type) ∧
          (Bind.unifyNulls a b).1.type.isObject = false ∧ (Bind.unifyNulls a b).2.type.isObject = false := by
      rw [Bind.unifyNulls_eq_self ha hb hnl hnr]
      exact ⟨Bind.unifyEnums_supports hunify henum hbop (hsupports hnl hnr), hobject⟩
    have hmeets : (e.eval env).Meets E fun u => s.admits e.type u = true := by
      rcases hcases with ⟨hlogical, he⟩ | ⟨hcomparison, he⟩ | ⟨hlogical, hcomparison, p, hp, rfl⟩
      · obtain ⟨hlo, hro⟩ := Bind.unifyNulls_isObject hobject.1 hobject.2
        exact Bind.logical_typed hlogical hna hnb hlo hro he
      · exact Context.comparison_typed hE hna hnb hcomparison he hboth
      · refine Context.operation_typed hE hna hnb hlogical hp hboth fun _ hnl hnr hlt hrt => ?_
        rw [Bind.unifyNulls_eq_self ha hb hnl hnr] at hlt hrt
        obtain ⟨hlt, hrt⟩ := Bind.unifyEnums_timeSpan hunify henum hlt hrt
        obtain ⟨x, rfl⟩ := Schema.exists_span_of_admits hvt hlt hnl
        obtain ⟨y, rfl⟩ := Schema.exists_span_of_admits hwt hrt hnr
        exact .inr ⟨rfl, hlogical, hcomparison, x, y, rfl, rfl⟩
    cases hresult : e.eval env with
    | ok u =>
      rw [hresult] at hmeets
      exact hmeets
    | error err =>
      rw [hresult] at hmeets
      obtain herr | ⟨rfl, hlogical, hcomparison, x, y, rfl, rfl⟩ := hmeets
      · exact herr
      · exact absurd ((Context.binary_spans hbop hlogical hcomparison hl hr (hsupports rfl rfl) he hv hw hvt hwt).mp
          hresult) hleaves

/-- A grade is kept as a small number. -/
def gradeType : HostType := .enum "Grade" (.int .byte) [("Good", 2)] false

/-- A context without records. -/
def plainContext : Context := .initial .empty {} .object

/-- A grade that may be null. -/
def goodGrade : Expr := .const (.enum "Grade" 2) gradeType.toNullable

/-- The sum of a grade that may be null and a number: what is too large for a grade is out of range. -/
theorem sums_of_grades_are_type_safe :
    ∃ e, plainContext.binary .add goodGrade (.mkConst (.int32 1000)) = .ok e ∧
      ((e.eval []).InRange fun u => Schema.empty.admits e.type u = true) ∧
      e.eval [] = .error (.evaluation (.overflow 1000 (.int .byte))) := by
  have henum (enum : EnumType) (h : Bind.unifiedBy? goodGrade.type (.int .int32) = some enum) :
      ∃ width, enum.underlying = .int width := by
    cases h
    exact ⟨.byte, rfl⟩
  obtain ⟨e, he⟩ : ∃ e, plainContext.binary .add goodGrade (.mkConst (.int32 1000)) = .ok e := ⟨_, rfl⟩
  refine ⟨e, he, operators_are_type_safe (by decide) rfl rfl henum he rfl rfl rfl rfl fun _ _ => .inl rfl, ?_⟩
  cases he
  rfl

/-- The start of a year. -/
def newYear : OffsetDateTime := .ofUtc ⟨⟨⟨2000, 1, 1⟩, by decide⟩, .midnight⟩

/-- The longest span. -/
def allTime : Span := ⟨longestSpan, by decide⟩

/-- Binding takes operators that a type does not have: texts are not added, and the difference of two instants
is a span, where the bound expression has the type of an instant. And a sum of spans may be longer than any span,
where the program stops. -/
theorem binding_takes_sums_of_texts :
    (∃ e, plainContext.binary .add (.mkConst (.string "a")) (.mkConst (.string "b")) = .ok e ∧
      e.eval [] = .error (.evaluation (.cannotApply .add (.string "a") (.string "b")))) ∧
    (∃ e v, plainContext.binary .sub (.mkConst (.dateTimeOffset newYear)) (.mkConst (.dateTimeOffset newYear))
        = .ok e ∧
      e.eval [] = .ok v ∧ e.type = .dateTimeOffset ∧ Schema.empty.admits .dateTimeOffset v = false) ∧
    ∃ e, plainContext.binary .add (.mkConst (.timeSpan allTime)) (.mkConst (.timeSpan allTime)) = .ok e ∧
      e.eval [] = .error .aborted :=
  ⟨⟨_, rfl, rfl⟩, ⟨_, _, rfl, rfl, rfl, rfl⟩, _, rfl, rfl⟩

end TypedQuery
