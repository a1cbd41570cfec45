import TypedQuery.Proofs.Guards
import TypedQuery.Proofs.TypedValues

/-!
# Operands brought together

Before an operator is applied, its operands are brought to one type: values of enumerations become numbers,
the literal null takes the type of the other side, dates and times of different types become keys, and of
two types the wider one is taken. Each of these steps gives an operand that has a value of its own type
wherever the operand had one, and that is null where that was. Widening never fails; a number that its
target does not hold does.

* `Expr.TypedAt`: a value of the static type in an environment, null or not, or one of some errors.
* `Bind.unifiedBy?`: the enumeration that makes numbers of both operands.
* **`Bind.unifyEnums_typed`**, **`Bind.TimeKey.project_typed`**, **`Bind.promote_typed`**: the steps.
-/

namespace TypedQuery

/-! ## Conversions of numbers -/

namespace Value

variable {v : Value} {target : HostType}

/-- What is neither null, nor a collection, nor of the type already is converted as its kind of value is. -/
theorem convert_of_not_isInstanceOf {t : HostType} (hnull : v.isNull = false) (hitems : ∀ items, v ≠ .collection items)
    (htarget : target.nonNullable = t) (hinstance : v.isInstanceOf t = false) :
    v.convert target = convertScalar v target := by
  rw [convert_of_not_collection hnull hitems, htarget, hinstance, if_neg Bool.false_ne_true]

/-- A time stamp converts to the instant that it is in the zone without offset. -/
theorem convert_dateTime (t : DateTime) (htarget : target.nonNullable = .dateTimeOffset) :
    (Value.dateTime t).convert target = .ok (.dateTimeOffset (.ofUtc t)) := by
  rw [convert_of_not_isInstanceOf rfl (by simp) htarget rfl]
  unfold convertScalar
  rw [htarget]

/-- A number converts to an integer of any width that holds it. -/
theorem convert_integral {n : Int} {w : IntWidth} (hv : v.asInt? = some n)
    (ht : target.nonNullable = .int w) :
    v.convert target = orFail (.overflow n (.int w)) ((SizedInt.ofInt? w n).map .int) := by
  cases v <;> first | (cases hv; done) | skip
  case int m =>
    cases hv
    rw [convert_of_not_collection rfl (by simp), ht]
    split_ifs with h
    · have hw : m.width = w := by simpa [isInstanceOf, HostType.nonNullable, hostType?] using h
      have hfits := m.fits
      rw [hw] at hfits
      rw [SizedInt.ofInt?, dif_pos hfits]
      subst hw
      rfl
    · unfold convertScalar
      rw [ht]
      rfl
  case enum typeName value =>
    cases hv
    rw [convert_of_not_isInstanceOf rfl (by simp) ht rfl]
    unfold convertScalar
    rw [ht]
    rfl

theorem convert_int {n : SizedInt} {w : IntWidth} (ht : target.nonNullable = .int w) (hn : w.Holds n.val) :
    (Value.int n).convert target = .ok (.int ⟨w, n.val, hn⟩) := by
  rw [convert_integral rfl ht, SizedInt.ofInt?, dif_pos hn]
  rfl

theorem exists_int_of_isInstanceOf {t : HostType} {w : IntWidth} (h : v.isInstanceOf t = true)
    (ht : t.nonNullable = .int w) : ∃ n, ∃ hn : w.Holds n, v = .int ⟨w, n, hn⟩ := by
  have hform := hasForm_of_isInstanceOf h
  rwa [ht] at hform

section Float

variable {x : Float} (hx : x.isNaN = false)
include hx

theorem ofFloat_single : ofFloat x .single = .ok (.single ⟨Number.narrow x, Number.isNaN_narrow hx⟩) := by
  simp only [ofFloat, HostType.nonNullable, Binary32.ofFloat32?, dif_pos (Number.isNaN_narrow hx),
    Option.map_some, orFail]

theorem ofFloat_double : ofFloat x .double = .ok (.double ⟨x, hx⟩) := by
  simp only [ofFloat, HostType.nonNullable, Binary64.ofFloat?, dif_pos hx, Option.map_some, orFail]

theorem ofFloat_decimal : ofFloat x .decimal = .ok (.decimal ⟨x, hx⟩) := by
  simp only [ofFloat, HostType.nonNullable, Binary64.ofFloat?, dif_pos hx, Option.map_some, orFail]

/-- A float that is a number is one of each floating-point type. -/
theorem ofFloat_number {t : HostType} (ht : t = .single ∨ t = .double ∨ t = .decimal) :
    ∃ w, ofFloat x t = .ok w ∧ w.isInstanceOf t = true := by
  rcases ht with rfl | rfl | rfl
  · exact ⟨_, ofFloat_single hx, rfl⟩
  · exact ⟨_, ofFloat_double hx, rfl⟩
  · exact ⟨_, ofFloat_decimal hx, rfl⟩

end Float

theorem asFloat?_of_isNumber (hv : v.isNumber = true) : ∃ x, v.asFloat? = some x ∧ x.isNaN = false := by
  cases v with
  | int n => exact ⟨_, rfl, Number.isNaN_ofInt n.val⟩
  | single x => exact ⟨_, rfl, Number.isNaN_widen x⟩
  | double x => exact ⟨_, rfl, x.notNaN⟩
  | decimal x => exact ⟨_, rfl, x.notNaN⟩
  | _ => cases hv

theorem convertScalar_float {x : Float} (hv : v.isNumber = true) (hx : v.asFloat? = some x)
    (ht : target.nonNullable = .single ∨ target.nonNullable = .double ∨ target.nonNullable = .decimal) :
    convertScalar v target = ofFloat x target.nonNullable := by
  unfold convertScalar
  cases v <;> first | (cases hv; done) | (cases hx; rcases ht with h | h | h <;> rw [h] <;> rfl)

/-- A number converts to every floating-point type. -/
theorem convert_float (hv : v.isNumber = true)
    (ht : target.nonNullable = .single ∨ target.nonNullable = .double ∨ target.nonNullable = .decimal) :
    ∃ w, v.convert target = .ok w ∧ w.isInstanceOf target = true := by
  have hkind : target.nonNullable.nonNullable = target.nonNullable := by
    rcases ht with h | h | h <;> rw [h] <;> rfl
  have hnull : v.isNull = false := by cases v <;> first | rfl | cases hv
  have hitems (items : List Value) : v ≠ .collection items := by
    rintro rfl
    cases hv
  rw [convert_of_not_collection hnull hitems]
  split_ifs with h
  · exact ⟨v, rfl, by rwa [← v.isInstanceOf_congr hkind]⟩
  · obtain ⟨x, hx, hnumber⟩ := asFloat?_of_isNumber hv
    obtain ⟨w, hw, hinstance⟩ := ofFloat_number hnumber ht
    exact ⟨w, (convertScalar_float hv hx ht).trans hw, by rwa [← w.isInstanceOf_congr hkind]⟩

end Value

namespace Bind

/-- The numeric type of a rank. -/
def ofRank : Nat → HostType
  | 0 => .int .int32
  | 1 => .int .int64
  | 2 => .single
  | 3 => .double
  | _ => .decimal

theorem wider_eq (a b : HostType) : wider a b = ofRank (max (numericRank a) (numericRank b)) := by
  unfold wider ofRank
  rfl

/-- The integers of a rank are held by the integer type of the rank. -/
theorem holds_ofRank {w u : IntWidth} {n : Int} {rank : Nat} (h : w.Holds n)
    (hrank : numericRank (.int w) ≤ rank) (hu : ofRank rank = .int u) : u.Holds n := by
  have hcases : (rank = 0 ∧ u = .int32) ∨ (rank = 1 ∧ u = .int64) := by
    match rank with
    | 0 => exact .inl ⟨rfl, by cases hu; rfl⟩
    | 1 => exact .inr ⟨rfl, by cases hu; rfl⟩
    | 2 | 3 | n + 4 => cases hu
  unfold IntWidth.Holds at h ⊢
  rcases hcases with ⟨rfl, rfl⟩ | ⟨rfl, rfl⟩ <;> cases w <;>
    first
      | (simp [numericRank] at hrank; done)
      | (simp only [IntWidth.least, IntWidth.greatest] at h ⊢; omega)

/-- What ranks with the integers is an integer. -/
theorem exists_int_of_rank {t : HostType} (ht : t.isNumeric = true) (h : numericRank t.nonNullable ≤ 1) :
    ∃ w, t.nonNullable = .int w := by
  rcases HostType.isNumeric_iff.mp ht with hu | hu | hu | hu
  · exact hu
  all_goals
    rw [hu] at h
    simp [numericRank] at h

end Bind

namespace Schema

variable {s : Schema} {t target : HostType} {v : Value}

/-- **A widening never fails.** -/
theorem convert_widening (h : s.admits t v = true) (ht : t.isNumeric = true) {rank : Nat}
    (hrank : Bind.numericRank t.nonNullable ≤ rank) (htarget : target.nonNullable = Bind.ofRank rank)
    (hnull : v.isNull = true → target.isNullable = true) :
    ∃ w, v.convert target = .ok w ∧ s.admits target w = true ∧ w.isNull = v.isNull := by
  cases hv : v.isNull with
  | true =>
    obtain rfl := Value.eq_null hv
    refine ⟨.null, ?_, hnull rfl, rfl⟩
    unfold Value.convert
    exact if_pos (hnull rfl)
  | false =>
    have hinstance := isInstanceOf_of_admits h hv
    have hnumber := Value.isNumber_of_isInstanceOf hinstance ht
    have number {w : Value} (hw : w.isInstanceOf target = true) (htype : target.isNumeric = true) :
        s.admits target w = true ∧ w.isNull = false := by
      have hnumber := Value.isNumber_of_isInstanceOf hw htype
      cases w <;> first | exact ⟨hw, rfl⟩ | cases hnumber
    have hnumeric : target.isNumeric = true := by
      rw [HostType.isNumeric_iff, htarget]
      unfold Bind.ofRank
      split <;> simp
    by_cases hfloat : target.nonNullable = .single ∨ target.nonNullable = .double ∨
        target.nonNullable = .decimal
    · obtain ⟨w, hw, hwt⟩ := Value.convert_float hnumber hfloat
      exact ⟨w, hw, number hwt hnumeric⟩
    · -- the target is an integer type, and so is the type that is widened
      obtain ⟨u, hu⟩ := (HostType.isNumeric_iff.mp hnumeric).resolve_right hfloat
      have hone : rank ≤ 1 := by
        rw [htarget] at hu
        match rank with
        | 0 | 1 => decide
        | 2 | 3 | n + 4 => cases hu
      obtain ⟨w, hw⟩ := Bind.exists_int_of_rank ht (Nat.le_trans hrank hone)
      rw [hw] at hrank
      obtain ⟨n, hn, rfl⟩ := Value.exists_int_of_isInstanceOf hinstance hw
      have hfits : u.Holds n := Bind.holds_ofRank hn hrank (htarget ▸ hu)
      refine ⟨_, Value.convert_int hu hfits, number ?_ hnumeric⟩
      simp [Value.isInstanceOf, hu, Value.hostType?]

end Schema

/-! ## Values in an environment -/

namespace Expr

variable [External]

/-- A value of the static type in an environment. -/
def HasValue (s : Schema) (env : Env) (e : Expr) (v : Value) : Prop :=
  e.eval env = .ok v ∧ s.admits e.type v = true

/-- In an environment, the expression has a value of its type, which is null or not as given, or it fails with
one of some errors. -/
def TypedAt (s : Schema) (E : Error → Prop) (env : Env) (null : Bool) (e : Expr) : Prop :=
  (e.eval env).Meets E fun v => s.admits e.type v = true ∧ v.isNull = null

variable {s : Schema} {E : Error → Prop} {env : Env} {null : Bool} {e x : Expr} {t : HostType} {v : Value}

theorem typedAt_of_eval (he : e.eval env = .ok v) (hv : s.admits e.type v = true) :
    e.TypedAt s E env v.isNull := by
  rw [TypedAt, he]
  exact ⟨hv, rfl⟩

theorem typedAt_const (hv : s.admits t v = true) : (Expr.const v t).TypedAt s E env v.isNull :=
  typedAt_of_eval rfl hv

theorem typedAt_mkNull (t : HostType) : (mkNull t).TypedAt s E env true :=
  typedAt_const (v := .null) t.isNullable_toNullable

/-- What has a value of its type and no error. -/
theorem TypedAt.exists_eval (h : e.TypedAt s (fun _ => False) env null) :
    ∃ v, e.eval env = .ok v ∧ v.isNull = null := by
  unfold TypedAt at h
  cases he : e.eval env with
  | error err =>
    rw [he] at h
    exact h.elim
  | ok v =>
    rw [he] at h
    exact ⟨v, rfl, h.2⟩

theorem TypedAt.of_isNullConst (h : e.TypedAt s E env null) (he : e.isNullConst = true) : null = true := by
  cases e with
  | const v t => cases v <;> first | exact h.2.symm | cases he
  | _ => cases he

theorem TypedAt.of_constValue? (h : e.TypedAt s E env null) (he : e.constValue? = some v) :
    v.isNull = null := by
  cases e <;> cases he <;> exact h.2

theorem TypedAt.convert (h : x.TypedAt s E env null)
    (hconvert : ∀ v, x.eval env = .ok v → s.admits x.type v = true → v.isNull = null →
      (v.convert t).Meets E fun w => s.admits t w = true ∧ w.isNull = null) :
    (Expr.convert x t).TypedAt s E env null :=
  (Outcome.Meets.self h).bind fun v hv => hconvert v hv.2 hv.1.1 hv.1.2

theorem TypedAt.convertTo (h : x.TypedAt s E env null) (hconvert : (Expr.convert x t).TypedAt s E env null) :
    (x.convertTo t).TypedAt s E env null := by
  unfold Expr.convertTo
  split_ifs
  · exact h
  · exact hconvert

theorem TypedAt.convert_same (h : x.TypedAt s E env null) (ht : x.type.nonNullable = t.nonNullable)
    (hnull : x.type.isNullable = true → t.isNullable = true) : (Expr.convert x t).TypedAt s E env null := by
  refine h.convert fun v _ hv hisNull => ?_
  obtain ⟨hconvert, hadmits⟩ := Schema.convert_of_admits hv ht fun h => hnull (Schema.isNullable_of_admits hv h)
  rw [hconvert]
  exact ⟨hadmits, hisNull⟩

end Expr

/-! ## Enumerations and the literal null -/

theorem HostType.nonNullable_nullableLike (t u : HostType) :
    (t.nullableLike u).nonNullable = t.nonNullable := by
  unfold nullableLike
  split_ifs
  · exact t.nonNullable_toNullable
  · rfl

namespace Bind

variable {s : Schema} {E : Error → Prop} {env : Env} {null : Bool} {e l r e' l' r' : Expr}

/-- The enumeration whose numbers two operands are compared by, if one of them is a value of one. -/
def unifiedBy? (l r : HostType) : Option EnumType := l.asEnum?.orElse fun _ => r.asEnum?

/-- Numbers are held by a width, or it is an error that is expected if they are not. -/
def Holds [External] (E : Error → Prop) (w : IntWidth) (env : Env) (e : Expr) : Prop :=
  ∀ v n, e.eval env = .ok v → v.asInt? = some n → w.Holds n ∨ E (.evaluation (.overflow n (.int w)))

theorem convert_integral_typed [External] {w : IntWidth} (h : e.TypedAt s E env null)
    (hfits : Holds E w env e) (hvalue : e.type.nonNullable.isValueType = true)
    (hint : ∀ v, s.admits e.type v = true → v.isNull = false → ∃ n, v.asInt? = some n) :
    (Expr.convert e (HostType.nullableLike (.int w) e.type)).TypedAt s E env null := by
  refine h.convert fun v he hv hnull => ?_
  subst hnull
  have htarget : (HostType.nullableLike (.int w) e.type).nonNullable = .int w :=
    HostType.nonNullable_nullableLike _ _
  cases hisNull : v.isNull with
  | true =>
    obtain rfl := Value.eq_null hisNull
    have hnullable := HostType.isNullable_nullableLike (.int w) hvalue hv
    unfold Value.convert
    rw [if_pos hnullable]
    exact ⟨hnullable, rfl⟩
  | false =>
    obtain ⟨n, hn⟩ := hint v hv hisNull
    rw [Value.convert_integral hn htarget]
    unfold SizedInt.ofInt?
    split_ifs with hw
    · refine ⟨?_, rfl⟩
      rw [Schema.admits_of_isPlain rfl]
      simp [Value.isInstanceOf, htarget, Value.hostType?]
    · exact (hfits v n he hn).resolve_left hw

/-- What stands for a value of an enumeration is a number. -/
theorem type_toUnderlying {enum : EnumType} {w : IntWidth} (hw : enum.underlying = .int w)
    (he : toUnderlying e enum = .ok e') : e'.type.nonNullable = .int w := by
  unfold toUnderlying at he
  dsimp only at he
  rw [hw] at he
  split_ifs at he
  · cases he
    rfl
  · cases he
    exact HostType.nonNullable_nullableLike (.int w) e.type
  · cases he
    rw [Expr.type_convertTo]
    exact HostType.nonNullable_nullableLike (.int w) e.type
  · obtain ⟨value, -, he⟩ := Outcome.bind_eq_ok.mp he
    obtain ⟨v, -, he⟩ := Outcome.bind_eq_ok.mp he
    cases he
    rfl

theorem toUnderlying_typed [External] {enum : EnumType} {w : IntWidth} (hw : enum.underlying = .int w)
    (h : e.TypedAt s E env null) (hfits : Holds E w env e) (he : toUnderlying e enum = .ok e') :
    e'.TypedAt s E env null := by
  unfold toUnderlying at he
  dsimp only at he
  rw [hw] at he
  split_ifs at he with hnull henum hint
  · cases he
    obtain rfl := h.of_isNullConst hnull
    exact Expr.typedAt_mkNull _
  · cases he
    refine convert_integral_typed h hfits (HostType.isValueType_of_asEnum? henum) fun v hv hnull => ?_
    have hform := Value.hasForm_of_isInstanceOf (Schema.isInstanceOf_of_admits hv hnull)
    unfold HostType.asEnum? at henum
    split at henum
    next heq =>
      rw [heq] at hform
      obtain ⟨n, rfl⟩ := hform
      exact ⟨_, rfl⟩
    next => cases henum
  · cases he
    refine h.convertTo ?_
    refine convert_integral_typed h hfits (HostType.isValueType_of_isIntegral hint) fun v hv hnull => ?_
    obtain ⟨u, hu⟩ := HostType.isIntegral_iff.mp hint
    obtain ⟨n, hn, rfl⟩ := Value.exists_int_of_isInstanceOf (Schema.isInstanceOf_of_admits hv hnull) hu
    exact ⟨_, rfl⟩
  · obtain ⟨value, hliteral, he⟩ := Outcome.bind_eq_ok.mp he
    obtain ⟨v, hv, he⟩ := Outcome.bind_eq_ok.mp he
    cases he
    have hrange := Value.ofInt_inRange value.toInt (t := .int w) rfl
    rw [hv] at hrange
    have hnumber := Value.isNumber_of_isInstanceOf hrange rfl
    have hadmits : s.admits (.int w) v = true ∧ v.isNull = false := by
      cases v <;> first | exact ⟨hrange, rfl⟩ | cases hnumber
    -- the operand is the literal text of a value, hence not null
    have hnull : null = false := by
      unfold enumLiteral at hliteral
      split at hliteral
      next hconst => exact (h.of_constValue? hconst).symm
      next => cases hliteral
    rw [hnull, ← hadmits.2]
    exact Expr.typedAt_const hadmits.1

/-- Either no operand is a value of an enumeration, or both become numbers of the one that is. -/
theorem unifyEnums_cases (he : unifyEnums l r = .ok (l', r')) :
    (unifiedBy? l.type r.type = none ∧ l' = l ∧ r' = r) ∨
      ∃ enum, unifiedBy? l.type r.type = some enum ∧ toUnderlying l enum = .ok l' ∧
        toUnderlying r enum = .ok r' := by
  unfold unifyEnums at he
  split at he
  next hnone =>
    cases he
    exact .inl ⟨hnone, rfl, rfl⟩
  next enum hsome =>
    obtain ⟨a, ha, he⟩ := Outcome.bind_eq_ok.mp he
    obtain ⟨b, hb, he⟩ := Outcome.bind_eq_ok.mp he
    cases he
    exact .inr ⟨enum, hsome, ha, hb⟩

section Both

variable [External] {nl nr : Bool} (hl : l.TypedAt s E env nl) (hr : r.TypedAt s E env nr)
include hl hr

/-- **Numbers for values of enumerations.** -/
theorem unifyEnums_typed
    (henum : ∀ enum, unifiedBy? l.type r.type = some enum →
      ∃ w, enum.underlying = .int w ∧ Holds E w env l ∧ Holds E w env r)
    (he : unifyEnums l r = .ok (l', r')) : l'.TypedAt s E env nl ∧ r'.TypedAt s E env nr := by
  rcases unifyEnums_cases he with ⟨-, rfl, rfl⟩ | ⟨enum, hunified, ha, hb⟩
  · exact ⟨hl, hr⟩
  · obtain ⟨w, hw, hfitsl, hfitsr⟩ := henum enum hunified
    exact ⟨toUnderlying_typed hw hl hfitsl ha, toUnderlying_typed hw hr hfitsr hb⟩

theorem unifyNulls_typed :
    (unifyNulls l r).1.TypedAt s E env nl ∧ (unifyNulls l r).2.TypedAt s E env nr := by
  unfold unifyNulls
  split
  next hnull _ =>
    obtain rfl := hl.of_isNullConst hnull
    exact ⟨Expr.typedAt_mkNull _, hr⟩
  next _ hnull =>
    obtain rfl := hr.of_isNullConst hnull
    exact ⟨hl, Expr.typedAt_mkNull _⟩
  next => exact ⟨hl, hr⟩

end Both

/-! ## Dates and times of different types -/

namespace TimeKey

theorem eval_key_of_error [External] (k : TimeKey) {err : Error} (h : e.eval env = .error err) :
    (k.key e).eval env = .error err := by
  have hpart (f : ScalarFunction) : (Expr.mkScalar f [e]).eval env = .error err := by
    rw [Expr.eval_mkScalar, List.mapM_cons, h]
    rfl
  have hconvert (f : ScalarFunction) : (Expr.convert (.mkScalar f [e]) (.int .int64)).eval env = .error err := by
    rw [Expr.eval, hpart]
    rfl
  have hbinary {op : BinaryOp} (hop : op.isLogical = false) {l r : Expr} (hl : l.eval env = .error err) :
      (Expr.mkBinary op l r false).eval env = .error err := by
    rw [Expr.eval_mkBinary hop, hl]
    rfl
  cases k with
  | date => exact hbinary rfl (hbinary rfl (hbinary rfl (hpart .year)))
  | time => exact hbinary rfl (hbinary rfl (hbinary rfl (hbinary rfl (hconvert .hour))))

theorem type_key (k : TimeKey) (e : Expr) : (k.key e).type = k.type := by cases k <;> rfl

theorem type_project {k : TimeKey} (he : e.isNullConst = false) : (k.project e).type = k.type.nullableLike e.type := by
  unfold project HostType.nullableLike
  rw [he, if_neg Bool.false_ne_true]
  split_ifs
  · simp [Expr.mkCond, Expr.type, Expr.mkNull, Expr.isNullConst, HostType.toNullable_toNullable]
  · exact k.type_key e

theorem isNullConst_project {k : TimeKey} (he : e.isNullConst = false) : (k.project e).isNullConst = false := by
  unfold project
  rw [he, if_neg Bool.false_ne_true]
  split_ifs
  · rfl
  · cases k <;> rfl

theorem eval_project_of_error [External] (k : TimeKey) {err : Error} (he : e.isNullConst = false)
    (h : e.eval env = .error err) : (k.project e).eval env = .error err := by
  unfold project
  rw [he, if_neg Bool.false_ne_true]
  split_ifs
  · have htest := Expr.eval_isNull e e.type env
    rw [h] at htest
    exact Expr.eval_cond_of_error htest
  · exact eval_key_of_error k h

theorem eval_project_of_null [External] (k : TimeKey) (he : e.isNullConst = false)
    (ht : e.type.isNullableValueType = true)
    (h : e.eval env = .ok .null) : (k.project e).eval env = .ok .null := by
  have htest := Expr.eval_isNull e e.type env
  rw [h] at htest
  unfold project
  rw [he, if_neg Bool.false_ne_true, if_pos ht, Expr.mkCond, Expr.eval_cond_of_bool htest]
  rfl

/-- The key of what is not null is what is projected. -/
theorem eval_project_of_typed [External] (k : TimeKey) {v : Value} (hv : e.eval env = .ok v)
    (hnull : v.isNull = false)
    (hkey : (k.key e).TypedAt s E env false) : (k.project e).eval env = (k.key e).eval env := by
  unfold project
  rw [Expr.isNullConst_of_eval hv hnull, if_neg Bool.false_ne_true]
  split_ifs
  · have htest := Expr.eval_isNull e e.type env
    rw [hv, Outcome.ok_bind, hnull] at htest
    rw [Expr.mkCond, Expr.eval_cond_of_bool htest, if_neg Bool.false_ne_true, Expr.eval]
    rw [Expr.TypedAt, type_key] at hkey
    cases hn : (k.key e).eval env with
    | error err => rfl
    | ok n =>
      rw [hn] at hkey
      exact (Schema.convert_of_admits hkey.1 k.type.nonNullable_toNullable.symm fun _ =>
        k.type.isNullable_toNullable).1
  · rfl

theorem nonNullable_type (k : TimeKey) : k.type.nonNullable = k.type := by cases k <;> rfl

/-- **Keys for dates and times**, where an expression that is not null has a key. -/
theorem project_typed [External] (k : TimeKey) (h : e.TypedAt s E env null)
    (hkey : ∀ v, e.eval env = .ok v → s.admits e.type v = true → v.isNull = false →
      (k.key e).TypedAt s E env false)
    (ht : e.type.isNullableValueType = false → e.type.isValueType = true) :
    (k.project e).TypedAt s E env null ∧ (k.project e).type.nonNullable = k.type := by
  cases hconst : e.isNullConst with
  | true =>
    obtain rfl := h.of_isNullConst hconst
    unfold project
    rw [hconst, if_pos rfl]
    exact ⟨Expr.typedAt_mkNull _, k.type.nonNullable_toNullable.trans k.nonNullable_type⟩
  | false =>
    have htype := type_project (k := k) hconst
    have hnonNullable := HostType.nonNullable_nullableLike k.type e.type
    refine ⟨?_, by rw [htype, hnonNullable, k.nonNullable_type]⟩
    rw [Expr.TypedAt] at h
    cases he : e.eval env with
    | error err =>
      rw [he] at h
      rw [Expr.TypedAt, k.eval_project_of_error hconst he]
      exact h
    | ok v =>
      rw [he] at h
      obtain ⟨hv, rfl⟩ := h
      cases hnull : v.isNull with
      | true =>
        obtain rfl := Value.eq_null hnull
        have hlifted := HostType.isNullableValueType_of_isNullable hv ht
        rw [Expr.TypedAt, k.eval_project_of_null hconst hlifted he, htype, HostType.nullableLike, if_pos hlifted]
        exact ⟨k.type.isNullable_toNullable, rfl⟩
      | false =>
        have hkeyed := hkey v he hv hnull
        rw [Expr.TypedAt, k.eval_project_of_typed he hnull hkeyed, htype]
        rw [Expr.TypedAt, type_key] at hkeyed
        refine hkeyed.mono fun n hn => ⟨?_, hn.2⟩
        rw [← Schema.admits_congr hnonNullable.symm hn.2]
        exact hn.1

end TimeKey

/-! ## Promotion -/

/-- How two operands are brought to one type. -/
inductive Promotion (l r : Expr) : Expr × Expr → Prop
  | same (h : l.type = r.type) : Promotion l r (l, r)
  | object (h : l.type.isObject = true ∨ r.type.isObject = true) :
    Promotion l r (l.convertTo .object, r.convertTo .object)
  /-- The wider of two numeric types. -/
  | numeric {target : HostType} (hl : l.type.isNumeric = true) (hr : r.type.isNumeric = true)
    (ht : target.nonNullable = wider l.type.nonNullable r.type.nonNullable)
    (hnull : l.type.isNullable = true ∨ r.type.isNullable = true → target.isNullable = true) :
    Promotion l r (l.convertTo target, r.convertTo target)
  /-- One type, with null. -/
  | alike {target : HostType} (hl : l.type.nonNullable = target.nonNullable)
    (hr : r.type.nonNullable = target.nonNullable)
    (hnull : l.type.isNullable = true ∨ r.type.isNullable = true → target.isNullable = true) :
    Promotion l r (l.convertTo target, r.convertTo target)
  /-- A date with a time, and one with an offset. -/
  | instants {target : HostType}
    (h : (l.type.nonNullable = .dateTime ∧ r.type.nonNullable = .dateTimeOffset) ∨
      (l.type.nonNullable = .dateTimeOffset ∧ r.type.nonNullable = .dateTime))
    (ht : target.nonNullable = .dateTimeOffset)
    (hnull : l.type.isNullable = true ∨ r.type.isNullable = true → target.isNullable = true) :
    Promotion l r (l.convertTo target, r.convertTo target)

/-- The type that two operands are brought to has null if one of theirs has, as theirs are value types where it
has none of its own. -/
theorem isNullable_promoted {t : HostType}
    (hvalue : t.isNullable = false → l.type.nonNullable.isValueType = true ∧ r.type.nonNullable.isValueType = true)
    (hnull : l.type.isNullable = true ∨ r.type.isNullable = true) :
    (if l.type.isNullableValueType || r.type.isNullableValueType then t.toNullable else t).isNullable = true := by
  cases ht : t.isNullable with
  | true =>
    split_ifs
    · exact t.isNullable_toNullable
    · exact ht
  | false =>
    obtain ⟨hl, hr⟩ := hvalue ht
    rw [if_pos]
    · exact t.isNullable_toNullable
    · rw [Bool.or_eq_true]
      exact hnull.imp (HostType.isNullableValueType_of_isValueType · hl)
        (HostType.isNullableValueType_of_isValueType · hr)

theorem nonNullable_promoted {t : HostType} (hkind : t.nonNullable = t) (nullable : Bool) :
    (if nullable then t.toNullable else t).nonNullable = t := by
  split_ifs
  · rw [t.nonNullable_toNullable, hkind]
  · exact hkind

theorem promote_cases {p : Expr × Expr} (he : promote l r = .ok p) : Promotion l r p := by
  unfold promote at he
  split_ifs at he with htype hobject
  · cases he
    exact .same htype
  · cases he
    rw [Bool.or_eq_true] at hobject
    exact .object hobject
  · split at he
    next => cases he
    next t ht =>
      cases he
      have hmeet := meet?_eq_some htype ht
      unfold meet? at ht
      split_ifs at ht with hnumeric hsame
      · cases ht
        rw [Bool.and_eq_true] at hnumeric
        refine .numeric hnumeric.1 hnumeric.2 (nonNullable_promoted ?_ _) (isNullable_promoted fun _ => ?_)
        · rw [wider_eq]
          unfold ofRank
          split <;> rfl
        · exact ⟨HostType.isValueType_of_isNumeric hnumeric.1, HostType.isValueType_of_isNumeric hnumeric.2⟩
      · cases ht
        have hkind : l.type.nonNullable.nonNullable = l.type.nonNullable := by
          rcases hmeet with ⟨-, hvalue, -⟩ | ⟨hplain, -⟩
          · exact HostType.nonNullable_of_isValueType hvalue
          · exact HostType.nonNullable_eq_self hplain
        have htarget := nonNullable_promoted hkind (l.type.isNullableValueType || r.type.isNullableValueType)
        refine .alike htarget.symm (hsame.symm.trans htarget.symm) (isNullable_promoted fun hnull => ?_)
        have hvalue : l.type.nonNullable.isValueType = true := by simpa [HostType.isNullable] using hnull
        exact ⟨hvalue, hsame ▸ hvalue⟩
      · split at ht
        next hl hr =>
          cases ht
          exact .instants (.inl ⟨hl, hr⟩) (nonNullable_promoted rfl _)
            (isNullable_promoted fun _ => ⟨by rw [hl]; rfl, by rw [hr]; rfl⟩)
        next hl hr =>
          cases ht
          exact .instants (.inr ⟨hl, hr⟩) (nonNullable_promoted rfl _)
            (isNullable_promoted fun _ => ⟨by rw [hl]; rfl, by rw [hr]; rfl⟩)
        next => cases ht

theorem convert_object (v : Value) : v.convert .object = .ok v := by
  cases v with
  | null => rfl
  | collection => rfl
  | _ => exact Value.convert_of_not_collection rfl (by simp)

/-- An operand that is brought to a type that it converts to. -/
theorem convertTo_typed [External] {target : HostType} (h : e.TypedAt s E env null)
    (hconvert : ∀ v, s.admits e.type v = true →
      ∃ w, v.convert target = .ok w ∧ s.admits target w = true ∧ w.isNull = v.isNull) :
    (e.convertTo target).TypedAt s E env null := by
  refine h.convertTo (h.convert fun v _ hv hnull => ?_)
  obtain ⟨w, hw, hadmits, hisNull⟩ := hconvert v hv
  rw [hw]
  exact ⟨hadmits, hisNull.trans hnull⟩

theorem convert_instant {t target : HostType} {v : Value} (h : s.admits t v = true)
    (ht : t.nonNullable = .dateTime ∨ t.nonNullable = .dateTimeOffset)
    (htarget : target.nonNullable = .dateTimeOffset) (hnull : v.isNull = true → target.isNullable = true) :
    ∃ w, v.convert target = .ok w ∧ s.admits target w = true ∧ w.isNull = v.isNull := by
  rcases ht with ht | ht
  · cases hv : v.isNull with
    | true =>
      obtain rfl := Value.eq_null hv
      refine ⟨.null, ?_, hnull rfl, rfl⟩
      unfold Value.convert
      exact if_pos (hnull rfl)
    | false =>
      have hform := Value.hasForm_of_isInstanceOf (Schema.isInstanceOf_of_admits h hv)
      rw [ht] at hform
      obtain ⟨t, rfl⟩ := hform
      refine ⟨.dateTimeOffset (.ofUtc t), Value.convert_dateTime t htarget, ?_, rfl⟩
      rw [Schema.admits_of_isPlain rfl, Value.isInstanceOf_congr (u := .dateTimeOffset) _ htarget]
      rfl
  · obtain ⟨hconvert, hadmits⟩ := Schema.convert_of_admits h (ht.trans htarget.symm) hnull
    exact ⟨v, hconvert, hadmits, rfl⟩

/-- **Operands of one type.** -/
theorem promote_typed [External] {nl nr : Bool} {p : Expr × Expr} (hl : l.TypedAt s E env nl)
    (hr : r.TypedAt s E env nr) (he : promote l r = .ok p) :
    p.1.TypedAt s E env nl ∧ p.2.TypedAt s E env nr ∧ p.1.type = p.2.type := by
  cases promote_cases he with
  | same h => exact ⟨hl, hr, h⟩
  | object =>
    simp only [Expr.type_convertTo]
    exact ⟨convertTo_typed hl fun v _ => ⟨v, convert_object v, Schema.admits_object s rfl v, rfl⟩,
      convertTo_typed hr fun v _ => ⟨v, convert_object v, Schema.admits_object s rfl v, rfl⟩, trivial⟩
  | numeric hlt hrt ht hnull =>
    simp only [Expr.type_convertTo]
    rw [wider_eq] at ht
    refine ⟨convertTo_typed hl fun v hv => ?_, convertTo_typed hr fun v hv => ?_, trivial⟩
    · exact Schema.convert_widening hv hlt (Nat.le_max_left ..) ht fun h =>
        hnull (.inl (Schema.isNullable_of_admits hv h))
    · exact Schema.convert_widening hv hrt (Nat.le_max_right ..) ht fun h =>
        hnull (.inr (Schema.isNullable_of_admits hv h))
  | alike hlt hrt hnull =>
    simp only [Expr.type_convertTo]
    refine ⟨hl.convertTo (hl.convert_same hlt fun h => hnull (.inl h)),
      hr.convertTo (hr.convert_same hrt fun h => hnull (.inr h)), trivial⟩
  | instants h ht hnull =>
    simp only [Expr.type_convertTo]
    refine ⟨convertTo_typed hl fun v hv => ?_, convertTo_typed hr fun v hv => ?_, trivial⟩
    · exact convert_instant hv (h.imp And.left And.left) ht fun h =>
        hnull (.inl (Schema.isNullable_of_admits hv h))
    · exact convert_instant hv (h.symm.imp And.right And.right) ht fun h =>
        hnull (.inr (Schema.isNullable_of_admits hv h))

end Bind

/-! ## Operators -/

namespace Context

variable {ctx : Context} {l r e : Expr}

/-- A comparison is one of keys, of texts or byte sequences, or of operands of one type. -/
theorem comparison_cases {op : BinaryOp} (he : ctx.comparison op l r = .ok e) :
    (∃ k p, Bind.TimeKey.forTypes? l.type r.type = some k ∧
      Bind.promote (k.project l) (k.project r) = .ok p ∧ e = ctx.operation op p.1 p.2) ∨
    Bind.ordinal? op l r = some e ∨
    ∃ p, Bind.promote l r = .ok p ∧ e = ctx.operation op p.1 p.2 := by
  unfold comparison at he
  split at he
  next k hk =>
    obtain ⟨p, hp, he⟩ := Outcome.bind_eq_ok.mp he
    cases he
    exact .inl ⟨k, p, hk, hp, rfl⟩
  next =>
    split at he
    next hordinal =>
      cases he
      exact .inr (.inl hordinal)
    next =>
      obtain ⟨p, hp, he⟩ := Outcome.bind_eq_ok.mp he
      cases he
      exact .inr (.inr ⟨p, hp, rfl⟩)

/-- What an operator other than the test of flags is bound to. -/
theorem binary_cases {op : QueryOp} (hop : op ≠ .has) (he : ctx.binary op l r = .ok e) :
    ∃ bop l' r', op.binaryOp? = some bop ∧ Bind.unifyEnums l r = .ok (l', r') ∧
      ((bop.isLogical = true ∧
          Bind.logical bop (Bind.unifyNulls l' r').1 (Bind.unifyNulls l' r').2 = .ok e) ∨
        (bop.isComparison = true ∧
          ctx.comparison bop (Bind.unifyNulls l' r').1 (Bind.unifyNulls l' r').2 = .ok e) ∨
        (bop.isLogical = false ∧ bop.isComparison = false ∧
          ∃ p, Bind.promote (Bind.unifyNulls l' r').1 (Bind.unifyNulls l' r').2 = .ok p ∧
            e = ctx.operation bop p.1 p.2)) := by
  unfold binary at he
  split at he
  next hnone => cases op <;> first | (cases hnone; done) | exact absurd rfl hop
  next bop hbop =>
    obtain ⟨⟨l', r'⟩, hunify, he⟩ := Outcome.bind_eq_ok.mp he
    refine ⟨bop, l', r', hbop, hunify, ?_⟩
    dsimp only at he
    split_ifs at he with hlogical hcomparison
    · exact .inl ⟨hlogical, he⟩
    · exact .inr (.inl ⟨hcomparison, he⟩)
    · obtain ⟨p, hp, he⟩ := Outcome.bind_eq_ok.mp he
      cases he
      exact .inr (.inr ⟨by simpa using hlogical, by simpa using hcomparison, p, hp, rfl⟩)

end Context

end TypedQuery
