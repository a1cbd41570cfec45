import TypedQuery.Proofs.NullFree
import TypedQuery.Proofs.Rebinding
import TypedQuery.Proofs.ValueOrder

/-!
# Comparisons agree with each other

Equality and order go by different routes: numbers of enumerations, keys of dates and times, an order of texts
and byte sequences by way of a function, equality of byte sequences by way of another one, and common types. On
each of them inequality is the negation of equality, an order is the same with its operands in the other order,
and of two values that have an order, one comes first or they are equal.

* `BinaryOp.mirrored`: the comparison for operands in the other order.
* `Context.binary_negates`: inequality and equality.
* `Context.binary_mirrored`: orders turned round.
* `Context.binary_trichotomous`: an order and equality.
* **`comparisons_are_coherent`**: the same for nodes.
* `texts_for_bytes_are_not_equal`: texts where the types say byte sequences.
-/

namespace TypedQuery

/-! ## Comparisons of values -/

namespace BinaryOp

/-- The comparison that a comparison is with its operands in the other order. -/
def mirrored : BinaryOp → BinaryOp
  | .lessThan => .greaterThan
  | .lessThanOrEqual => .greaterThanOrEqual
  | .greaterThan => .lessThan
  | .greaterThanOrEqual => .lessThanOrEqual
  | op => op

variable {op : BinaryOp}

theorem isRelational_mirrored (op : BinaryOp) : op.mirrored.isRelational = op.isRelational := by
  cases op <;> rfl

theorem isComparison_mirrored (op : BinaryOp) : op.mirrored.isComparison = op.isComparison := by
  cases op <;> rfl

theorem holds_mirrored (op : BinaryOp) (o : Ordering) : op.mirrored.holds o.swap = op.holds o := by
  cases op <;> cases o <;> rfl

theorem compareValues_notEqual (a b : Value) (lifted : Bool) :
    notEqual.compareValues a b lifted = equal.compareValues a b lifted >>= UnaryOp.not.apply := by
  unfold compareValues
  split_ifs
  · cases lifted <;> rfl
  · rfl

/-- An order of values, null aside. -/
theorem compareValues_relational (hop : op.isRelational = true) {a b : Value} (ha : a.isNull = false)
    (hb : b.isNull = false) (lifted : Bool) :
    op.compareValues a b lifted =
      orFail (.cannotCompare a b) ((a.compare? b).map fun o => .bool (op.holds o)) := by
  unfold compareValues
  rw [ha, hb, if_neg (by decide)]
  cases op <;> first | (cases hop; done) | (cases a.compare? b <;> rfl)

theorem compareValues_mirrored (hop : op.isRelational = true) (a b : Value) (lifted : Bool) :
    (op.mirrored.compareValues b a lifted).toOption = (op.compareValues a b lifted).toOption := by
  by_cases hnull : (a.isNull || b.isNull) = true
  · unfold compareValues
    rw [if_pos hnull, if_pos (Bool.or_comm .. ▸ hnull)]
    cases op <;> first | (cases hop; done) | rfl
  · have hnull : (a.isNull || b.isNull) = false := by simpa using hnull
    rw [Bool.or_eq_false_iff] at hnull
    rw [compareValues_relational hop hnull.1 hnull.2,
      compareValues_relational ((isRelational_mirrored op).trans hop) hnull.2 hnull.1, ← Value.compare?_swap]
    cases a.compare? b with
    | none => rfl
    | some o =>
      rw [Option.map_some, Option.map_some, Option.map_some, holds_mirrored]
      rfl

end BinaryOp

namespace Value

/-- The order in which null comes first, turned round. -/
theorem compareNullFirst?_swap (a b : Value) :
    (a.compareNullFirst? b).map Ordering.swap = b.compareNullFirst? a := by
  unfold compareNullFirst?
  cases a.isNull <;> cases b.isNull <;> first | rfl | exact compare?_swap a b

theorem exists_bytes_of_convert {v w : Value} (hv : v.isNull = false) (hw : v.convert .bytes = .ok w) :
    ∃ bytes, w = .bytes bytes := by
  cases v with
  | null => cases hv
  | collection items => cases hw
  | _ =>
    rw [convert_of_not_collection rfl (by simp)] at hw
    split_ifs at hw with hinstance
    · cases hw
      exact hasForm_of_isInstanceOf hinstance
    · exact hasForm_of_isInstanceOf (convertScalar_isInstanceOf hw)

end Value

namespace Expr

variable {op : BinaryOp}

theorem isBool_comparison (hop : op.isComparison = true) (l r : Expr) (lifted : Bool) :
    (mkBinary op l r lifted).type.isBool = true := by
  show (binaryType op l.type r.type lifted).isBool = true
  unfold binaryType
  rw [hop, if_pos rfl]
  cases lifted <;> rfl

end Expr

/-! ## Inequality -/

/-- The second expression is the negation of the first, which is a boolean. -/
structure Expr.Negates [External] (e₁ e₂ : Expr) : Prop where
  isBool : e₁.type.isBool = true
  eval : ∀ env, (mkUnary .not e₁).eval env = e₂.eval env

namespace Context

variable [External] {E : Error → Prop}

theorem operation_negates (ctx : Context) (l r : Expr) :
    Expr.Negates (ctx.operation .equal l r) (ctx.operation .notEqual l r) where
  isBool := Expr.isBool_comparison rfl ..
  eval env := by
    rw [Expr.mkUnary, Expr.eval, operation, operation, Expr.eval_comparison rfl, Expr.eval_comparison rfl]
    simp only [bind_assoc, BinaryOp.compareValues_notEqual]
    rfl

theorem promoted_negates (ctx : Context) (l r : Expr) :
    Follows E Expr.Negates (do let (l, r) ← Bind.promote l r; return ctx.operation .equal l r)
      (do let (l, r) ← Bind.promote l r; return ctx.operation .notEqual l r) := by
  refine (Follows.eq_refl (Bind.promote l r)).bind fun p _ hp => ?_
  subst hp
  exact ctx.operation_negates p.1 p.2

theorem comparison_negates (ctx : Context) (l r : Expr) :
    Follows E Expr.Negates (ctx.comparison .equal l r) (ctx.comparison .notEqual l r) := by
  unfold comparison
  split
  · exact ctx.promoted_negates _ _
  · unfold Bind.ordinal?
    dsimp only
    cases l.type.isBytes && r.type.isBytes with
    | true => exact ⟨rfl, fun _ => rfl⟩
    | false => exact ctx.promoted_negates l r

/-- **Inequality is the negation of equality.** -/
theorem binary_negates (ctx : Context) (l r : Expr) :
    Follows E Expr.Negates (ctx.binary .eq l r) (ctx.binary .ne l r) := by
  refine (Follows.eq_refl (Bind.unifyEnums l r)).bind fun p _ hp => ?_
  subst hp
  exact ctx.comparison_negates _ _

end Context

/-! ## Orders turned round -/

/-- The expressions have the same values, and fail in the same environments. -/
def Expr.Agrees [External] (e₁ e₂ : Expr) : Prop := ∀ env, (e₁.eval env).toOption = (e₂.eval env).toOption

/-- The types have at most one enumeration between them. -/
def HostType.SharesEnum (l r : HostType) : Prop :=
  ∀ enum enum', l.asEnum? = some enum → r.asEnum? = some enum' → enum = enum'

/-- Two outcomes are looked at in either order, if it does not matter which error is met. -/
theorem Outcome.toOption_bind_comm {α β γ : Type} {f : α → β → Outcome γ} {g : β → α → Outcome γ}
    (h : ∀ a b, (f a b).toOption = (g b a).toOption) (x : Outcome α) (y : Outcome β) :
    (x >>= fun a => y >>= fun b => f a b).toOption = (y >>= fun b => x >>= fun a => g b a).toOption := by
  cases x <;> cases y <;> first | rfl | exact h _ _

namespace Bind

variable {l r : Expr}

theorem unifyEnums_swap (h : l.type.SharesEnum r.type) :
    (unifyEnums r l).toOption = (unifyEnums l r).toOption.map Prod.swap := by
  have both (enum : EnumType) :
      (toUnderlying r enum >>= fun r => toUnderlying l enum >>= fun l => .ok (r, l)).toOption =
        (toUnderlying l enum >>= fun l => toUnderlying r enum >>= fun r => .ok (l, r)).toOption.map
          Prod.swap := by
    cases toUnderlying l enum <;> cases toUnderlying r enum <;> rfl
  unfold unifyEnums
  cases hl : l.type.asEnum? with
  | none =>
    cases hr : r.type.asEnum? with
    | none => rfl
    | some enum => exact both enum
  | some enum =>
    cases hr : r.type.asEnum? with
    | none => exact both enum
    | some enum' =>
      obtain rfl := h enum enum' hl hr
      exact both enum

theorem unifyNulls_swap (l r : Expr) : unifyNulls r l = (unifyNulls l r).swap := by
  unfold unifyNulls
  cases l.isNullConst <;> cases r.isNullConst <;> rfl

theorem TimeKey.forTypes?_swap (a b : HostType) : forTypes? b a = forTypes? a b := by
  simp only [forTypes?, eq_comm (a := b.nonNullable) (b := a.nonNullable),
    or_comm (a := b.nonNullable = .date), or_comm (a := b.nonNullable.isTimeFamily = true),
    and_comm (a := b.nonNullable.isDateFamily = true), and_comm (a := hasTime b.nonNullable = true)]

theorem wider_comm (a b : HostType) : wider b a = wider a b := by
  unfold wider
  rw [Nat.max_comm]

theorem meet?_comm (a b : HostType) : meet? b a = meet? a b := by
  unfold meet?
  rw [Bool.and_comm, wider_comm]
  split_ifs with hnumeric hba hab hab
  · rfl
  · rw [hba]
  · exact absurd hba.symm hab
  · exact absurd hab.symm hba
  · cases a.nonNullable <;> cases b.nonNullable <;> rfl

theorem promote_swap (l r : Expr) : (promote r l).toOption = (promote l r).toOption.map Prod.swap := by
  unfold promote
  rw [meet?_comm, Bool.or_comm r.type.isObject, Bool.or_comm r.type.isNullableValueType]
  simp only [eq_comm (a := r.type)]
  split_ifs <;> first | rfl | (cases meet? l.type r.type <;> rfl)

/-- An order of texts or byte sequences turned round. -/
theorem ordinal?_mirrored [External] {op : BinaryOp} (hop : op.isRelational = true) (l r : Expr) :
    Option.Rel Expr.Agrees (ordinal? op l r) (ordinal? op.mirrored r l) := by
  have hop' : op.mirrored.isRelational = true := (BinaryOp.isRelational_mirrored op).trans hop
  unfold ordinal?
  dsimp only
  rw [hop, hop', Bool.and_comm r.type.isBytes, Bool.and_comm r.type.isString]
  split_ifs
  · refine .some fun env => ?_
    rw [Expr.eval_ordinal hop, Expr.eval_ordinal hop']
    refine Outcome.toOption_bind_comm (fun a b => ?_) _ _
    rw [← Value.compareNullFirst?_swap a b]
    cases a.compareNullFirst? b with
    | none => rfl
    | some o =>
      rw [Option.map_some, Option.map_some, Option.map_some, BinaryOp.holds_mirrored]
      rfl
  all_goals simp_all

end Bind

namespace Context

variable {op : BinaryOp} {l r : Expr}

theorem operation_mirrored [External] (ctx : Context) (hop : op.isRelational = true) (l r : Expr) :
    (ctx.operation op l r).Agrees (ctx.operation op.mirrored r l) := by
  intro env
  have hcomparison := BinaryOp.isComparison_of_isRelational hop
  unfold operation
  rw [Expr.eval_comparison hcomparison,
    Expr.eval_comparison ((BinaryOp.isComparison_mirrored op).trans hcomparison), BinaryOp.isComparison_mirrored]
  rw [show (op.isComparison && ctx.settings.nullPropagation && r.type.isNullableValueType &&
      l.type.isNullableValueType && !r.isNullConst && !l.isNullConst) =
    (op.isComparison && ctx.settings.nullPropagation && l.type.isNullableValueType &&
      r.type.isNullableValueType && !l.isNullConst && !r.isNullConst) by grind]
  exact Outcome.toOption_bind_comm (fun a b => (BinaryOp.compareValues_mirrored hop a b _).symm) _ _

theorem promoted_toOption (ctx : Context) (op : BinaryOp) (l r : Expr) :
    Except.toOption (do let (l, r) ← Bind.promote l r; return ctx.operation op l r) =
      (Bind.promote l r).toOption.map fun p => ctx.operation op p.1 p.2 := by
  cases Bind.promote l r <;> rfl

theorem promoted_mirrored [External] (ctx : Context) (hop : op.isRelational = true) (l r : Expr) :
    Option.Rel Expr.Agrees
      (Except.toOption (do let (l, r) ← Bind.promote l r; return ctx.operation op l r))
      (Except.toOption (do let (r, l) ← Bind.promote r l; return ctx.operation op.mirrored r l)) := by
  rw [promoted_toOption, promoted_toOption, Bind.promote_swap l r]
  cases (Bind.promote l r).toOption with
  | none => exact .none
  | some p => exact .some (ctx.operation_mirrored hop p.1 p.2)

theorem comparison_mirrored [External] (ctx : Context) (hop : op.isRelational = true) (l r : Expr) :
    Option.Rel Expr.Agrees (ctx.comparison op l r).toOption (ctx.comparison op.mirrored r l).toOption := by
  unfold comparison
  rw [Bind.TimeKey.forTypes?_swap l.type]
  cases Bind.TimeKey.forTypes? l.type r.type with
  | some k => exact ctx.promoted_mirrored hop _ _
  | none =>
    have hordinal := Bind.ordinal?_mirrored hop l r
    revert hordinal
    dsimp only
    cases Bind.ordinal? op l r <;> cases Bind.ordinal? op.mirrored r l <;> intro hordinal
    · exact ctx.promoted_mirrored hop l r
    · cases hordinal
    · cases hordinal
    · exact hordinal

/-- A comparison is one of operands that enumerations and nulls have been taken from. -/
theorem binary_of_isComparison (ctx : Context) {query : QueryOp} (hquery : query.binaryOp? = some op)
    (hop : op.isComparison = true) (l r : Expr) :
    ctx.binary query l r = Bind.unifyEnums l r >>= fun p =>
      ctx.comparison op (Bind.unifyNulls p.1 p.2).1 (Bind.unifyNulls p.1 p.2).2 := by
  unfold binary
  rw [hquery]
  dsimp only
  rw [BinaryOp.isLogical_of_isComparison hop, hop]
  rfl

/-- **An order is the same with its operands in the other order**, if they have at most one enumeration
between them. -/
theorem binary_mirrored [External] (ctx : Context) {query mirror : QueryOp}
    (hquery : query.binaryOp? = some op)
    (hmirror : mirror.binaryOp? = some op.mirrored) (hop : op.isRelational = true)
    (henum : l.type.SharesEnum r.type) :
    Option.Rel Expr.Agrees (ctx.binary query l r).toOption (ctx.binary mirror r l).toOption := by
  have hcomparison := BinaryOp.isComparison_of_isRelational hop
  rw [ctx.binary_of_isComparison hquery hcomparison,
    ctx.binary_of_isComparison hmirror ((BinaryOp.isComparison_mirrored op).trans hcomparison),
    Outcome.toOption_bind, Outcome.toOption_bind, Bind.unifyEnums_swap henum]
  cases (Bind.unifyEnums l r).toOption with
  | none => exact .none
  | some p =>
    show Option.Rel _ (ctx.comparison op _ _).toOption (ctx.comparison op.mirrored _ _).toOption
    rw [Prod.fst_swap, Prod.snd_swap, Bind.unifyNulls_swap p.1]
    exact ctx.comparison_mirrored hop _ _

end Context

/-! ## Orders and equality -/

namespace Expr

variable [External] {env : Env} {e l r : Expr}

/-- The expression is not null wherever it has a value. -/
def NotNullAt (env : Env) (e : Expr) : Prop := (e.eval env).Gives fun v => v.isNull = false

/-- The expression, if its type is that of byte sequences, is one wherever it has a value. -/
def BytesAt (env : Env) (e : Expr) : Prop :=
  e.type = .bytes → (e.eval env).Gives fun v => ∃ bytes, v = .bytes bytes

theorem NotNullAt.isNullConst (h : e.NotNullAt env) : e.isNullConst = false := by
  unfold Expr.isNullConst
  split
  · cases h
  · rfl

theorem NotNullAt.convert (h : e.NotNullAt env) (t : HostType) : (Expr.convert e t).NotNullAt env := by
  refine h.bind fun v hv => ?_
  cases hw : v.convert t with
  | error err => trivial
  | ok w => exact Value.isNull_convert hv hw

theorem NotNullAt.convertTo (h : e.NotNullAt env) (t : HostType) : (e.convertTo t).NotNullAt env := by
  unfold Expr.convertTo
  split_ifs
  · exact h
  · exact h.convert t

theorem NotNullAt.arithmetic {op : BinaryOp} (hlogical : op.isLogical = false)
    (hcomparison : op.isComparison = false) (hl : l.NotNullAt env) (hr : r.NotNullAt env) :
    (mkBinary op l r false).NotNullAt env := by
  unfold NotNullAt
  rw [eval_mkBinary hlogical]
  refine hl.bind fun a ha => hr.bind fun b hb => ?_
  simp only [BinaryOp.apply, hlogical, hcomparison, ha, hb, Bool.false_eq_true, if_false, Bool.or_self]
  exact ((op.arithmetic_nullSafe a b _).weaken fun _ _ => trivial).mono fun w hw =>
    Value.isNull_of_isPlain (Value.isPlain_of_isAtom hw.1)

theorem NotNullAt.scalar (f : ScalarFunction) (h : e.NotNullAt env) : (mkScalar f [e]).NotNullAt env := by
  unfold NotNullAt
  rw [eval_mkScalar, List.mapM_cons]
  simp only [List.mapM_nil, bind_assoc, pure_bind]
  refine h.bind fun v hv => ?_
  exact ((f.apply_nullSafe (List.forall_mem_singleton.mpr hv)).weaken fun _ _ => trivial).mono fun w hw =>
    Value.isNull_of_isPlain hw.1

/-- What converts to byte sequences is one. -/
theorem bytesAt_convert (h : e.NotNullAt env) (t : HostType) : (Expr.convert e t).BytesAt env := by
  rintro (rfl : t = .bytes)
  refine h.bind fun v hv => ?_
  cases hw : v.convert .bytes with
  | error err => trivial
  | ok w => exact Value.exists_bytes_of_convert hv hw

end Expr

namespace Bind

variable [External] {env : Env} {e e' l r : Expr} {enum : EnumType}

theorem TimeKey.key_notNull (k : TimeKey) (h : e.NotNullAt env) : (k.key e).NotNullAt env := by
  have number (n : SizedInt) : (Expr.mkConst (.int n)).NotNullAt env := rfl
  have date (f : ScalarFunction) (scale : Int) : (datePart e f scale).NotNullAt env :=
    (h.scalar f).arithmetic rfl rfl (number _)
  have time (f : ScalarFunction) (scale : Int) : (timePart e f scale).NotNullAt env :=
    ((h.scalar f).convert _).arithmetic rfl rfl (number _)
  cases k with
  | date => exact ((date _ _).arithmetic rfl rfl (date _ _)).arithmetic rfl rfl (h.scalar _)
  | time =>
    exact (((time _ _).arithmetic rfl rfl (time _ _)).arithmetic rfl rfl (time _ _)).arithmetic rfl rfl
      (time _ _)

theorem TimeKey.project_notNull (k : TimeKey) (h : e.NotNullAt env) : (k.project e).NotNullAt env := by
  unfold project
  rw [h.isNullConst, if_neg Bool.false_ne_true]
  split_ifs
  · have htest := Expr.eval_isNull e e.type env
    unfold Expr.NotNullAt at h ⊢
    cases he : e.eval env with
    | error err =>
      rw [he] at htest
      rw [Expr.mkCond, Expr.eval_cond_of_error htest]
      trivial
    | ok v =>
      rw [he] at htest h
      have hv : v.isNull = false := h
      rw [Outcome.ok_bind, hv] at htest
      rw [Expr.mkCond, Expr.eval_cond_of_bool htest, if_neg Bool.false_ne_true]
      refine (k.key_notNull ?_).convert _
      rw [Expr.NotNullAt, he]
      exact hv
  · exact k.key_notNull h

/-- A number for a value of an enumeration. -/
theorem toUnderlying_notNull (h : e.NotNullAt env) (he : toUnderlying e enum = .ok e') :
    e'.NotNullAt env ∧ e'.BytesAt env := by
  unfold toUnderlying at he
  dsimp only at he
  rw [h.isNullConst, if_neg Bool.false_ne_true] at he
  split_ifs at he with henum hint
  · cases he
    exact ⟨h.convert _, Expr.bytesAt_convert h _⟩
  · cases he
    refine ⟨h.convertTo _, ?_⟩
    unfold Expr.convertTo
    split_ifs with hsame
    · rintro hbytes
      rw [hbytes] at hint
      cases hint
    · exact Expr.bytesAt_convert h _
  · obtain ⟨value, -, he⟩ := Outcome.bind_eq_ok.mp he
    obtain ⟨v, hv, he⟩ := Outcome.bind_eq_ok.mp he
    cases he
    have hatom := Value.ofInt_nullSafe value.toInt enum.underlying
    rw [hv] at hatom
    refine ⟨Value.isNull_of_isPlain (Value.isPlain_of_isAtom hatom.1), fun hbytes => ?_⟩
    have hinstance := Value.ofInt_isInstanceOf hv
    rw [show enum.underlying = .bytes from hbytes] at hinstance
    exact Value.hasForm_of_isInstanceOf hinstance

theorem promote_notNull {p : Expr × Expr} (hl : l.NotNullAt env) (hr : r.NotNullAt env)
    (hp : promote l r = .ok p) : p.1.NotNullAt env ∧ p.2.NotNullAt env := by
  unfold promote at hp
  split_ifs at hp
  · cases hp
    exact ⟨hl, hr⟩
  · cases hp
    exact ⟨hl.convertTo _, hr.convertTo _⟩
  · split at hp
    · cases hp
    · cases hp
      exact ⟨hl.convertTo _, hr.convertTo _⟩

end Bind

/-- Wherever the first of three comparisons has a value, they tell of one order whether it is less, equal or
greater. -/
def Expr.Trichotomous [External] (env : Env) (lt eq gt : Expr) : Prop :=
  (lt.eval env).Gives fun _ => ∃ o : Ordering, lt.eval env = .ok (.bool (o = .lt)) ∧
    eq.eval env = .ok (.bool (o = .eq)) ∧ gt.eval env = .ok (.bool (o = .gt))

namespace Bind

variable {op : BinaryOp}

theorem ordinal?_equal (l r : Expr) :
    ordinal? .equal l r =
      if (l.type.isBytes && r.type.isBytes) = true then some (.mkScalar .bytesEqual [l, r]) else none := rfl

end Bind

namespace Expr

variable [External] {env : Env} {op : BinaryOp} {l r lt eq gt : Expr}

/-- What is done with operands that are not null. -/
theorem NotNullAt.bind_congr {α : Type} {f g : Value → Value → Outcome α} (hl : l.NotNullAt env)
    (hr : r.NotNullAt env) (h : ∀ a b, a.isNull = false → b.isNull = false → f a b = g a b) :
    (l.eval env >>= fun a => r.eval env >>= f a) = l.eval env >>= fun a => r.eval env >>= g a := by
  unfold NotNullAt at hl hr
  cases ha : l.eval env with
  | error err => rfl
  | ok a =>
    cases hb : r.eval env with
    | error err => rfl
    | ok b =>
      rw [ha] at hl
      rw [hb] at hr
      exact h a b hl hr

/-- Two comparisons by an order, and what tells equality. -/
theorem trichotomous_of_eval {cause : Value → Value → EvalError}
    (hlt : lt.eval env = l.eval env >>= fun a => r.eval env >>= fun b =>
      orFail (cause a b) ((a.compare? b).map fun o => .bool (BinaryOp.lessThan.holds o)))
    (hgt : gt.eval env = l.eval env >>= fun a => r.eval env >>= fun b =>
      orFail (cause a b) ((a.compare? b).map fun o => .bool (BinaryOp.greaterThan.holds o)))
    (heq : ∀ a b o, l.eval env = .ok a → r.eval env = .ok b → a.compare? b = some o →
      eq.eval env = .ok (.bool (o = .eq))) : Trichotomous env lt eq gt := by
  unfold Trichotomous
  rw [hlt, hgt]
  cases ha : l.eval env with
  | error err => trivial
  | ok a =>
    cases hb : r.eval env with
    | error err => trivial
    | ok b =>
      simp only [Outcome.ok_bind]
      cases ho : a.compare? b with
      | none => trivial
      | some o => exact ⟨o, by cases o <;> rfl, heq a b o ha hb ho, by cases o <;> rfl⟩

variable (hl : l.NotNullAt env) (hr : r.NotNullAt env)
include hl hr

theorem eval_equal {a b : Value} {o : Ordering} (ha : l.eval env = .ok a) (hb : r.eval env = .ok b)
    (ho : a.compare? b = some o) (lifted : Bool) :
    (mkBinary .equal l r lifted).eval env = .ok (.bool (o = .eq)) := by
  unfold NotNullAt at hl hr
  rw [ha] at hl
  rw [hb] at hr
  have hnull : (a.isNull || b.isNull) = false := Bool.or_eq_false_iff.mpr ⟨hl, hr⟩
  rw [eval_comparison rfl, ha, hb, Outcome.ok_bind, Outcome.ok_bind, BinaryOp.compareValues, hnull,
    if_neg Bool.false_ne_true]
  show Except.ok (Value.bool (a.equals b)) = _
  rw [Value.equals, ho]
  cases o <;> rfl

theorem eval_relational (hop : op.isRelational = true) (lifted : Bool) :
    (mkBinary op l r lifted).eval env = l.eval env >>= fun a => r.eval env >>= fun b =>
      orFail (.cannotCompare a b) ((a.compare? b).map fun o => .bool (op.holds o)) := by
  rw [eval_comparison (BinaryOp.isComparison_of_isRelational hop)]
  exact hl.bind_congr hr fun a b ha hb => BinaryOp.compareValues_relational hop ha hb lifted

theorem eval_ordinal_notNull (hop : op.isRelational = true) :
    (mkBinary op (mkScalar .compare [l, r]) (mkConst (.int32 0)) false).eval env =
      l.eval env >>= fun a => r.eval env >>= fun b =>
        orFail (.notApplicable .compare [a, b]) ((a.compare? b).map fun o => .bool (op.holds o)) := by
  rw [eval_ordinal hop]
  refine hl.bind_congr hr fun a b ha hb => ?_
  rw [Value.compareNullFirst?, ha, hb]

omit hl hr in
/-- Byte sequences are equal if none comes first. -/
theorem eval_bytesEqual {a b : List UInt8} {o : Ordering} (ha : l.eval env = .ok (.bytes a))
    (hb : r.eval env = .ok (.bytes b)) (ho : (Value.bytes a).compare? (.bytes b) = some o) :
    (mkScalar .bytesEqual [l, r]).eval env = .ok (.bool (o = .eq)) := by
  obtain rfl : compare a b = o := Option.some.inj ho
  rw [eval_mkScalar_pair, ha, hb]
  show Except.ok (Value.bool (a == b)) = _
  congr 2
  rw [Bool.eq_iff_iff, beq_iff_eq, decide_eq_true_iff]
  exact Std.LawfulEqCmp.compare_eq_iff_eq.symm

end Expr

namespace Context

variable [External] {env : Env} {l r lt : Expr}

section Operands

variable (hl : l.NotNullAt env) (hr : r.NotNullAt env)
include hl hr

theorem operation_trichotomous (ctx : Context) :
    Expr.Trichotomous env (ctx.operation .lessThan l r) (ctx.operation .equal l r)
      (ctx.operation .greaterThan l r) :=
  Expr.trichotomous_of_eval (Expr.eval_relational hl hr rfl _) (Expr.eval_relational hl hr rfl _)
    fun _ _ _ ha hb ho => Expr.eval_equal hl hr ha hb ho _

/-- An order of operands brought to one type, with their equality. -/
theorem promoted_trichotomous (ctx : Context)
    (h : (do let (l, r) ← Bind.promote l r; return ctx.operation .lessThan l r) = Except.ok lt) :
    ∃ eq gt, (do let (l, r) ← Bind.promote l r; return ctx.operation .equal l r) = Except.ok eq ∧
      (do let (l, r) ← Bind.promote l r; return ctx.operation .greaterThan l r) = Except.ok gt ∧
      Expr.Trichotomous env lt eq gt := by
  obtain ⟨p, hp, h⟩ := Outcome.bind_eq_ok.mp h
  cases h
  rw [hp]
  obtain ⟨hl, hr⟩ := Bind.promote_notNull hl hr hp
  exact ⟨_, _, rfl, rfl, ctx.operation_trichotomous hl hr⟩

/-- An order of byte sequences, with their equality by a function. -/
theorem bytes_trichotomous (hlbytes : (l.eval env).Gives fun v => ∃ bytes, v = .bytes bytes)
    (hrbytes : (r.eval env).Gives fun v => ∃ bytes, v = .bytes bytes) :
    Expr.Trichotomous env (.mkBinary .lessThan (.mkScalar .compare [l, r]) (.mkConst (.int32 0)) false)
      (.mkScalar .bytesEqual [l, r])
      (.mkBinary .greaterThan (.mkScalar .compare [l, r]) (.mkConst (.int32 0)) false) := by
  refine Expr.trichotomous_of_eval (Expr.eval_ordinal_notNull hl hr rfl)
    (Expr.eval_ordinal_notNull hl hr rfl) fun a b o ha hb ho => ?_
  rw [ha] at hlbytes
  rw [hb] at hrbytes
  obtain ⟨a, rfl⟩ := hlbytes
  obtain ⟨b, rfl⟩ := hrbytes
  exact Expr.eval_bytesEqual ha hb ho

/-- An order of texts, with the equality of values. -/
theorem texts_trichotomous (ctx : Context) :
    Expr.Trichotomous env (.mkBinary .lessThan (.mkScalar .compare [l, r]) (.mkConst (.int32 0)) false)
      (ctx.operation .equal l r)
      (.mkBinary .greaterThan (.mkScalar .compare [l, r]) (.mkConst (.int32 0)) false) :=
  Expr.trichotomous_of_eval (Expr.eval_ordinal_notNull hl hr rfl) (Expr.eval_ordinal_notNull hl hr rfl)
    fun _ _ _ ha hb ho => Expr.eval_equal hl hr ha hb ho _

theorem comparison_trichotomous (ctx : Context)
    (hbytes : l.type = .bytes → r.type = .bytes → l.BytesAt env ∧ r.BytesAt env)
    (h : ctx.comparison .lessThan l r = .ok lt) :
    ∃ eq gt, ctx.comparison .equal l r = .ok eq ∧ ctx.comparison .greaterThan l r = .ok gt ∧
      Expr.Trichotomous env lt eq gt := by
  unfold comparison at h ⊢
  cases hk : Bind.TimeKey.forTypes? l.type r.type with
  | some k =>
    rw [hk] at h
    exact ctx.promoted_trichotomous (k.project_notNull hl) (k.project_notNull hr) h
  | none =>
    rw [hk] at h
    dsimp only at h ⊢
    have hless : BinaryOp.lessThan.isRelational = true := rfl
    have hgreater : BinaryOp.greaterThan.isRelational = true := rfl
    rw [Bind.ordinal?_relational hless] at h
    rw [Bind.ordinal?_relational hgreater, Bind.ordinal?_equal]
    cases hboth : l.type.isBytes && r.type.isBytes with
    | true =>
      rw [hboth, Bool.or_true, if_pos rfl] at h
      cases h
      obtain ⟨hltype, hrtype⟩ : l.type = .bytes ∧ r.type = .bytes := by simpa [HostType.isBytes] using hboth
      obtain ⟨hlbytes, hrbytes⟩ := hbytes hltype hrtype
      rw [Bool.or_true]
      exact ⟨_, _, rfl, rfl, bytes_trichotomous hl hr (hlbytes hltype) (hrbytes hrtype)⟩
    | false =>
      rw [hboth, Bool.or_false] at h
      rw [Bool.or_false, if_neg Bool.false_ne_true]
      cases htexts : l.type.isString && r.type.isString with
      | true =>
        rw [htexts, if_pos rfl] at h
        cases h
        obtain ⟨hltype, hrtype⟩ : l.type = .string ∧ r.type = .string := by
          simpa [HostType.isString] using htexts
        have hp : Bind.promote l r = .ok (l, r) := if_pos (hltype.trans hrtype.symm)
        dsimp only
        rw [hp]
        exact ⟨_, _, rfl, rfl, ctx.texts_trichotomous hl hr⟩
      | false =>
        rw [htexts, if_neg Bool.false_ne_true] at h
        exact ctx.promoted_trichotomous hl hr h

/-- **Of two values in an order, one comes first or they are equal**: if a comparison by `lt` has a value for
operands that are not null, exactly one of `lt`, `eq` and `gt` is true. -/
theorem binary_trichotomous (ctx : Context)
    (hbytes : l.type = .bytes → r.type = .bytes → l.BytesAt env ∧ r.BytesAt env)
    (h : ctx.binary .lt l r = .ok lt) :
    ∃ eq gt, ctx.binary .eq l r = .ok eq ∧ ctx.binary .gt l r = .ok gt ∧
      Expr.Trichotomous env lt eq gt := by
  have hlt : QueryOp.lt.binaryOp? = some .lessThan := rfl
  have heq : QueryOp.eq.binaryOp? = some .equal := rfl
  have hgt : QueryOp.gt.binaryOp? = some .greaterThan := rfl
  rw [ctx.binary_of_isComparison hlt rfl] at h
  rw [ctx.binary_of_isComparison heq rfl, ctx.binary_of_isComparison hgt rfl]
  obtain ⟨⟨a, b⟩, hp, h⟩ := Outcome.bind_eq_ok.mp h
  have hunified : a.NotNullAt env ∧ b.NotNullAt env ∧
      (a.type = .bytes → b.type = .bytes → a.BytesAt env ∧ b.BytesAt env) := by
    rcases Bind.unifyEnums_cases hp with ⟨-, rfl, rfl⟩ | ⟨enum, -, ha, hb⟩
    · exact ⟨hl, hr, hbytes⟩
    · obtain ⟨hal, hab⟩ := Bind.toUnderlying_notNull hl ha
      obtain ⟨hbr, hbb⟩ := Bind.toUnderlying_notNull hr hb
      exact ⟨hal, hbr, fun _ _ => ⟨hab, hbb⟩⟩
  obtain ⟨ha, hb, hbytes⟩ := hunified
  have hnulls : Bind.unifyNulls a b = (a, b) := by
    unfold Bind.unifyNulls
    rw [ha.isNullConst, hb.isNullConst]
  simp only [hp, Outcome.ok_bind, hnulls] at h ⊢
  exact ctx.comparison_trichotomous ha hb hbytes h

end Operands

end Context

/-! ## Nodes -/

/-- The nodes are bound both or neither, to expressions that have the same values and fail in the same
environments. -/
def Node.Agree [External] (ctx : Context) (x y : Node) : Prop :=
  Option.Rel Expr.Agrees (x.bind ctx).1.toOption (y.bind ctx).1.toOption

theorem Context.binary_congr {c d : Context} (h : c.settings = d.settings) {op : QueryOp} (hop : op ≠ .has)
    (l r : Expr) : c.binary op l r = d.binary op l r := by
  have hoperation : c.operation = d.operation := by
    unfold operation
    rw [h]
  have hcomparison : c.comparison = d.comparison := by
    unfold comparison
    rw [hoperation]
  cases op <;> first | exact absurd rfl hop | (unfold binary; rw [hcomparison, hoperation]; rfl)

theorem Follows.rel {α β : Type} {R : α → β → Prop} {x : Outcome α} {y : Outcome β}
    (h : Follows (fun _ => True) R x y) : Option.Rel R x.toOption y.toOption := by
  cases x with
  | error e =>
    rw [h trivial]
    exact .none
  | ok a =>
    obtain ⟨b, rfl, hab⟩ := h.exists_ok
    exact .some hab

theorem Expr.Rebinds.symm [External] {ctx : Context} {e₁ e₂ : Expr} (h : Rebinds ctx e₁ e₂) :
    Rebinds ctx e₂ e₁ :=
  ⟨⟨h.1.relabel.symm, h.1.current.symm, h.1.isCurrent.symm⟩, fun env => (h.2 env).symm⟩

theorem Expr.Agrees.rel_trans [External] {ctx : Context} {x y z : Option Expr} (h : Option.Rel Agrees x y)
    (h' : Option.Rel (Rebinds ctx) y z) : Option.Rel Agrees x z := by
  cases h with
  | none =>
    cases h'
    exact .none
  | some h =>
    cases h' with
    | some h' => exact .some fun env => (h env).trans (by rw [h'.2.eval])

namespace Node

variable {ctx : Context} {a b : Node} {op : QueryOp}

/-- An operator on two nodes is one on what they are bound to, the left one first. -/
theorem bind_operands (hlt : ctx.depth < ctx.settings.maxDepth) (hop : op ≠ .has) (a b : Node) :
    ((Node.binary op a b).bind ctx).1 = (a.bind ctx.deeper).1 >>= fun l =>
      (b.bind (a.bind ctx.deeper).2).1 >>= fun r => ctx.binary op l r := by
  have hlevels : b.bindWithin ctx.deeper.levelsLeft (a.bind ctx.deeper).2 = b.bind (a.bind ctx.deeper).2 :=
    bindWithin_after a b
  have hafter : (b.bind (a.bind ctx.deeper).2).2.settings = ctx.settings :=
    ((a.bind_keeps ctx.deeper).trans (b.bind_keeps _)).settings
  rw [bind_of_lt _ hlt, Bind.step, Bind.binary]
  cases hl : (a.bind ctx.deeper).1 with
  | error err =>
    have ha : a.bindWithin ctx.deeper.levelsLeft ctx.deeper = (.error err, (a.bind ctx.deeper).2) :=
      Prod.ext hl rfl
    rw [BindM.bind_of_error ha]
    rfl
  | ok l =>
    have ha : a.bindWithin ctx.deeper.levelsLeft ctx.deeper = (.ok l, (a.bind ctx.deeper).2) :=
      Prod.ext hl rfl
    rw [BindM.bind_of_ok ha]
    cases hr : (b.bind (a.bind ctx.deeper).2).1 with
    | error err =>
      rw [BindM.bind_of_error (hlevels.trans (Prod.ext hr rfl))]
      rfl
    | ok r =>
      rw [BindM.bind_of_ok (hlevels.trans (Prod.ext hr rfl))]
      exact Context.binary_congr hafter hop l r

theorem bind_operand (hlt : ctx.depth < ctx.settings.maxDepth) (op : QueryUnaryOp) (x : Node) :
    ((Node.unary op x).bind ctx).1 = (x.bind ctx.deeper).1 >>= Bind.unaryOperation op := by
  rw [bind_of_lt _ hlt, Bind.step, Bind.unary]
  cases hx : (x.bind ctx.deeper).1 with
  | error err =>
    rw [BindM.bind_of_error (show x.bindWithin ctx.deeper.levelsLeft ctx.deeper =
      (.error err, (x.bind ctx.deeper).2) from Prod.ext hx rfl)]
    rfl
  | ok e =>
    rw [BindM.bind_of_ok (show x.bindWithin ctx.deeper.levelsLeft ctx.deeper =
      (.ok e, (x.bind ctx.deeper).2) from Prod.ext hx rfl)]
    rfl

/-- What is bound one level deeper is bound to the same. -/
theorem bind_of_deeper {x : Node} {e : Expr} (h : (x.bind ctx.deeper).1 = .ok e) : (x.bind ctx).1 = .ok e := by
  rw [← x.bind_deeper ctx (by rw [h]; trivial), h]

/-- Inequality is bound as the negation of equality is, if that is not cut off. -/
theorem not_equal [External] (hshallow : ((Node.unary .not (.binary .eq a b)).bind ctx).1.Shallow) :
    Follows (fun _ => True) (fun e₁ e₂ => ∀ env, e₁.eval env = e₂.eval env)
      ((Node.binary .ne a b).bind ctx).1 ((Node.unary .not (.binary .eq a b)).bind ctx).1 := by
  have hlt : ctx.depth < ctx.settings.maxDepth := by
    by_contra hle
    rw [bind_of_le (Nat.le_of_not_lt hle)] at hshallow
    cases hshallow
  rw [bind_operand hlt] at hshallow ⊢
  have hequal : ((Node.binary .eq a b).bind ctx.deeper).1.Shallow := by
    cases hx : ((Node.binary .eq a b).bind ctx.deeper).1 with
    | error err =>
      rw [hx] at hshallow
      exact hshallow
    | ok e => trivial
  rw [bind_deeper _ ctx hequal, bind_operands hlt (by decide), bind_operands hlt (by decide)]
  simp only [bind_assoc]
  refine (Follows.eq_refl _).bind fun l _ hl => (Follows.eq_refl _).bind fun r _ hr => ?_
  subst hl hr
  have hnegates := ctx.binary_negates l r (E := fun _ => True)
  cases heq : ctx.binary .eq l r with
  | error err =>
    rw [heq] at hnegates
    rw [hnegates trivial]
    exact Follows.error err
  | ok e₁ =>
    rw [heq] at hnegates
    obtain ⟨e₂, hne, hbool, heval⟩ := hnegates.exists_ok
    rw [hne, Outcome.ok_bind, Bind.unaryOperation, if_pos hbool]
    exact fun env => (heval env).symm

section Operands

variable [External] (hctx : ctx.Rebindable)
include hctx

/-- The operands of two nodes, bound in either order. -/
theorem rebind_operands (a b : Node) :
    Option.Rel (Expr.Rebinds ctx.deeper) (b.bind ctx.deeper).1.toOption
      (b.bind (a.bind ctx.deeper).2).1.toOption :=
  hctx.deeper.bind_after (a.bind_keeps ctx.deeper) b

/-- An order of two nodes is bound as the order turned round is. -/
theorem mirrored_agree {mirror : QueryOp} {bop : BinaryOp} (hop : op.binaryOp? = some bop)
    (hmirror : mirror.binaryOp? = some bop.mirrored) (hrelational : bop.isRelational = true)
    (henum : ∀ l r, (a.bind ctx).1 = .ok l → (b.bind ctx).1 = .ok r → l.type.SharesEnum r.type) :
    Agree ctx (.binary op a b) (.binary mirror b a) := by
  unfold Agree
  by_cases hlt : ctx.depth < ctx.settings.maxDepth
  · have hhas {query : QueryOp} {bop : BinaryOp} (h : query.binaryOp? = some bop) : query ≠ .has := by
      rintro rfl
      cases h
    rw [bind_operands hlt (hhas hop), bind_operands hlt (hhas hmirror)]
    simp only [Outcome.toOption_bind]
    have hl (l : Expr) (h : (a.bind ctx.deeper).1.toOption = some l) : (a.bind ctx).1 = .ok l :=
      bind_of_deeper (Outcome.toOption_eq_some.mp h)
    have hr (r : Expr) (h : (b.bind ctx.deeper).1.toOption = some r) : (b.bind ctx).1 = .ok r :=
      bind_of_deeper (Outcome.toOption_eq_some.mp h)
    have ha := rebind_operands hctx b a
    have hb := rebind_operands hctx a b
    generalize (a.bind ctx.deeper).1.toOption = l at ha hl ⊢
    generalize (b.bind ctx.deeper).1.toOption = r at hb hr ⊢
    generalize (a.bind (b.bind ctx.deeper).2).1.toOption = l' at ha ⊢
    generalize (b.bind (a.bind ctx.deeper).2).1.toOption = r' at hb ⊢
    cases ha with
    | none => cases hb <;> exact .none
    | some ha =>
      cases hb with
      | none => exact .none
      | some hb =>
        rename_i l l' r r'
        -- the operands as they are bound first, in either order
        have henum := henum l r (hl l rfl) (hr r rfl)
        rw [hctx.deeper.congruence.type hb] at henum
        have hsettings : ctx.deeper.settings = ctx.settings := rfl
        have hrebound : Follows (fun _ => True) (Expr.Rebinds ctx.deeper) (ctx.deeper.binary mirror r' l)
            (ctx.deeper.binary mirror r l') := hctx.deeper.congruence.binaryOperation mirror hb.symm ha
        rw [Context.binary_congr hsettings (hhas hmirror), Context.binary_congr hsettings (hhas hmirror)]
          at hrebound
        exact Expr.Agrees.rel_trans (ctx.binary_mirrored hop hmirror hrelational henum) hrebound.rel
  · rw [bind_of_le (Nat.le_of_not_lt hlt), bind_of_le (Nat.le_of_not_lt hlt)]
    exact .none

/-- A comparison by `lt` of two nodes that has a value, where they are not null. -/
theorem exists_trichotomous {l r lt : Expr} {env : Env} (hl : (a.bind ctx).1 = .ok l)
    (hr : (b.bind ctx).1 = .ok r) (hlnull : l.NotNullAt env) (hrnull : r.NotNullAt env)
    (hbytes : l.type = .bytes → r.type = .bytes → l.BytesAt env ∧ r.BytesAt env)
    (hbound : ((Node.binary .lt a b).bind ctx).1 = .ok lt) :
    ∃ eq gt, ((Node.binary .eq a b).bind ctx).1 = .ok eq ∧ ((Node.binary .gt a b).bind ctx).1 = .ok gt ∧
      Expr.Trichotomous env lt eq gt := by
  have hlt := lt_of_bind_eq_ok hbound
  rw [bind_operands hlt (by decide)] at hbound
  rw [bind_operands hlt (by decide), bind_operands hlt (by decide)]
  obtain ⟨l', hl', hbound⟩ := Outcome.bind_eq_ok.mp hbound
  obtain ⟨r', hr', hbound⟩ := Outcome.bind_eq_ok.mp hbound
  rw [hl', Outcome.ok_bind, hr']
  simp only [Outcome.ok_bind]
  obtain rfl : l' = l := Except.ok.inj ((bind_of_deeper hl').symm.trans hl)
  have hrebound := rebind_operands hctx a b
  rw [hr'] at hrebound
  cases hr₀ : (b.bind ctx.deeper).1 with
  | error err =>
    rw [hr₀] at hrebound
    cases hrebound
  | ok r₀ =>
    obtain rfl : r₀ = r := Except.ok.inj ((bind_of_deeper hr₀).symm.trans hr)
    rw [hr₀] at hrebound
    cases hrebound with
    | some hrebound =>
      have heval := hrebound.2.eval env
      unfold Expr.NotNullAt at hrnull
      rw [heval] at hrnull
      refine Context.binary_trichotomous hlnull hrnull ctx (fun hltype hrtype => ?_) hbound
      have htype := hctx.deeper.congruence.type hrebound
      obtain ⟨hlbytes, hrbytes⟩ := hbytes hltype (htype.trans hrtype)
      refine ⟨hlbytes, fun _ => ?_⟩
      rw [← heval]
      exact hrbytes (htype.trans hrtype)

end Operands

end Node

/-- **Comparisons are coherent.** In a context in which nodes can be bound again, as all are that clauses reach:
inequality is bound as the negation of equality is, if that is not cut off, and has the same values and errors;
an order is bound as the order turned round is, and has the same values, if the operands have at most one
enumeration between them; and of two operands that are not null and for which `lt` has a value, exactly one of
`lt`, `eq` and `gt` is true, if operands of the type of byte sequences are byte sequences. -/
theorem comparisons_are_coherent [External] {ctx : Context} (hctx : ctx.Rebindable) (a b : Node) :
    ((∀ depth limit,
        ((Node.unary .not (.binary .eq a b)).bind ctx).1 ≠ .error (.nestingTooDeep depth limit)) →
      Follows (fun _ => True) (fun e₁ e₂ => ∀ env, e₁.eval env = e₂.eval env)
        ((Node.binary .ne a b).bind ctx).1 ((Node.unary .not (.binary .eq a b)).bind ctx).1) ∧
    ((∀ l r, (a.bind ctx).1 = .ok l → (b.bind ctx).1 = .ok r → l.type.SharesEnum r.type) →
      Node.Agree ctx (.binary .lt a b) (.binary .gt b a) ∧
        Node.Agree ctx (.binary .le a b) (.binary .ge b a)) ∧
    ∀ l r lt env u v w, (a.bind ctx).1 = .ok l → (b.bind ctx).1 = .ok r → l.eval env = .ok u →
      r.eval env = .ok v → u.isNull = false → v.isNull = false →
      (l.type = .bytes → r.type = .bytes → (∃ bytes, u = .bytes bytes) ∧ ∃ bytes, v = .bytes bytes) →
      ((Node.binary .lt a b).bind ctx).1 = .ok lt → lt.eval env = .ok w →
        ∃ eq gt, ((Node.binary .eq a b).bind ctx).1 = .ok eq ∧ ((Node.binary .gt a b).bind ctx).1 = .ok gt ∧
          ∃ o : Ordering, lt.eval env = .ok (.bool (o = .lt)) ∧ eq.eval env = .ok (.bool (o = .eq)) ∧
            gt.eval env = .ok (.bool (o = .gt)) := by
  refine ⟨fun hlimit => Node.not_equal (Outcome.shallow_iff.mpr hlimit), fun henum => ⟨?_, ?_⟩, ?_⟩
  · have hlt : QueryOp.lt.binaryOp? = some .lessThan := rfl
    exact Node.mirrored_agree hctx hlt rfl rfl henum
  · have hle : QueryOp.le.binaryOp? = some .lessThanOrEqual := rfl
    exact Node.mirrored_agree hctx hle rfl rfl henum
  · intro l r lt env u v w hl hr hu hv hunull hvnull hbytes hbound hw
    have notNull {e : Expr} {x : Value} (he : e.eval env = .ok x) (hx : x.isNull = false) :
        e.NotNullAt env := by
      rw [Expr.NotNullAt, he]
      exact hx
    have isBytes {e : Expr} {x : Value} (he : e.eval env = .ok x) (hx : ∃ bytes, x = .bytes bytes) :
        e.BytesAt env := by
      intro
      rw [he]
      exact hx
    obtain ⟨eq, gt, heq, hgt, htrichotomous⟩ := Node.exists_trichotomous hctx hl hr (notNull hu hunull)
      (notNull hv hvnull) (fun hltype hrtype => (hbytes hltype hrtype).imp (isBytes hu) (isBytes hv)) hbound
    rw [Expr.Trichotomous, hw] at htrichotomous
    obtain ⟨o, hlt, hequal, hgreater⟩ := htrichotomous
    exact ⟨eq, gt, heq, hgt, o, hw.trans hlt, hequal, hgreater⟩

/-! ### Grades -/

/-- A filter of grades, small numbers that may be missing. -/
def gradeContext : Context := .initial .empty {} (HostType.int .int16).toNullable

/-- The grade of the clause. -/
def gradeNode : Node := .rangeVariable ⟨RangeVariable.itName, .primitive .int16 true⟩

/-- The grade that is good enough, a number of another width. -/
def passNode : Node := .constant (.int64 5) none

/-- The environment of a grade that is not good enough. -/
def lowGrade : Env := [(0, .int ⟨.int16, 3, by decide⟩)]

/-- A grade next to the one that is good enough. -/
theorem comparisons_are_coherent_for_grades :
    (∃ e₁ e₂, ((Node.binary .ne gradeNode passNode).bind gradeContext).1 = .ok e₁ ∧
      ((Node.unary .not (.binary .eq gradeNode passNode)).bind gradeContext).1 = .ok e₂ ∧
      ∀ env, e₁.eval env = e₂.eval env) ∧
    Node.Agree gradeContext (.binary .lt gradeNode passNode) (.binary .gt passNode gradeNode) ∧
    ∃ lt eq gt, ((Node.binary .lt gradeNode passNode).bind gradeContext).1 = .ok lt ∧
      ((Node.binary .eq gradeNode passNode).bind gradeContext).1 = .ok eq ∧
      ((Node.binary .gt gradeNode passNode).bind gradeContext).1 = .ok gt ∧
      lt.eval lowGrade = .ok (.bool true) ∧ eq.eval lowGrade = .ok (.bool false) ∧
      gt.eval lowGrade = .ok (.bool false) := by
  have hctx : gradeContext.Rebindable := Context.initial_rebindable ..
  obtain ⟨hnot, hmirrored, hordered⟩ := comparisons_are_coherent hctx gradeNode passNode
  refine ⟨?_, (hmirrored ?_).1, ?_⟩
  · obtain ⟨e₁, he₁⟩ :
        ∃ e₁, ((Node.binary .ne gradeNode passNode).bind gradeContext).1 = .ok e₁ := ⟨_, rfl⟩
    obtain ⟨e₂, he₂⟩ :
        ∃ e₂, ((Node.unary .not (.binary .eq gradeNode passNode)).bind gradeContext).1 = .ok e₂ := ⟨_, rfl⟩
    rw [he₁, he₂] at hnot
    exact ⟨e₁, e₂, he₁, he₂, hnot fun _ _ => nofun⟩
  · rintro l r - hr
    cases hr
    nofun
  · obtain ⟨lt, hlt⟩ :
        ∃ lt, ((Node.binary .lt gradeNode passNode).bind gradeContext).1 = .ok lt := ⟨_, rfl⟩
    have hvalue : lt.eval lowGrade = .ok (.bool true) := by
      cases hlt
      rfl
    obtain ⟨eq, gt, heq, hgt, o, ho, hequal, hgreater⟩ := hordered _ _ lt lowGrade _ _ _ rfl rfl
      rfl rfl rfl rfl nofun hlt hvalue
    obtain rfl : o = .lt := by simpa using Except.ok.inj (ho.symm.trans hvalue)
    exact ⟨lt, eq, gt, hlt, heq, hgt, hvalue, hequal, hgreater⟩

/-! ### Texts for byte sequences -/

/-- A filter of byte sequences. -/
def bytesContext : Context := .initial .empty {} .bytes

/-- The byte sequence of the clause. -/
def bytesNode : Node := .rangeVariable ⟨RangeVariable.itName, .primitive .binary true⟩

/-- A text where the type says a byte sequence is ordered as a text, and so it is neither less nor greater than
itself; but equality of byte sequences fails. -/
theorem texts_for_bytes_are_not_equal :
    ∃ it lt eq gt, (bytesNode.bind bytesContext).1 = .ok it ∧ it.type = .bytes ∧
      it.eval [(0, .string "a")] = .ok (.string "a") ∧
      ((Node.binary .lt bytesNode bytesNode).bind bytesContext).1 = .ok lt ∧
      ((Node.binary .eq bytesNode bytesNode).bind bytesContext).1 = .ok eq ∧
      ((Node.binary .gt bytesNode bytesNode).bind bytesContext).1 = .ok gt ∧
      lt.eval [(0, .string "a")] = .ok (.bool false) ∧
      eq.eval [(0, .string "a")] = EvalError.fail (.notApplicable .bytesEqual [.string "a", .string "a"]) ∧
      gt.eval [(0, .string "a")] = .ok (.bool false) :=
  ⟨_, _, _, _, rfl, rfl, rfl, rfl, rfl, rfl, rfl, rfl, rfl⟩

end TypedQuery
