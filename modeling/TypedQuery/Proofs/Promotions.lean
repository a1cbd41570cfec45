import TypedQuery.Proofs.IntegerOperators
import TypedQuery.Proofs.NullFree

/-!
# The width of an operation

Numbers of one type are operated on as they are, and numbers of two types are brought to the wider one first.
A type with null is another type than the one without, so two numbers of a narrow width are added in that
width if both may be null or neither may, and in 32 or 64 bits if one of them may. What an operation gives for
two numbers depends on their types by the width that is chosen, and by nothing else of them.

* `Bind.commonType`: the type that is chosen, null aside.
* `BinaryOp.carryOut`: an operation on values that are brought to a type first.
* `Context.exists_operation_in_commonType`: an operator on two integers is carried out in that type.
* **`nullability_decides_only_narrow_widths`**: which operations see a change of a type to the one with null.
-/

namespace TypedQuery

variable {op : QueryOp} {bop : BinaryOp} {t : HostType} {v w : Value}

/-- The conversion of an integer to a numeric type does not depend on whether the type has null, nor do its
errors. -/
theorem Value.convert_int_nonNullable (n : SizedInt) (ht : t.isNumeric = true) :
    (Value.int n).convert t.nonNullable = (Value.int n).convert t := by
  have hconvert (u : HostType) : (Value.int n).convert u =
      if (Value.int n).isInstanceOf u.nonNullable then .ok (.int n) else (Value.int n).convertScalar u :=
    convert_of_not_collection rfl (by simp)
  rw [hconvert, hconvert]
  rcases HostType.isNumeric_iff.mp ht with ⟨k, hk⟩ | hk | hk | hk <;> unfold convertScalar <;> rw [hk] <;> rfl

/-- A result that a width holds is held by a wider one. -/
theorem QueryOp.computed?_of_holds {k k' : IntWidth} {m n : Int} (hholds : ∀ i, k.Holds i → k'.Holds i)
    (h : op.computed? k (some m) (some n) = some v) :
    ∃ w, op.computed? k' (some m) (some n) = some w ∧ w.asInt? = v.asInt? := by
  obtain ⟨i, hi, rfl⟩ := Option.map_eq_some_iff.mp h
  obtain ⟨result, hresult, hfits⟩ := Option.bind_eq_some_iff.mp hi
  have hk : k.Holds result := by
    by_contra hnot
    rw [SizedInt.ofInt?, dif_neg hnot] at hfits
    cases hfits
  rw [SizedInt.ofInt?, dif_pos hk] at hfits
  cases hfits
  refine ⟨.int ⟨k', result, hholds result hk⟩, ?_, rfl⟩
  rw [computed?, hresult, Option.bind_some, SizedInt.ofInt?, dif_pos (hholds result hk)]
  rfl

/-- An outcome that is a value is the value asked for. -/
theorem Outcome.IsOrFails.eq_some {x : Option Value} {o : Outcome Value} (h : o.IsOrFails x) (ho : o = .ok v) :
    x = some v := by
  subst ho
  cases x with
  | none =>
    obtain ⟨err, herr, -⟩ := h
    cases herr
  | some w =>
    cases h
    rfl

/-! ## Operations in a type -/

/-- An operation on two values that are brought to a type first. -/
def BinaryOp.carryOut (op : BinaryOp) (t : HostType) (a b : Value) : Outcome Value := do
  let a ← a.convert t
  let b ← b.convert t
  if op.isComparison then op.compareValues a b false else op.arithmetic a b t

/-- Whether a comparison is lifted makes no difference to values that are not null. -/
theorem BinaryOp.compareValues_lifted (op : BinaryOp) (hv : v.isNull = false) (hw : w.isNull = false)
    (lifted : Bool) : op.compareValues v w lifted = op.compareValues v w false := by
  unfold compareValues
  rw [hv, hw]
  rfl

namespace Expr

variable [External] {env : Env} {e l r : Expr} {n : SizedInt} {a b : Value}

theorem HasInt.eval_eq (h : e.HasInt env n.width (some n.val)) : e.eval env = .ok (.int n) := h.2.2

/-- A number is brought to a type by a conversion, also where the expression has the type already. -/
theorem HasInt.eval_convertTo (h : e.HasInt env n.width (some n.val)) (t : HostType) :
    (e.convertTo t).eval env = (Value.int n).convert t :=
  eval_convertTo_of_eval h.eval_eq fun ht => Value.convert_int (by rw [← ht, h.1]) n.fits

/-- An operation on operands that are brought to a type. -/
theorem eval_mkBinary_converted (hlogical : bop.isLogical = false) (ha : a.isNull = false)
    (hb : b.isNull = false) (hl : l.eval env = a.convert t) (hr : r.eval env = b.convert t) (lifted : Bool)
    (ht : bop.isComparison = false → (binaryType bop l.type r.type lifted).nonNullable = t) :
    (mkBinary bop l r lifted).eval env = bop.carryOut t a b := by
  rw [eval_mkBinary hlogical, hl, hr, BinaryOp.carryOut]
  cases hx : a.convert t with
  | error err => rfl
  | ok x =>
    cases hy : b.convert t with
    | error err => rfl
    | ok y =>
      have hx := Value.isNull_convert ha hx
      have hy := Value.isNull_convert hb hy
      simp only [Outcome.ok_bind, BinaryOp.apply, hlogical, Bool.false_eq_true, if_false, hx, hy, Bool.or_self]
      cases hcomparison : bop.isComparison with
      | true => exact bop.compareValues_lifted hx hy lifted
      | false => rw [ht hcomparison]; rfl

end Expr

/-! ## The type of an operation on integers -/

namespace Bind

variable {l r : Expr} {a b a' b' : HostType} {k m : IntWidth}

/-- The type in which numbers of two types are operated on, null aside: theirs, if both have one, and the wider
otherwise. -/
def commonType (a b : HostType) : HostType :=
  if a = b then a.nonNullable else wider a.nonNullable b.nonNullable

/-- Two integer types meet in one, or in that of decimal numbers. -/
theorem commonType_cases (ha : a.nonNullable = .int k) (hb : b.nonNullable = .int m) :
    (∃ w, commonType a b = .int w) ∨ commonType a b = .decimal := by
  unfold commonType
  split_ifs
  · exact .inl ⟨k, ha⟩
  · rw [ha, hb]
    cases k <;> cases m <;> first | exact .inl ⟨_, rfl⟩ | exact .inr rfl

theorem nonNullable_commonType (ha : a.nonNullable = .int k) (hb : b.nonNullable = .int m) :
    (commonType a b).nonNullable = commonType a b := by
  obtain ⟨w, h⟩ | h := commonType_cases ha hb <;> rw [h] <;> rfl

/-- **Promotion brings integers to their common type.** -/
theorem exists_promote_to_commonType (hl : l.type.nonNullable = .int k) (hr : r.type.nonNullable = .int m) :
    ∃ target, promote l r = .ok (l.convertTo target, r.convertTo target) ∧
      target.nonNullable = commonType l.type r.type := by
  by_cases hsame : l.type = r.type
  · refine ⟨l.type, ?_, by rw [commonType, if_pos hsame]⟩
    rw [promote, if_pos hsame, Expr.convertTo, if_pos rfl, Expr.convertTo, if_pos hsame.symm]
  · obtain ⟨target, hp, htarget⟩ := exists_promote_of_type_ne hl hr hsame
    have hcommon : commonType l.type r.type = wider (.int k) (.int m) := by
      rw [commonType, if_neg hsame, hl, hr]
    refine ⟨target, hp, ?_⟩
    rw [htarget, ← hcommon]
    split_ifs
    · rw [HostType.nonNullable_toNullable, nonNullable_commonType hl hr]
    · exact nonNullable_commonType hl hr

/-- A change between a type and that with null leaves the common type as it is, unless both types have one narrow
width and the change makes them equal or different. -/
theorem commonType_congr (ha : a.nonNullable = .int k) (hb : b.nonNullable = .int m) (ha' : a'.nonNullable = .int k)
    (hb' : b'.nonNullable = .int m) (h : k = m → k = .int32 ∨ k = .int64 ∨ (a = b ↔ a' = b')) :
    commonType a b = commonType a' b' := by
  unfold commonType
  rw [ha, hb, ha', hb']
  by_cases hkm : k = m
  · subst hkm
    rcases h rfl with rfl | rfl | hsame
    · exact (ite_self _).trans (ite_self _).symm
    · exact (ite_self _).trans (ite_self _).symm
    · exact if_congr hsame rfl rfl
  · have differ {x y : HostType} (hx : x.nonNullable = .int k) (hy : y.nonNullable = .int m) : x ≠ y := by
      rintro rfl
      exact hkm (HostType.int.inj (hx.symm.trans hy))
    rw [if_neg (differ ha hb), if_neg (differ ha' hb')]

/-- The common type of two types of one width holds the numbers of that width. -/
theorem exists_commonType_holds (ha : a.nonNullable = .int k) (hb : b.nonNullable = .int k) (hk : k ≠ .uint64) :
    ∃ w, commonType a b = .int w ∧ ∀ n, k.Holds n → w.Holds n := by
  unfold commonType
  split_ifs
  · exact ⟨k, ha, fun _ => id⟩
  · obtain ⟨w, hw, -, hholds, -⟩ := exists_wider_int hk hk
    exact ⟨w, by rw [ha, hb, hw], hholds⟩

end Bind

/-! ## Operators of queries -/

namespace Context

variable [External] {env env' : Env} {l r l' r' : Expr} {a b : SizedInt}

/-- **An operator on two integers is carried out in their common type.** -/
theorem exists_operation_in_commonType (ctx : Context) (hop : op.isArithmetic = true ∨ op.isComparison = true)
    (hbop : op.binaryOp? = some bop) (hl : l.HasInt env a.width (some a.val))
    (hr : r.HasInt env b.width (some b.val)) :
    ∃ e, ctx.binary op l r = .ok e ∧
      e.eval env = bop.carryOut (Bind.commonType l.type r.type) (.int a) (.int b) ∧
      (op.isArithmetic = true → e.type.nonNullable = Bind.commonType l.type r.type) := by
  have hlogical := QueryOp.isLogical_binaryOp hbop hop
  obtain ⟨target, hp, htarget⟩ := Bind.exists_promote_to_commonType hl.1 hr.1
  have hplain := Bind.nonNullable_commonType hl.1 hr.1
  have hnumeric : target.isNumeric = true := by
    rw [HostType.isNumeric_iff, htarget]
    exact (Bind.commonType_cases hl.1 hr.1).imp_right fun h => .inr (.inr h)
  have hconvert {e : Expr} {n : SizedInt} (h : e.HasInt env n.width (some n.val)) :
      (e.convertTo target).eval env = (Value.int n).convert (Bind.commonType l.type r.type) := by
    rw [h.eval_convertTo, ← htarget, Value.convert_int_nonNullable n hnumeric]
  have htype (lifted : Bool) (hcomparison : bop.isComparison = false) :
      (Expr.binaryType bop (l.convertTo target).type (r.convertTo target).type lifted).nonNullable =
        Bind.commonType l.type r.type := by
    rw [Expr.type_convertTo, Expr.type_convertTo,
      Expr.nonNullable_binaryType hlogical hcomparison (by rw [htarget, hplain]), htarget]
  refine ⟨ctx.operation bop (l.convertTo target) (r.convertTo target), ?_, ?_, fun harithmetic => ?_⟩
  · rw [binary_of_int hl.1 hr.1 hbop hlogical (Expr.isNullConst_of_eval hl.eval_eq rfl)
      (Expr.isNullConst_of_eval hr.eval_eq rfl), hp, Outcome.ok_bind]
  · exact Expr.eval_mkBinary_converted hlogical rfl rfl (hconvert hl) (hconvert hr) _ (htype _)
  · exact htype _ ((QueryOp.isComparison_binaryOp hbop).trans (QueryOp.isComparison_of_isArithmetic harithmetic))

/-- A comparison of two integers compares them as numbers. -/
theorem eval_of_comparison (ctx : Context) (hop : op.isComparison = true) (ha : a.width ≠ .uint64)
    (hb : b.width ≠ .uint64) (hl : l.HasInt env a.width (some a.val)) (hr : r.HasInt env b.width (some b.val))
    {e : Expr} (he : ctx.binary op l r = .ok e) :
    e.eval env = .ok (.bool (op.holds (compare a.val b.val))) := by
  obtain ⟨_, he', heval⟩ := exists_integer_comparison ctx hl.1 hr.1 ha hb (Expr.isNullConst_of_eval hl.eval_eq rfl)
    (Expr.isNullConst_of_eval hr.eval_eq rfl) hop
  cases he.symm.trans he'
  exact heval env _ _ hl hr

/-- Arithmetic on two integers is exact or fails, in a width that is their common type. -/
theorem isOrFails_of_arithmetic (ctx : Context) (hop : op.isArithmetic = true) (ha : a.width ≠ .uint64)
    (hb : b.width ≠ .uint64) (hl : l.HasInt env a.width (some a.val)) (hr : r.HasInt env b.width (some b.val))
    {e : Expr} (he : ctx.binary op l r = .ok e) {k : IntWidth} (hk : Bind.commonType l.type r.type = .int k) :
    (e.eval env).IsOrFails (op.computed? k (some a.val) (some b.val)) := by
  obtain ⟨bop, hbop⟩ := QueryOp.exists_binaryOp (.inl hop)
  obtain ⟨_, t, he', htype, heval⟩ := exists_integer_arithmetic ctx hl.1 hr.1 ha hb
    (Expr.isNullConst_of_eval hl.eval_eq rfl) (Expr.isNullConst_of_eval hr.eval_eq rfl) hop
  cases he.symm.trans he'
  obtain ⟨_, he', -, hcommon⟩ := ctx.exists_operation_in_commonType (.inl hop) hbop hl hr
  cases he.symm.trans he'
  obtain rfl : t = k := HostType.int.inj (htype.symm.trans ((hcommon hop).trans hk))
  exact heval env _ _ hl hr

/-- What arithmetic gives for integers of one type it gives too, as the same number, where one of them may be null
and the other may not. -/
theorem exists_wider_arithmetic (ctx : Context) (hop : op.isArithmetic = true) (hk : a.width ≠ .uint64)
    (hsame : l.type = r.type) (hl : l.HasInt env a.width (some a.val)) (hr : r.HasInt env b.width (some b.val))
    (hl' : l'.HasInt env' a.width (some a.val)) (hr' : r'.HasInt env' b.width (some b.val)) {e e' : Expr}
    (he : ctx.binary op l r = .ok e) (he' : ctx.binary op l' r' = .ok e') (hv : e.eval env = .ok v) :
    ∃ w, e'.eval env' = .ok w ∧ w.asInt? = v.asInt? := by
  have hwidth : b.width = a.width := HostType.int.inj (hr.1.symm.trans (hsame ▸ hl.1))
  obtain ⟨k, hcommon, hholds⟩ := Bind.exists_commonType_holds hl'.1 (hwidth ▸ hr'.1) hk
  have hnarrow := ctx.isOrFails_of_arithmetic hop hk (hwidth ▸ hk) hl hr he ((if_pos hsame).trans hl.1)
  have hwide := ctx.isOrFails_of_arithmetic hop hk (hwidth ▸ hk) hl' hr' he' hcommon
  obtain ⟨w, hw, hnumber⟩ := QueryOp.computed?_of_holds hholds (hnarrow.eq_some hv)
  rw [hw] at hwide
  exact ⟨w, hwide, hnumber⟩

end Context

/-- **Nullability decides only about narrow widths.** Two numbers are the values of two pairs of expressions of
their integer types, each with null or not. Every operator of arithmetic and every comparison binds both pairs. The
outcomes are equal, errors included, if the numbers differ in width, if they have 32 or 64 bits with a sign, and if
both pairs or neither are of one type. In every case, 64 bits without a sign aside, comparisons agree, and what
arithmetic gives for a pair of one type it gives for the other pair too, as the same number, perhaps of a wider
type. -/
theorem nullability_decides_only_narrow_widths [External] {ctx : Context} {env env' : Env}
    {l r l' r' : Expr} {a b : SizedInt} (hop : op.isArithmetic = true ∨ op.isComparison = true)
    (hl : l.HasInt env a.width (some a.val)) (hr : r.HasInt env b.width (some b.val))
    (hl' : l'.HasInt env' a.width (some a.val)) (hr' : r'.HasInt env' b.width (some b.val)) :
    ∃ e e', ctx.binary op l r = .ok e ∧ ctx.binary op l' r' = .ok e' ∧
      ((a.width = b.width → a.width = .int32 ∨ a.width = .int64 ∨ (l.type = r.type ↔ l'.type = r'.type)) →
        e.eval env = e'.eval env') ∧
      (a.width ≠ .uint64 → b.width ≠ .uint64 →
        (op.isComparison = true → e.eval env = e'.eval env') ∧
        (l.type = r.type → ∀ v, e.eval env = .ok v → ∃ w, e'.eval env' = .ok w ∧ w.asInt? = v.asInt?)) := by
  obtain ⟨bop, hbop⟩ := QueryOp.exists_binaryOp hop
  obtain ⟨e, he, heval, -⟩ := ctx.exists_operation_in_commonType hop hbop hl hr
  obtain ⟨e', he', heval', -⟩ := ctx.exists_operation_in_commonType hop hbop hl' hr'
  refine ⟨e, e', he, he', fun hwidths => ?_, fun ha hb => ?_⟩
  · rw [heval, heval', Bind.commonType_congr hl.1 hr.1 hl'.1 hr'.1 hwidths]
  · have hcompared (hcomparison : op.isComparison = true) : e.eval env = e'.eval env' := by
      rw [ctx.eval_of_comparison hcomparison ha hb hl hr he, ctx.eval_of_comparison hcomparison ha hb hl' hr' he']
    refine ⟨hcompared, fun hsame v hv => ?_⟩
    rcases hop with harithmetic | hcomparison
    · exact ctx.exists_wider_arithmetic harithmetic ha hsame hl hr hl' hr' he he' hv
    · exact ⟨v, (hcompared hcomparison).symm.trans hv, rfl⟩

/-- A byte as a literal of its type, or of that with null. -/
def byteLiteral (n : UInt8) (nullable : Bool) : Expr :=
  .const (.int (.ofUInt8 n)) (if nullable then (HostType.int .byte).toNullable else .int .byte)

theorem hasInt_byteLiteral [External] (n : UInt8) (nullable : Bool) :
    (byteLiteral n nullable).HasInt [] (SizedInt.ofUInt8 n).width (some (SizedInt.ofUInt8 n).val) :=
  ⟨by cases nullable <;> rfl, (SizedInt.ofUInt8 n).fits, rfl⟩

/-- It does not matter which of two bytes may be null; and a sum that a byte holds is the same number if one of them
may be. -/
theorem nullability_decides_widths_of_bytes :
    (∃ e e', plainContext.binary .add (byteLiteral 200 true) (byteLiteral 100 false) = .ok e ∧
      plainContext.binary .add (byteLiteral 200 false) (byteLiteral 100 true) = .ok e' ∧
      e.eval [] = e'.eval []) ∧
    ∃ e e' w, plainContext.binary .add (byteLiteral 100 false) (byteLiteral 50 false) = .ok e ∧
      plainContext.binary .add (byteLiteral 100 true) (byteLiteral 50 false) = .ok e' ∧
      e'.eval [] = .ok w ∧ w.asInt? = some 150 := by
  constructor
  · obtain ⟨e, e', he, he', hsame, -⟩ := @nullability_decides_only_narrow_widths QueryOp.add _ plainContext
      [] [] _ _ _ _ _ _ (.inl rfl) (hasInt_byteLiteral 200 true) (hasInt_byteLiteral 100 false)
      (hasInt_byteLiteral 200 false) (hasInt_byteLiteral 100 true)
    exact ⟨e, e', he, he', hsame fun _ => .inr (.inr (by decide))⟩
  · obtain ⟨e, e', he, he', -, hwidths⟩ := @nullability_decides_only_narrow_widths QueryOp.add _ plainContext
      [] [] _ _ _ _ _ _ (.inl rfl) (hasInt_byteLiteral 100 false) (hasInt_byteLiteral 50 false)
      (hasInt_byteLiteral 100 true) (hasInt_byteLiteral 50 false)
    obtain ⟨-, hnumber⟩ := hwidths (by decide) (by decide)
    cases he
    obtain ⟨w, hw, hsum⟩ := hnumber rfl (.int (.ofUInt8 150)) rfl
    exact ⟨_, e', w, rfl, he', hw, hsum⟩

/-- A sum that no byte holds is an error if neither byte may be null, and a number of 32 bits if one may be. -/
theorem sums_of_bytes_depend_on_nullability :
    (∃ e, plainContext.binary .add (byteLiteral 200 false) (byteLiteral 100 false) = .ok e ∧
      e.eval [] = EvalError.fail (.overflow 300 (.int .byte))) ∧
    ∃ e, plainContext.binary .add (byteLiteral 200 true) (byteLiteral 100 false) = .ok e ∧
      e.eval [] = .ok (.int32 300) :=
  ⟨⟨_, rfl, rfl⟩, _, rfl, rfl⟩

end TypedQuery
