import TypedQuery.Proofs.Unguarded

/-!
# Operators with and without guards

With null propagation, comparisons are lifted and logic is not cut short. Where nothing is null, that does not
change a value. One type is an exception: integers of 64 bits without sign are compared as they are if both
operands have the same type, and as floats if the type of one of them has null.

* `Bind.unifyEnums_mirrors`, `Bind.logical_mirrors`, `Bind.TimeKey.project_mirrors`, `Bind.ordinal?_mirrors`:
  operands of one kind.
* **`Bind.promote_ordered`**: two operands are brought to one type with and without null propagation.
* **`Context.binary_mirrors`**: operators of logic and comparison.
-/

namespace TypedQuery

/-! ## Enumerations -/

namespace Bind

variable {s : Schema} {V : Env → Prop} {l₁ l₂ r₁ r₂ e₁ a₁ b₁ : Expr}

theorem enumLiteral_eq_ok (h : l₁.constValue? = l₂.constValue?) {enum : EnumType} {n : Int64}
    (hn : enumLiteral l₁ enum = .ok n) : enumLiteral l₂ enum = .ok n := by
  unfold enumLiteral at hn ⊢
  rw [h] at hn
  split at hn
  · exact hn
  · cases hn

/-- An operand next to a value of an enumeration. -/
theorem toUnderlying_mirrors [External] (h : Expr.Echoes s V l₁ l₂) {enum : EnumType}
    (ha : toUnderlying l₁ enum = .ok a₁) : ∃ a₂, toUnderlying l₂ enum = .ok a₂ ∧ Expr.Mirrors s V a₁ a₂ := by
  have hlike := h.type.nullableLike enum.underlying
  unfold toUnderlying at ha ⊢
  dsimp only at ha ⊢
  rw [(Expr.isOperand_iff.mp h.left).1, if_neg Bool.false_ne_true, h.type.asEnum?, h.type.isIntegral] at ha
  rw [(Expr.isOperand_iff.mp h.right).1, if_neg Bool.false_ne_true]
  split_ifs at ha ⊢ with henum hint
  · cases ha
    refine ⟨_, rfl, h.convert hlike fun v w hv hw => hv.convert hw (.inl (hv.isPlain ?_))⟩
    exact HostType.isAtomic_of_isValueType (HostType.isValueType_of_asEnum? henum)
  · cases ha
    refine ⟨_, rfl, h.convertTo hlike (fun v w hv hw => hv.convert hw (.inl (hv.isPlain ?_))) fun _ htype => ?_⟩
    · exact HostType.isAtomic_of_isValueType (HostType.isValueType_of_isIntegral hint)
    · rw [htype]
  · obtain ⟨n, hn, ha⟩ := Outcome.bind_eq_ok.mp ha
    obtain ⟨v, hv, ha⟩ := Outcome.bind_eq_ok.mp ha
    cases ha
    have hatom := Value.ofInt_nullSafe n.toInt enum.underlying
    rw [hv] at hatom
    have hsettled : s.Settles enum.underlying v :=
      .of_isAtom hatom.1 (Value.isInstanceOf_nonNullable (Value.ofInt_isInstanceOf hv))
    refine ⟨.const v enum.underlying, ?_, .refl ?_ fun _ _ _ hw => ?_⟩
    · rw [enumLiteral_eq_ok h.constValue hn, Outcome.ok_bind, hv]
      rfl
    · have hnull := hsettled.isNull
      cases v <;> first | rfl | cases hnull
    · cases hw
      exact hsettled

theorem unifyEnums_mirrors [External] (hl : Expr.Echoes s V l₁ l₂) (hr : Expr.Echoes s V r₁ r₂)
    (h : unifyEnums l₁ r₁ = .ok (a₁, b₁)) :
    ∃ a₂ b₂, unifyEnums l₂ r₂ = .ok (a₂, b₂) ∧ Expr.Mirrors s V a₁ a₂ ∧ Expr.Mirrors s V b₁ b₂ := by
  unfold unifyEnums at h ⊢
  rw [hl.type.asEnum?, hr.type.asEnum?] at h
  split at h
  next =>
    cases h
    exact ⟨l₂, r₂, rfl, hl.toMirrors, hr.toMirrors⟩
  next enum _ =>
    obtain ⟨a, ha, h⟩ := Outcome.bind_eq_ok.mp h
    obtain ⟨b, hb, h⟩ := Outcome.bind_eq_ok.mp h
    cases h
    obtain ⟨a₂, ha₂, ha⟩ := toUnderlying_mirrors hl ha
    obtain ⟨b₂, hb₂, hb⟩ := toUnderlying_mirrors hr hb
    refine ⟨a₂, b₂, ?_, ha, hb⟩
    rw [ha₂, hb₂]
    rfl

theorem unifyNulls_of_isOperand {l r : Expr} (hl : l.isOperand = true) (hr : r.isOperand = true) :
    unifyNulls l r = (l, r) := by
  unfold unifyNulls
  rw [(Expr.isOperand_iff.mp hl).1, (Expr.isOperand_iff.mp hr).1]

/-! ## Logic -/

theorem asBoolean_mirrors [External] (h : Expr.Mirrors s V l₁ l₂) (ha : asBoolean l₁ = .ok a₁) :
    ∃ a₂, asBoolean l₂ = .ok a₂ ∧ Expr.Mirrors s V a₁ a₂ ∧ a₁.type.isBool = true := by
  unfold asBoolean at ha ⊢
  rw [h.type.isBool, h.type.isObject] at ha
  split_ifs at ha ⊢ with hbool
  · cases ha
    exact ⟨l₂, rfl, h, h.type.isBool.trans hbool⟩
  · cases ha
    exact ⟨_, rfl, h.convert (.refl _) fun v w hv hw => hv.convert hw (.inr rfl), rfl⟩

/-- Conjunction and disjunction of two booleans, whatever types they have. -/
theorem eval_logical_of_bool [External] {op : BinaryOp} (hop : op.isLogical = true) {l r : Expr}
    {env : Env} {x y : Bool} (hl : l.eval env = .ok (.bool x)) (hr : r.eval env = .ok (.bool y)) :
    (Expr.mkBinary op l r false).eval env = .ok (.bool (if op = .andAlso then x && y else x || y)) := by
  simp only [Expr.mkBinary, Expr.eval, hl, hr, Outcome.ok_bind]
  rcases BinaryOp.eq_of_isLogical hop with rfl | rfl
  · rw [if_pos (rfl : BinaryOp.andAlso = .andAlso)]
    split_ifs <;> cases x <;> cases y <;> rfl
  · rw [if_neg (by decide : BinaryOp.orElse ≠ .andAlso)]
    split_ifs <;> cases x <;> cases y <;> rfl

theorem type_logical {op : BinaryOp} (hop : op.isLogical = true) (l r : Expr) :
    (Expr.mkBinary op l r false).type =
      if l.type.isNullableValueType || r.type.isNullableValueType then HostType.bool.toNullable else .bool :=
  BinaryOp.binaryType_logical hop _ _ _

section Logical

variable [External] {op : BinaryOp} (hop : op.isLogical = true) (ha : Expr.Mirrors s V l₁ l₂)
  (hb : Expr.Mirrors s V r₁ r₂)
include hop ha hb

/-- Logic that is cut short on both sides. -/
theorem shortCircuit_mirrors (hat : l₁.type = .bool) (hbt : r₁.type = .bool) :
    Expr.Mirrors s V (.mkBinary op l₁ r₁ false) (.mkBinary op l₂ r₂ false) := by
  have hlt : l₂.type = .bool := (ha.type.eq_of_not_isNullableValueType (by rw [hat]; rfl)).symm.trans hat
  have hrt : r₂.type = .bool := (hb.type.eq_of_not_isNullableValueType (by rw [hbt]; rfl)).symm.trans hbt
  have hleft : (Expr.mkBinary op l₁ r₁ false).type = .bool := by
    rw [type_logical hop, hat, hbt]
    rfl
  have hright : (Expr.mkBinary op l₂ r₂ false).type = .bool := by
    rw [type_logical hop, hlt, hrt]
    rfl
  refine .of_eval ?_ rfl rfl ?_ fun hnarrow env u henv hu => ?_
  · rw [hleft, hright]
    exact .refl _
  · rw [hleft]
    decide
  · obtain ⟨hna, hnb⟩ := Expr.isNarrow_mkBinary.mp hnarrow
    rw [Expr.eval_logical hop (by rw [hat]; rfl) (by rw [hbt]; rfl)] at hu
    rw [Expr.eval_logical hop (by rw [hlt]; rfl) (by rw [hrt]; rfl), hright]
    obtain ⟨v, hv, hu⟩ := Outcome.bind_eq_ok.mp hu
    obtain ⟨hv, hsettled⟩ := ha.eval hna henv hv
    obtain ⟨x, rfl⟩ := hsettled.exists_bool (by rw [hlt]; rfl)
    rw [hv, Outcome.ok_bind]
    unfold BinaryOp.shortCircuit at hu ⊢
    dsimp only at hu ⊢
    split_ifs at hu ⊢ with hdecided
    · cases hu
      exact ⟨rfl, .of_bool rfl _⟩
    · obtain ⟨w, hw, hu⟩ := Outcome.bind_eq_ok.mp hu
      obtain ⟨hw, hsettled⟩ := hb.eval hnb henv hw
      obtain ⟨y, rfl⟩ := hsettled.exists_bool (by rw [hrt]; rfl)
      cases hu
      rw [hw]
      exact ⟨rfl, .of_bool rfl _⟩

/-- Logic that is not cut short on the left: the right may look at fewer operands. -/
theorem joined_mirrors (hat : l₁.type = HostType.bool.toNullable) (hbt : r₁.type.isBool = true) :
    Expr.Mirrors s V (.mkBinary op l₁ r₁ false) (.mkBinary op l₂ r₂ false) := by
  have hlt : l₂.type.isBool = true := ha.type.isBool ▸ by rw [hat]; rfl
  have hrt : r₂.type.isBool = true := hb.type.isBool ▸ hbt
  have hleft : (Expr.mkBinary op l₁ r₁ false).type = HostType.bool.toNullable := by
    rw [type_logical hop, hat]
    rfl
  refine .of_eval ?_ rfl rfl ?_ fun hnarrow env u henv hu => ?_
  · rw [hleft, type_logical hop]
    split_ifs
    · exact .refl _
    · exact .inr rfl
  · rw [hleft]
    decide
  · obtain ⟨hna, hnb⟩ := Expr.isNarrow_mkBinary.mp hnarrow
    -- both operands have values, as the type of the left side has null
    have hvalues : ∃ v w, l₁.eval env = .ok v ∧ r₁.eval env = .ok w := by
      have htype : Expr.binaryType op l₁.type r₁.type false = HostType.bool.toNullable := hleft
      have hlong : (op.isLogical && !HostType.bool.toNullable.isNullableValueType) = false := by
        rw [hop]
        rfl
      simp only [Expr.mkBinary, Expr.eval, htype, hlong] at hu
      obtain ⟨v, hv, hu⟩ := Outcome.bind_eq_ok.mp hu
      obtain ⟨w, hw, -⟩ := Outcome.bind_eq_ok.mp hu
      exact ⟨v, w, hv, hw⟩
    obtain ⟨v, w, hv₁, hw₁⟩ := hvalues
    obtain ⟨hv, hsettledv⟩ := ha.eval hna henv hv₁
    obtain ⟨hw, hsettledw⟩ := hb.eval hnb henv hw₁
    obtain ⟨x, rfl⟩ := hsettledv.exists_bool hlt
    obtain ⟨y, rfl⟩ := hsettledw.exists_bool hrt
    rw [eval_logical_of_bool hop hv₁ hw₁] at hu
    cases hu
    refine ⟨eval_logical_of_bool hop hv hw, .of_bool ?_ _⟩
    rw [type_logical hop]
    split_ifs <;> rfl

end Logical

/-- A boolean brought to the type with null, on the left or on both sides. -/
theorem convertTo_bool_mirrors [External] (h : Expr.Mirrors s V l₁ l₂) {t : HostType}
    (ht : HostType.bool.toNullable.Lifts t) :
    Expr.Mirrors s V (l₁.convertTo HostType.bool.toNullable) (l₂.convertTo t) := by
  refine h.convertTo ht (fun v w hv hw => hv.convert hw (.inr ?_)) fun h => by cases h
  rw [← ht.nonNullable]
  rfl

/-- **Logic is cut short or not**: where nothing is null, that does not change a value. -/
theorem logical_mirrors [External] {op : BinaryOp} (hop : op.isLogical = true) (hl : Expr.Mirrors s V l₁ l₂)
    (hr : Expr.Mirrors s V r₁ r₂) (he : logical op l₁ r₁ = .ok e₁) :
    ∃ e₂, logical op l₂ r₂ = .ok e₂ ∧ Expr.Mirrors s V e₁ e₂ := by
  unfold logical at he ⊢
  obtain ⟨a₁, ha₁, he⟩ := Outcome.bind_eq_ok.mp he
  obtain ⟨b₁, hb₁, he⟩ := Outcome.bind_eq_ok.mp he
  obtain ⟨a₂, ha₂, ha, hat⟩ := asBoolean_mirrors hl ha₁
  obtain ⟨b₂, hb₂, hb, hbt⟩ := asBoolean_mirrors hr hb₁
  rw [ha₂, hb₂]
  dsimp only [Outcome.ok_bind] at he ⊢
  split_ifs at he with hnull
  · cases he
    have htype : (a₁.convertTo HostType.bool.toNullable).type = HostType.bool.toNullable ∧
        (b₁.convertTo HostType.bool.toNullable).type.isBool = true := by
      rw [Expr.type_convertTo, Expr.type_convertTo]
      exact ⟨rfl, rfl⟩
    split_ifs with hnull'
    · exact ⟨_, rfl, joined_mirrors hop (convertTo_bool_mirrors ha (.refl _))
        (convertTo_bool_mirrors hb (.refl _)) htype.1 htype.2⟩
    · simp only [Bool.not_eq_true, Bool.or_eq_false_iff] at hnull'
      have plain {x₁ x₂ : Expr} (hx : Expr.Mirrors s V x₁ x₂) (ht : x₁.type.isBool = true)
          (hnull : x₂.type.isNullableValueType = false) :
          Expr.Mirrors s V (x₁.convertTo HostType.bool.toNullable) x₂ := by
        have htype : x₂.type = .bool := type_of_isBool (hx.type.isBool ▸ ht) hnull
        have hself := convertTo_bool_mirrors hx (t := .bool) (.inr rfl)
        rwa [Expr.convertTo.eq_def x₂, if_pos htype] at hself
      exact ⟨_, rfl, joined_mirrors hop (plain ha hat hnull'.1) (plain hb hbt hnull'.2) htype.1 htype.2⟩
  · -- no type has null on this side, and so none has on the other one
    cases he
    simp only [Bool.not_eq_true, Bool.or_eq_false_iff] at hnull
    rw [← ha.type.eq_of_not_isNullableValueType hnull.1, ← hb.type.eq_of_not_isNullableValueType hnull.2,
      hnull.1, hnull.2, Bool.or_self, if_neg Bool.false_ne_true]
    exact ⟨_, rfl, shortCircuit_mirrors hop ha hb (type_of_isBool hat hnull.1) (type_of_isBool hbt hnull.2)⟩

theorem not_mirrors [External] (h : Expr.Mirrors s V l₁ l₂) (ht : l₁.type.isBool = true) :
    Expr.Mirrors s V (.mkUnary .not l₁) (.mkUnary .not l₂) := by
  have htype : l₂.type.isBool = true := h.type.isBool ▸ ht
  refine .of_eval h.type rfl rfl ?_ fun hnarrow env u henv hu => ?_
  · intro hwide
    have hbool : l₁.type.nonNullable = .bool := of_decide_eq_true ht
    rw [show (Expr.mkUnary .not l₁).type = l₁.type from rfl, hbool] at hwide
    cases hwide
  · obtain ⟨v, hv, hu⟩ := Outcome.bind_eq_ok.mp hu
    obtain ⟨hv, hsettled⟩ := h.eval hnarrow henv hv
    obtain ⟨b, rfl⟩ := hsettled.exists_bool htype
    cases hu
    refine ⟨?_, .of_bool htype _⟩
    rw [Expr.mkUnary, Expr.eval, hv]
    rfl

/-- A negation. -/
theorem unaryOperation_mirrors [External] (h : Expr.Mirrors s V l₁ l₂)
    (he : unaryOperation .not l₁ = .ok e₁) :
    ∃ e₂, unaryOperation .not l₂ = .ok e₂ ∧ Expr.Echoes s V e₁ e₂ := by
  unfold unaryOperation at he ⊢
  dsimp only at he ⊢
  rw [h.type.isBool, h.type.isObject] at he
  split_ifs at he ⊢ with hbool
  · cases he
    exact ⟨_, rfl, not_mirrors h (h.type.isBool.trans hbool), rfl⟩
  · cases he
    exact ⟨_, rfl, not_mirrors (h.convert (.refl _) fun v w hv hw => hv.convert hw (.inr rfl)) rfl, rfl⟩

/-! ## Dates and times -/

namespace TimeKey

theorem forTypes?_congr {a a' b b' : HostType} (ha : a.nonNullable = a'.nonNullable)
    (hb : b.nonNullable = b'.nonNullable) : forTypes? a b = forTypes? a' b' := by
  unfold forTypes?
  rw [ha, hb]

/-- The key depends on the value of the expression only. -/
theorem eval_key_congr [External] (k : TimeKey) {x y : Expr} {env : Env} (h : x.eval env = y.eval env) :
    (k.key x).eval env = (k.key y).eval env := by
  have hpart (f : ScalarFunction) : (Expr.mkScalar f [x]).eval env = (Expr.mkScalar f [y]).eval env := by
    rw [Expr.eval_mkScalar, Expr.eval_mkScalar, List.mapM_cons, List.mapM_cons, h]
  cases k with
  | date => simp only [key, datePart, Expr.mkBinary, Expr.eval, hpart]; rfl
  | time => simp only [key, timePart, Expr.mkBinary, Expr.eval, hpart]; rfl

theorem isNarrow_key {k : TimeKey} {e : Expr} (h : (k.key e).isNarrow = true) : e.isNarrow = true := by
  cases k <;>
    simp only [key, datePart, timePart, Expr.isNarrow_mkBinary, Expr.isNarrow_convert, Expr.mkScalar,
      Expr.isNarrow_mkCall, List.forall_mem_singleton] at h
  · exact h.2
  · exact h.2.1.2

theorem isNarrow_project {k : TimeKey} {e : Expr} (he : e.isOperand = true) (h : (k.project e).isNarrow = true) :
    e.isNarrow = true ∧ (k.key e).isNarrow = true := by
  unfold project at h
  rw [(Expr.isOperand_iff.mp he).1, if_neg Bool.false_ne_true] at h
  split_ifs at h
  · simp only [Expr.mkCond, Expr.isNarrow, Bool.and_eq_true] at h
    exact ⟨isNarrow_key h.2.2.2, h.2.2.2⟩
  · exact ⟨isNarrow_key h, h⟩

section Project

variable {k : TimeKey} {e : Expr} {env : Env} {v n : Value}

theorem isOperand_project (he : e.isOperand = true) : (k.project e).isOperand = true := by
  unfold project
  rw [(Expr.isOperand_iff.mp he).1, if_neg Bool.false_ne_true]
  split_ifs
  · rfl
  · cases k <;> rfl

theorem key_settles [External] (he : e.eval env = .ok v) (hv : k.Reads v) (hn : (k.key e).eval env = .ok n) :
    s.Settles k.type n := by
  have htyped := key_inRange (s := s) (E := fun _ => True) (fun _ _ => trivial) he hv
  rw [Expr.TypedAt, hn, type_key] at htyped
  exact .of_isValueType (Schema.isInstanceOf_of_admits htyped.1 htyped.2) (by cases k <;> rfl)

theorem exists_eval_of_project [External] (he : e.isNullConst = false) (hn : (k.project e).eval env = .ok n) :
    ∃ v, e.eval env = .ok v := by
  cases hv : e.eval env with
  | ok v => exact ⟨v, rfl⟩
  | error err =>
    rw [eval_project_of_error k he hv] at hn
    cases hn

end Project

/-- **Keys of dates and times.** -/
theorem project_mirrors [External] (k : TimeKey) (h : Expr.Mirrors s V l₁ l₂)
    (hreads : ∀ v, s.Settles l₂.type v → k.Reads v) : Expr.Mirrors s V (k.project l₁) (k.project l₂) := by
  have hleft := type_project (k := k) (Expr.isOperand_iff.mp h.left).1
  have hright := type_project (k := k) (Expr.isOperand_iff.mp h.right).1
  refine .of_eval ?_ (isOperand_project h.left) (isOperand_project h.right) ?_ fun hnarrow env n henv hn => ?_
  · rw [hleft, hright]
    exact h.type.nullableLike k.type
  · rw [hleft, HostType.nonNullable_nullableLike]
    cases k <;> decide
  · obtain ⟨v, hv₁⟩ := exists_eval_of_project (Expr.isOperand_iff.mp h.left).1 hn
    obtain ⟨hv, hsettled⟩ := h.eval (isNarrow_project h.left hnarrow).1 henv hv₁
    have hread := hreads v hsettled
    rw [eval_project hv₁ hsettled.isNull hread, eval_key_congr k (hv₁.trans hv.symm)] at hn
    rw [eval_project hv hsettled.isNull hread, hright]
    exact ⟨hn, (key_settles hv hread hn).congr (HostType.nonNullable_nullableLike _ _).symm⟩

end TimeKey

/-! ## Texts and bytes -/

section Ordinal

variable {op : BinaryOp}

theorem type_ordinal? {l r e : Expr} (hop : op.isComparison = true) (h : ordinal? op l r = some e) :
    e.type = .bool ∧ e.isOperand = true := by
  unfold ordinal? at h
  dsimp only at h
  split_ifs at h <;> cases h <;> refine ⟨?_, rfl⟩
  · simp [Expr.mkBinary, Expr.type, Expr.binaryType, hop]
  · rfl
  · rfl

theorem isNarrow_ordinal? {l r e : Expr} (h : ordinal? op l r = some e) (hnarrow : e.isNarrow = true) :
    l.isNarrow = true ∧ r.isNarrow = true := by
  unfold ordinal? at h
  dsimp only at h
  split_ifs at h <;> cases h
  all_goals
    simp only [Expr.mkUnary, Expr.isNarrow, Expr.isNarrow_mkBinary, Expr.mkScalar, Expr.isNarrow_mkCall,
      List.forall_mem_cons] at hnarrow
  · exact ⟨hnarrow.1.1, hnarrow.1.2.1⟩
  · exact ⟨hnarrow.1, hnarrow.2.1⟩
  · exact ⟨hnarrow.1, hnarrow.2.1⟩

/-- A comparison of texts or byte sequences is a function of their values. -/
theorem exists_eval_ordinal? [External] (hl : l₁.type = l₂.type) (hr : r₁.type = r₂.type)
    (h : ordinal? op l₁ r₁ = some e₁) :
    ∃ e₂, ordinal? op l₂ r₂ = some e₂ ∧ ∃ f : Value → Value → Outcome Value, ∀ env,
      (e₁.eval env = l₁.eval env >>= fun a => r₁.eval env >>= f a) ∧
      e₂.eval env = l₂.eval env >>= fun a => r₂.eval env >>= f a := by
  have compare {l r : Expr} (hop : op.isRelational = true) (env : Env) :
      (Expr.mkBinary op (.mkScalar .compare [l, r]) (.mkConst (.int32 0)) false).eval env =
        l.eval env >>= fun a => r.eval env >>= fun b => ScalarFunction.compare.apply [a, b] >>= fun o =>
          op.apply o (.int32 0) false (Expr.binaryType op (.int .int32) (.int .int32) false) := by
    have hlogical : op.isLogical = false := by cases op <;> first | rfl | cases hop
    rw [Expr.eval_mkBinary hlogical, Expr.eval_mkScalar_pair]
    cases l.eval env <;> [rfl; (cases r.eval env <;> rfl)]
  have negated {l r : Expr} (env : Env) : (Expr.mkUnary .not (.mkScalar .bytesEqual [l, r])).eval env =
      l.eval env >>= fun a => r.eval env >>= fun b =>
        ScalarFunction.bytesEqual.apply [a, b] >>= UnaryOp.not.apply := by
    rw [Expr.mkUnary, Expr.eval, Expr.eval_mkScalar_pair]
    cases l.eval env <;> [rfl; (cases r.eval env <;> rfl)]
  unfold ordinal? at h ⊢
  dsimp only at h ⊢
  rw [hl, hr] at h
  split_ifs at h ⊢ with hrelational
  · cases h
    have hop := (Bool.and_eq_true _ _ ▸ hrelational).1
    exact ⟨_, rfl, _, fun env => ⟨compare hop env, compare hop env⟩⟩
  · cases h
    exact ⟨_, rfl, _, fun env => ⟨negated env, negated env⟩⟩
  · cases h
    exact ⟨_, rfl, _, fun env => ⟨Expr.eval_mkScalar_pair _ _ _ env, Expr.eval_mkScalar_pair _ _ _ env⟩⟩

/-- Comparisons of texts and byte sequences. -/
theorem ordinal?_mirrors [External] (hop : op.isComparison = true) (hl : Expr.Mirrors s V l₁ l₂)
    (hr : Expr.Mirrors s V r₁ r₂) (h : ordinal? op l₁ r₁ = some e₁) :
    ∃ e₂, ordinal? op l₂ r₂ = some e₂ ∧ Expr.Mirrors s V e₁ e₂ := by
  have htypes : l₁.type = l₂.type ∧ r₁.type = r₂.type := by
    rcases areOrdinal_of_ordinal? h with ⟨hlt, hrt⟩ | ⟨hlt, hrt⟩
    all_goals exact ⟨hlt.trans ((hl.type.eq_iff rfl rfl).mp hlt).symm,
      hrt.trans ((hr.type.eq_iff rfl rfl).mp hrt).symm⟩
  obtain ⟨e₂, h₂, f, hf⟩ := exists_eval_ordinal? htypes.1 htypes.2 h
  obtain ⟨htype₁, hoperand₁⟩ := type_ordinal? hop h
  obtain ⟨htype₂, hoperand₂⟩ := type_ordinal? hop h₂
  refine ⟨e₂, h₂, .of_eval ?_ hoperand₁ hoperand₂ ?_ fun hnarrow env u henv hu => ?_⟩
  · rw [htype₁, htype₂]
    exact .refl _
  · rw [htype₁]
    decide
  · obtain ⟨hnl, hnr⟩ := isNarrow_ordinal? h hnarrow
    rw [(hf env).1] at hu
    obtain ⟨a, ha, hu⟩ := Outcome.bind_eq_ok.mp hu
    obtain ⟨b, hb, hu⟩ := Outcome.bind_eq_ok.mp hu
    obtain ⟨ha, hsa⟩ := hl.eval hnl henv ha
    obtain ⟨hb, hsb⟩ := hr.eval hnr henv hb
    have hvalue : e₂.eval env = .ok u := by rw [(hf env).2, ha, hb]; exact hu
    refine ⟨hvalue, ?_⟩
    have hkind : l₂.type.nonNullable.isNullableValueType = false ∧
        r₂.type.nonNullable.isNullableValueType = false := by
      rcases areOrdinal_of_ordinal? h₂ with ⟨hlt, hrt⟩ | ⟨hlt, hrt⟩ <;> rw [hlt, hrt] <;> exact ⟨rfl, rfl⟩
    have htyped := ordinal?_typed (E := fun _ => True) hop (Expr.typedAt_of_eval ha (hsa.admits hkind.1))
      (Expr.typedAt_of_eval hb (hsb.admits hkind.2)) h₂
    rw [Expr.TypedAt, hvalue, htype₂] at htyped
    rw [htype₂]
    exact .of_isValueType (Schema.isInstanceOf_of_admits htyped.1 htyped.2) rfl

theorem ordinal?_eq_none [External] (hl : Expr.Mirrors s V l₁ l₂) (hr : Expr.Mirrors s V r₁ r₂)
    (h : ordinal? op l₁ r₁ = none) : ordinal? op l₂ r₂ = none := by
  have hstring {x₁ x₂ : Expr} (hx : Expr.Mirrors s V x₁ x₂) : x₁.type.isString = x₂.type.isString := by
    simp only [HostType.isString, hx.type.eq_iff (w := .string) rfl rfl]
  have hbytes {x₁ x₂ : Expr} (hx : Expr.Mirrors s V x₁ x₂) : x₁.type.isBytes = x₂.type.isBytes := by
    simp only [HostType.isBytes, hx.type.eq_iff (w := .bytes) rfl rfl]
  unfold ordinal? at h ⊢
  dsimp only at h ⊢
  rw [hstring hl, hstring hr, hbytes hl, hbytes hr] at h
  split_ifs at h ⊢
  rfl

end Ordinal

/-! ## Promotion -/

theorem meet?_congr {a a' b b' : HostType} (ha : a.nonNullable = a'.nonNullable)
    (hb : b.nonNullable = b'.nonNullable) : meet? a b = meet? a' b' := by
  unfold meet? HostType.isNumeric
  rw [ha, hb]

/-- Two operands are brought to one type if one may have any type or their types meet. -/
theorem exists_promote_iff (l r : Expr) : (∃ p, promote l r = .ok p) ↔
    l.type.isObject = true ∨ r.type.isObject = true ∨ (meet? l.type r.type).isSome = true := by
  unfold promote
  split_ifs with htype hobject
  · refine iff_of_true ⟨_, rfl⟩ (.inr (.inr ?_))
    unfold meet?
    rw [htype, if_pos rfl]
    split_ifs <;> rfl
  · rw [Bool.or_eq_true] at hobject
    exact iff_of_true ⟨_, rfl⟩ (hobject.imp_right .inl)
  · rw [Bool.or_eq_true, not_or] at hobject
    cases hmeet : meet? l.type r.type with
    | none => simp [hobject]
    | some t => simp

/-- Where an environment has a property, the operands of the second pair have values that are ordered as those
of the first. -/
def OrderedAlike [External] (V : Env → Prop) (p q : Expr × Expr) : Prop :=
  p.1.isNarrow = true → p.2.isNarrow = true → ∀ {env v w}, V env → p.1.eval env = .ok v →
    p.2.eval env = .ok w → ∃ v' w', q.1.eval env = .ok v' ∧ q.2.eval env = .ok w' ∧ v.SameOrder w v' w'

/-- Operands are brought to one type as they are or by a conversion. -/
theorem Promotion.eq_or {l r : Expr} {p : Expr × Expr} (h : Promotion l r p) :
    p = (l, r) ∨ ∃ t, p = (l.convertTo t, r.convertTo t) := by
  cases h
  case same => exact .inl rfl
  all_goals exact .inr ⟨_, rfl⟩

theorem Promotion.isNarrow {l r : Expr} {p : Expr × Expr} (h : Promotion l r p) (hl : p.1.isNarrow = true)
    (hr : p.2.isNarrow = true) : l.isNarrow = true ∧ r.isNarrow = true := by
  rcases h.eq_or with rfl | ⟨t, rfl⟩
  · exact ⟨hl, hr⟩
  · exact ⟨(Expr.isNarrow_convertTo hl).1, (Expr.isNarrow_convertTo hr).1⟩

/-- Operands that have values after they are brought to one type have values before. -/
theorem Promotion.exists_eval [External] {l r : Expr} {p : Expr × Expr} (h : Promotion l r p) {env : Env}
    {v w : Value} (hv : p.1.eval env = .ok v) (hw : p.2.eval env = .ok w) :
    (∃ a, l.eval env = .ok a) ∧ ∃ b, r.eval env = .ok b := by
  rcases h.eq_or with rfl | ⟨t, rfl⟩
  · exact ⟨⟨v, hv⟩, w, hw⟩
  · exact ⟨Expr.exists_eval_of_convertTo hv, Expr.exists_eval_of_convertTo hw⟩

/-- Operands of one type, null aside, are ordered alike before and after they are brought to one type. -/
theorem Promotion.sameOrder [External] {l r : Expr} {p : Expr × Expr} (h : Promotion l r p)
    (hkind : l.type.nonNullable = r.type.nonNullable) (hwide : l.type.nonNullable ≠ .int .uint64) {env : Env}
    {v w : Value} (hv : l.eval env = .ok v) (hw : r.eval env = .ok w) (hsv : s.Settles l.type v)
    (hsw : s.Settles r.type w) :
    ∃ v' w', p.1.eval env = .ok v' ∧ p.2.eval env = .ok w' ∧ v.SameOrder w v' w' := by
  have converted {t : HostType} {v' w' : Value} (hv' : v.convert t = .ok v') (hw' : w.convert t = .ok w')
      (horder : v.SameOrder w v' w') : ∃ v' w', (l.convertTo t).eval env = .ok v' ∧
        (r.convertTo t).eval env = .ok w' ∧ v.SameOrder w v' w' :=
    ⟨v', w', (Expr.eval_convertTo hv hsv).trans hv', (Expr.eval_convertTo hw hsw).trans hw', horder⟩
  have hself := Value.SameOrder.refl hsv.isNull hsw.isNull
  cases h with
  | same => exact ⟨v, w, hv, hw, hself⟩
  | object => exact converted (convert_object v) (convert_object w) hself
  | numeric hl hr ht =>
    rw [← hkind] at ht
    obtain ⟨v', w', hv', hw', horder⟩ := hsv.exists_widened (hsw.congr hkind.symm) hl hwide ht
    exact converted hv' hw' horder
  | alike hl hr => exact converted (hsv.convert_self hl) (hsw.convert_self hr) hself
  | instants h =>
    rcases h with ⟨hl, hr⟩ | ⟨hl, hr⟩ <;> rw [hl, hr] at hkind <;> cases hkind

/-- Operands that are brought to one type on both sides have the same values. -/
theorem promote_eval [External] (hl : Expr.Mirrors s V l₁ l₂) (hr : Expr.Mirrors s V r₁ r₂)
    (hsame : l₁.type = r₁.type ↔ l₂.type = r₂.type) {p q : Expr × Expr} (hp : promote l₁ r₁ = .ok p)
    (hq : promote l₂ r₂ = .ok q) : OrderedAlike V p q := by
  have converted {t₁ t₂ : HostType} (ht : t₁.nonNullable = t₂.nonNullable) :
      OrderedAlike V (l₁.convertTo t₁, r₁.convertTo t₁) (l₂.convertTo t₂, r₂.convertTo t₂) := by
    intro hnl hnr env v w henv hv hw
    obtain ⟨hv, a, ha, hav⟩ := hl.eval_convertTo ht (Expr.isNarrow_convertTo hnl).1 henv hv
    obtain ⟨hw, b, hb, hbw⟩ := hr.eval_convertTo ht (Expr.isNarrow_convertTo hnr).1 henv hw
    exact ⟨v, w, hv, hw, .refl (Value.isNull_convert ha.isNull hav) (Value.isNull_convert hb.isNull hbw)⟩
  unfold promote at hp hq
  rw [← hl.type.isObject, ← hr.type.isObject, ← meet?_congr hl.type.nonNullable hr.type.nonNullable] at hq
  by_cases htype : l₁.type = r₁.type
  · rw [if_pos htype] at hp
    rw [if_pos (hsame.mp htype)] at hq
    cases hp
    cases hq
    intro hnl hnr env v w henv hv hw
    obtain ⟨hv, ha⟩ := hl.eval hnl henv hv
    obtain ⟨hw, hb⟩ := hr.eval hnr henv hw
    exact ⟨v, w, hv, hw, .refl ha.isNull hb.isNull⟩
  · rw [if_neg htype] at hp
    rw [if_neg (fun h => htype (hsame.mpr h))] at hq
    split_ifs at hp hq with hobject
    · cases hp
      cases hq
      exact converted rfl
    · cases hmeet : meet? l₁.type r₁.type with
      | none =>
        rw [hmeet] at hp
        cases hp
      | some t =>
        rw [hmeet] at hp hq
        cases hp
        cases hq
        refine converted ?_
        split_ifs <;> simp only [HostType.nonNullable_toNullable]

/-- **Operands are ordered alike after they are brought to one type**, which may have null on the left only. -/
theorem promote_ordered [External] (hl : Expr.Mirrors s V l₁ l₂) (hr : Expr.Mirrors s V r₁ r₂)
    {p : Expr × Expr} (hp : promote l₁ r₁ = .ok p) : ∃ q, promote l₂ r₂ = .ok q ∧ OrderedAlike V p q := by
  obtain ⟨q, hq⟩ : ∃ q, promote l₂ r₂ = .ok q := by
    have hok := (exists_promote_iff l₁ r₁).mp ⟨p, hp⟩
    rw [hl.type.isObject, hr.type.isObject, meet?_congr hl.type.nonNullable hr.type.nonNullable] at hok
    exact (exists_promote_iff l₂ r₂).mpr hok
  refine ⟨q, hq, fun hnl hnr env v w henv hv hw => ?_⟩
  have hpromotion := promote_cases hp
  have hnarrow := hpromotion.isNarrow hnl hnr
  by_cases hkind : l₁.type.nonNullable = r₁.type.nonNullable ∧ l₁.type.nonNullable ≠ .int .uint64
  · -- both sides are ordered as the operands are
    obtain ⟨⟨a, ha₁⟩, b, hb₁⟩ := hpromotion.exists_eval hv hw
    obtain ⟨ha, hsa⟩ := hl.eval hnarrow.1 henv ha₁
    obtain ⟨hb, hsb⟩ := hr.eval hnarrow.2 henv hb₁
    obtain ⟨v', w', hv', hw', horder⟩ := hpromotion.sameOrder hkind.1 hkind.2 ha₁ hb₁
      (hsa.congr hl.type.nonNullable.symm) (hsb.congr hr.type.nonNullable.symm)
    rw [hv] at hv'
    rw [hw] at hw'
    cases hv'
    cases hw'
    rw [hl.type.nonNullable, hr.type.nonNullable] at hkind
    obtain ⟨v', w', hv', hw', horder'⟩ := (promote_cases hq).sameOrder hkind.1 hkind.2 ha hb hsa hsb
    exact ⟨v', w', hv', hw', horder.symm.trans horder'⟩
  · -- types that differ do so on both sides, and wide integers have the same types there
    refine promote_eval hl hr ?_ hp hq hnl hnr henv hv hw
    by_cases hsame : l₁.type.nonNullable = r₁.type.nonNullable
    · have hwide : l₁.type.nonNullable = .int .uint64 := by
        by_contra hne
        exact hkind ⟨hsame, hne⟩
      rw [hl.wide hnarrow.1 hwide, hr.wide hnarrow.2 (hsame ▸ hwide)]
    · refine iff_of_false (fun h => hsame (by rw [h])) fun h => hsame ?_
      rw [hl.type.nonNullable, hr.type.nonNullable, h]

end Bind

/-! ## Operators -/

namespace Context

variable {ctx : Context} {s : Schema} {V : Env → Prop} {l₁ l₂ r₁ r₂ e₁ : Expr} {op : BinaryOp}

theorem type_operation (hop : op.isComparison = true) (ctx : Context) (l r : Expr) :
    HostType.Lifts (ctx.operation op l r).type .bool := by
  unfold operation
  simp only [Expr.mkBinary, Expr.type, Expr.binaryType, hop, if_true]
  split_ifs
  · exact .inr rfl
  · exact .refl _

/-- A comparison is lifted or not: where nothing is null, that does not change its value. -/
theorem operation_mirrors [External] (hop : op.isComparison = true) {p q : Expr × Expr}
    (h : Bind.OrderedAlike V p q) :
    Expr.Mirrors s V (ctx.operation op p.1 p.2) (ctx.unguarded.operation op q.1 q.2) := by
  have hlogical : op.isLogical = false := by cases op <;> first | rfl | cases hop
  have htype := type_operation hop ctx p.1 p.2
  have hright : (ctx.unguarded.operation op q.1 q.2) = .mkBinary op q.1 q.2 false := by
    unfold operation unguarded
    simp
  have hright' : (Expr.mkBinary op q.1 q.2 false).type = .bool := by
    simp [Expr.mkBinary, Expr.type, Expr.binaryType, hop]
  rw [hright]
  refine .of_eval ?_ rfl rfl ?_ fun hnarrow env u henv hu => ?_
  · rw [hright']
    exact htype
  · rw [htype.nonNullable]
    decide
  · unfold operation at hnarrow hu
    obtain ⟨hnl, hnr⟩ := Expr.isNarrow_mkBinary.mp hnarrow
    rw [Expr.eval_mkBinary hlogical] at hu
    obtain ⟨v, hv, hu⟩ := Outcome.bind_eq_ok.mp hu
    obtain ⟨w, hw, hu⟩ := Outcome.bind_eq_ok.mp hu
    obtain ⟨v', w', hv', hw', horder⟩ := h hnl hnr henv hv hw
    simp only [BinaryOp.apply, hlogical, hop, Bool.false_eq_true, if_false, if_true] at hu
    obtain ⟨hu, b, rfl⟩ := horder.compareValues hop hu
    rw [Expr.eval_mkBinary hlogical, hv', hw', hright']
    simp only [Outcome.ok_bind, BinaryOp.apply, hlogical, hop, Bool.false_eq_true, if_false, if_true]
    exact ⟨hu, .of_bool rfl b⟩

/-- **A comparison.** -/
theorem comparison_mirrors [External] (hop : op.isComparison = true) (hl : Expr.Mirrors s V l₁ l₂)
    (hr : Expr.Mirrors s V r₁ r₂) (he : ctx.comparison op l₁ r₁ = .ok e₁) :
    ∃ e₂, ctx.unguarded.comparison op l₂ r₂ = .ok e₂ ∧ Expr.Mirrors s V e₁ e₂ := by
  unfold comparison at he ⊢
  rw [Bind.TimeKey.forTypes?_congr hl.type.nonNullable hr.type.nonNullable] at he
  cases hkey : Bind.TimeKey.forTypes? l₂.type r₂.type with
  | some k =>
    rw [hkey] at he
    obtain ⟨p, hp, he⟩ := Outcome.bind_eq_ok.mp he
    cases he
    have hreadl (v : Value) (hv : s.Settles l₂.type v) := Bind.TimeKey.reads_of_isInstanceOf hkey (.inl hv.typed)
    have hreadr (v : Value) (hv : s.Settles r₂.type v) := Bind.TimeKey.reads_of_isInstanceOf hkey (.inr hv.typed)
    obtain ⟨q, hq, horder⟩ := Bind.promote_ordered (k.project_mirrors hl hreadl) (k.project_mirrors hr hreadr) hp
    refine ⟨ctx.unguarded.operation op q.1 q.2, ?_, operation_mirrors hop horder⟩
    dsimp only
    rw [hq]
    rfl
  | none =>
    rw [hkey] at he
    dsimp only at he ⊢
    cases hordinal : Bind.ordinal? op l₁ r₁ with
    | some e =>
      rw [hordinal] at he
      cases he
      obtain ⟨e₂, h₂, hmirrors⟩ := Bind.ordinal?_mirrors hop hl hr hordinal
      rw [h₂]
      exact ⟨e₂, rfl, hmirrors⟩
    | none =>
      rw [hordinal] at he
      rw [Bind.ordinal?_eq_none hl hr hordinal]
      obtain ⟨p, hp, he⟩ := Outcome.bind_eq_ok.mp he
      cases he
      obtain ⟨q, hq, horder⟩ := Bind.promote_ordered hl hr hp
      refine ⟨ctx.unguarded.operation op q.1 q.2, ?_, operation_mirrors hop horder⟩
      dsimp only
      rw [hq]
      rfl

theorem constValue?_comparison {l r e : Expr} (he : ctx.comparison op l r = .ok e) : e.constValue? = none := by
  rcases comparison_cases he with ⟨_, _, _, _, rfl⟩ | hordinal | ⟨_, _, rfl⟩
  · rfl
  · unfold Bind.ordinal? at hordinal
    dsimp only at hordinal
    split_ifs at hordinal <;> cases hordinal <;> rfl
  · rfl

theorem constValue?_logical {l r e : Expr} (he : Bind.logical op l r = .ok e) : e.constValue? = none := by
  unfold Bind.logical at he
  obtain ⟨_, _, he⟩ := Outcome.bind_eq_ok.mp he
  obtain ⟨_, _, he⟩ := Outcome.bind_eq_ok.mp he
  dsimp only at he
  split_ifs at he <;> cases he <;> rfl

/-- **An operator** of logic or comparison. -/
theorem binary_mirrors [External] {op : QueryOp} (hop : op.isLogical = true ∨ op.isComparison = true)
    (hl : Expr.Echoes s V l₁ l₂) (hr : Expr.Echoes s V r₁ r₂) (he : ctx.binary op l₁ r₁ = .ok e₁) :
    ∃ e₂, ctx.unguarded.binary op l₂ r₂ = .ok e₂ ∧ Expr.Echoes s V e₁ e₂ := by
  obtain ⟨b, hb, hkind⟩ : ∃ b, op.binaryOp? = some b ∧ (b.isLogical = true ∨ b.isComparison = true) := by
    cases op <;> first | exact ⟨_, rfl, by decide⟩ | (revert hop; decide)
  unfold binary at he ⊢
  rw [hb] at he ⊢
  obtain ⟨⟨a₁, c₁⟩, hunified, he⟩ := Outcome.bind_eq_ok.mp he
  obtain ⟨a₂, c₂, hunified₂, ha, hc⟩ := Bind.unifyEnums_mirrors hl hr hunified
  dsimp only at he ⊢
  rw [hunified₂]
  rw [Bind.unifyNulls_of_isOperand ha.left hc.left] at he
  simp only [Outcome.ok_bind, Bind.unifyNulls_of_isOperand ha.right hc.right]
  dsimp only at he
  split_ifs at he ⊢ with hlogical hcomparison
  · obtain ⟨e₂, he₂, hmirrors⟩ := Bind.logical_mirrors hlogical ha hc he
    exact ⟨e₂, he₂, hmirrors, by rw [constValue?_logical he, constValue?_logical he₂]⟩
  · obtain ⟨e₂, he₂, hmirrors⟩ := comparison_mirrors hcomparison ha hc he
    exact ⟨e₂, he₂, hmirrors, by rw [constValue?_comparison he, constValue?_comparison he₂]⟩
  · rcases hkind with h | h
    · exact absurd h hlogical
    · exact absurd h hcomparison

end Context

end TypedQuery
