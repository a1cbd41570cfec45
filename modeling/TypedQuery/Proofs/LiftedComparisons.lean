import TypedQuery.Proofs.LiftedOperands

/-!
# Comparisons of operands with null and without

A comparison of operands whose types have null on one side and not on the other has the same value on both
sides: dates and times become keys, operands of different types are brought to one, and the comparison is lifted
on one side as on the other wherever an operand is null.

* `Bind.TimeKey.project_coincides`, `Bind.ordinal?_coincides`: dates, times, texts and byte sequences.
* `Context.operation_alike_at`: two operands that have values, by `Context.operation_alike_of_null` and
  `Context.operation_alike_of_ne`.
* **`Context.comparison_coincides`**, `Context.binary_coincides`: a comparison.
* `Context.exists_eval_of_comparison`: a comparison has a value only where its operands have.
-/

namespace TypedQuery

/-! ## Dates, times and texts -/

namespace Bind

variable {W : Env → Prop} {l₁ l₂ r₁ r₂ x₁ x₂ e e₁ : Expr} {env : Env}

namespace TimeKey

/-- Keys of dates and times. -/
theorem project_coincides [External] (k : TimeKey) (h : Expr.Coincides W x₁ x₂)
    (hkind : x₂.type.isNullableValueType = false → x₂.type.isValueType = true)
    (hreads : ∀ v : Value, v.isInstanceOf x₂.type.nonNullable = true → k.Reads v) :
    Expr.Coincides W (k.project x₁) (k.project x₂) := by
  cases hconst : x₂.isNullConst with
  | true =>
    unfold project
    rw [h.isNullConst, hconst, if_pos rfl, if_pos rfl]
    exact .mkNull (.refl _)
  | false =>
    have hconst₁ := h.isNullConst.trans hconst
    have htype := type_project (k := k) hconst
    refine ⟨?_, ?_, fun hc => ?_, fun env henv => ?_⟩
    · rw [type_project hconst₁, htype]
      exact h.type.nullableLike k.type
    · rw [isNullConst_project hconst₁, isNullConst_project hconst]
    · rw [isNullConst_project hconst] at hc
      cases hc
    · have alike {v : Value} (hv : x₂.eval env = .ok v) :
          ((k.project x₁).eval env).Alike (fun n m => n = m ∧ m.Suits (k.project x₂).type)
            ((k.project x₂).eval env) := by
        obtain ⟨v', hv₁, rfl, hsuits⟩ := (h.eval env henv).exists_left hv
        cases hnull : v'.isNull with
        | true =>
          obtain rfl := Value.eq_null hnull
          have hnullable := hsuits.null rfl
          have hlifted := HostType.isNullableValueType_of_isNullable hnullable hkind
          rw [eval_project_of_null k hconst hlifted hv, eval_project_of_null k hconst₁
            (by rw [h.type.isNullableValueType hlifted, hlifted]) hv₁]
          refine ⟨rfl, .of_null ?_⟩
          rw [htype, HostType.nullableLike, if_pos hlifted]
          exact k.type.isNullable_toNullable
        | false =>
          have hread := hreads v' (hsuits.typed hnull)
          rw [eval_project hv₁ hnull hread, eval_project hv hnull hread, eval_key_congr k (hv₁.trans hv.symm)]
          refine .self fun n hn => ⟨rfl, .of_isInstanceOf ?_⟩
          have hsettled : Schema.empty.Settles k.type n := key_settles hv hread hn
          have hkey := hsettled.typed
          rwa [htype, HostType.nonNullable_nullableLike]
      refine .of_exists (fun n hn => ?_) fun n hn => ?_
      · obtain ⟨v, hv⟩ := exists_eval_of_project hconst₁ hn
        obtain ⟨w, hw, -⟩ := (h.eval env henv).exists_right hv
        exact (alike hw).exists_right hn
      · obtain ⟨v, hv⟩ := exists_eval_of_project hconst hn
        exact ((alike hv).exists_left hn).imp fun _ => And.left

theorem forTypes?_of_nonNullable {a b : HostType} (h : a.nonNullable = b.nonNullable) : forTypes? a b = none := by
  unfold forTypes?
  exact if_pos h

/-- Pairs of operands as pairs of keys. -/
theorem project_pairs [External] {k : TimeKey} (h : Pairs W (l₁, r₁) (l₂, r₂))
    (hk : forTypes? l₂.type r₂.type = some k) :
    Pairs W (k.project l₁, k.project r₁) (k.project l₂, k.project r₂) := by
  obtain ⟨hl, hr, hbl, hbr⟩ := h
  dsimp only at hl hr hbl hbr
  obtain ⟨hlt, hrt⟩ := forTypes?_eq_some hk
  have hkind : l₂.type.nonNullable ≠ r₂.type.nonNullable := fun heq => by
    rw [forTypes?_of_nonNullable heq] at hk
    cases hk
  have balanced {x₁ x₂ y₂ : Expr} (hx : Expr.Coincides W x₁ x₂) (h : Balanced x₁ x₂ y₂)
      (hne : x₂.type.nonNullable ≠ y₂.type.nonNullable) :
      Balanced (k.project x₁) (k.project x₂) (k.project y₂) := by
    intro htype
    cases hconst : x₂.isNullConst with
    | true =>
      unfold project at htype
      rw [hx.isNullConst, hconst, if_pos rfl, if_pos rfl] at htype
      exact absurd rfl htype
    | false =>
      rw [type_project hconst, type_project (hx.isNullConst.trans hconst)] at htype
      have hxt : x₁.type ≠ x₂.type := fun heq => htype (by rw [heq])
      refine ⟨?_, fun hc => ?_⟩
      · rw [type_project hconst, HostType.nonNullable_nullableLike]
        cases k <;> decide
      · have hy : y₂.isNullConst = true := by
          by_contra hnot
          rw [isNullConst_project (by simpa using hnot)] at hc
          cases hc
        have hyt := ((h hxt).2 hy).1
        rw [hyt, HostType.nonNullable_toNullable] at hne
        exact absurd rfl hne
  exact ⟨k.project_coincides hl hlt fun v hv => reads_of_isInstanceOf hk (.inl hv),
    k.project_coincides hr hrt fun v hv => reads_of_isInstanceOf hk (.inr hv), balanced hl hbl hkind,
    balanced hr hbr (Ne.symm hkind)⟩

end TimeKey

/-- A comparison of texts or byte sequences is a boolean. -/
theorem exists_bool_of_ordinal? [External] {op : BinaryOp} (hop : op.isComparison = true) {l r : Expr}
    (h : ordinal? op l r = some e) {u : Value} (hu : e.eval env = .ok u) : ∃ x, u = .bool x := by
  have equal {a b v : Value} (h : ScalarFunction.bytesEqual.apply [a, b] = .ok v) : ∃ x, v = .bool x := by
    simp only [ScalarFunction.apply, ScalarFunction.text?, ScalarFunction.temporal?, Option.orElse_eq_or,
      Option.none_or] at h
    cases hcompare : ScalarFunction.comparison? .bytesEqual [a, b] <;> rw [hcompare] at h <;> cases h
    unfold ScalarFunction.comparison? at hcompare
    split at hcompare <;> first | (cases hcompare; exact ⟨_, rfl⟩) | simp_all
  unfold ordinal? at h
  dsimp only at h
  split_ifs at h with hrelational hbytes hne
  · cases h
    have hlogical : op.isLogical = false := by cases op <;> first | rfl | cases hop
    rw [Expr.eval_mkBinary hlogical] at hu
    obtain ⟨a, -, hu⟩ := Outcome.bind_eq_ok.mp hu
    obtain ⟨b, -, hu⟩ := Outcome.bind_eq_ok.mp hu
    simp only [BinaryOp.apply, hlogical, hop, Bool.false_eq_true, if_false, if_true] at hu
    exact (BinaryOp.compareValues_suits hop hu).exists_bool
  · cases h
    rw [Expr.mkUnary, Expr.eval, Expr.eval_mkScalar_pair] at hu
    obtain ⟨v, hv, hu⟩ := Outcome.bind_eq_ok.mp hu
    obtain ⟨a, -, hv⟩ := Outcome.bind_eq_ok.mp hv
    obtain ⟨b, -, hv⟩ := Outcome.bind_eq_ok.mp hv
    obtain ⟨x, rfl⟩ := equal hv
    cases hu
    exact ⟨_, rfl⟩
  · cases h
    rw [Expr.eval_mkScalar_pair] at hu
    obtain ⟨a, -, hu⟩ := Outcome.bind_eq_ok.mp hu
    obtain ⟨b, -, hu⟩ := Outcome.bind_eq_ok.mp hu
    exact equal hu

/-- Comparisons of texts and byte sequences, which have the same types on both sides. -/
theorem ordinal?_coincides [External] {op : BinaryOp} (hop : op.isComparison = true)
    (hl : Expr.Coincides W l₁ l₂) (hr : Expr.Coincides W r₁ r₂) :
    (ordinal? op l₁ r₁ = none ∧ ordinal? op l₂ r₂ = none) ∨
      ∃ e₁ e₂, ordinal? op l₁ r₁ = some e₁ ∧ ordinal? op l₂ r₂ = some e₂ ∧ Expr.Coincides W e₁ e₂ := by
  have hnone : ordinal? op l₁ r₁ = none → ordinal? op l₂ r₂ = none := by
    have hstring {x₁ x₂ : Expr} (hx : Expr.Coincides W x₁ x₂) : x₁.type.isString = x₂.type.isString := by
      simp only [HostType.isString, hx.type.eq_iff (w := .string) rfl rfl]
    have hbytes {x₁ x₂ : Expr} (hx : Expr.Coincides W x₁ x₂) : x₁.type.isBytes = x₂.type.isBytes := by
      simp only [HostType.isBytes, hx.type.eq_iff (w := .bytes) rfl rfl]
    intro h
    unfold ordinal? at h ⊢
    dsimp only at h ⊢
    rw [hstring hl, hstring hr, hbytes hl, hbytes hr] at h
    split_ifs at h ⊢
    rfl
  cases h₁ : ordinal? op l₁ r₁ with
  | none => exact .inl ⟨rfl, hnone h₁⟩
  | some e₁ =>
    have htypes : l₁.type = l₂.type ∧ r₁.type = r₂.type := by
      rcases areOrdinal_of_ordinal? h₁ with ⟨hlt, hrt⟩ | ⟨hlt, hrt⟩
      all_goals exact ⟨hlt.trans ((hl.type.eq_iff rfl rfl).mp hlt).symm,
        hrt.trans ((hr.type.eq_iff rfl rfl).mp hrt).symm⟩
    obtain ⟨e₂, h₂, f, hf⟩ := exists_eval_ordinal? htypes.1 htypes.2 h₁
    obtain ⟨htype₁, hoperand₁⟩ := type_ordinal? hop h₁
    obtain ⟨htype₂, hoperand₂⟩ := type_ordinal? hop h₂
    have hconst := (Expr.isOperand_iff.mp hoperand₂).1
    refine .inr ⟨e₁, e₂, rfl, h₂, ?_, ?_, fun hc => ?_, fun env henv => ?_⟩
    · rw [htype₁, htype₂]
      exact .refl _
    · rw [hconst, (Expr.isOperand_iff.mp hoperand₁).1]
    · rw [hconst] at hc
      cases hc
    · have hvalues : (e₁.eval env).Alike Eq (e₂.eval env) := by
        rw [(hf env).1, (hf env).2]
        refine (hl.eval env henv).bind fun a a' ha => (hr.eval env henv).bind fun b b' hb => ?_
        obtain ⟨rfl, -⟩ := ha
        obtain ⟨rfl, -⟩ := hb
        exact .self fun _ _ => rfl
      refine .of_exists (fun u hu => ?_) fun u hu => (hvalues.exists_left hu).imp fun _ => And.left
      obtain ⟨x, rfl⟩ := exists_bool_of_ordinal? hop h₁ hu
      obtain ⟨_, hu, rfl⟩ := hvalues.exists_right hu
      refine ⟨_, hu, rfl, .of_isInstanceOf ?_⟩
      rw [htype₂]
      rfl

/-- Operands that have values have values after promotion, and these are null where those were. -/
theorem exists_eval_of_promote [External] {p : Expr × Expr} {a b : Value} (hp : promote l₁ r₁ = .ok p)
    (hl : l₁.eval env = .ok a) (hr : r₁.eval env = .ok b) (ha : a.Suits l₁.type) (hb : b.Suits r₁.type)
    (hlk : l₁.type.nonNullable.isValueType = true) (hrk : r₁.type.nonNullable.isValueType = true) :
    ∃ v w, p.1.eval env = .ok v ∧ p.2.eval env = .ok w ∧ v.isNull = a.isNull ∧ w.isNull = b.isNull := by
  obtain ⟨hleft, hright, -⟩ := promote_typed (s := .empty) (E := fun _ => False)
    (Expr.typedAt_of_eval hl (ha.admits hlk)) (Expr.typedAt_of_eval hr (hb.admits hrk)) hp
  obtain ⟨v, hv, hvn⟩ := hleft.exists_eval
  obtain ⟨w, hw, hwn⟩ := hright.exists_eval
  exact ⟨v, w, hv, hw, hvn, hwn⟩

end Bind

/-! ## Comparisons -/

namespace Context

variable {ctx : Context} {W : Env → Prop} {op : BinaryOp} {l r l₁ l₂ r₁ r₂ x₁ x₂ y₁ y₂ : Expr} {env : Env}

/-- Whether a comparison is lifted. -/
def lifts (ctx : Context) (op : BinaryOp) (l r : Expr) : Bool :=
  op.isComparison && ctx.settings.nullPropagation && l.type.isNullableValueType
    && r.type.isNullableValueType && !l.isNullConst && !r.isNullConst

theorem operation_eq (ctx : Context) (op : BinaryOp) (l r : Expr) :
    ctx.operation op l r = .mkBinary op l r (ctx.lifts op l r) := rfl

section Comparison

variable (hop : op.isComparison = true)
include hop

theorem type_operation_eq (l r : Expr) :
    (ctx.operation op l r).type = if ctx.lifts op l r then HostType.bool.toNullable else .bool := by
  rw [operation_eq]
  simp only [Expr.mkBinary, Expr.type, Expr.binaryType, hop, if_true]

theorem eval_operation [External] (l r : Expr) (env : Env) : (ctx.operation op l r).eval env =
    l.eval env >>= fun a => r.eval env >>= fun b => op.compareValues a b (ctx.lifts op l r) := by
  have hlogical : op.isLogical = false := by cases op <;> first | rfl | cases hop
  rw [operation_eq, Expr.eval_mkBinary hlogical]
  simp only [BinaryOp.apply, hlogical, hop, Bool.false_eq_true, if_false, if_true]

theorem operation_coincides_of [External] (hlifts : ctx.lifts op x₂ y₂ = true → ctx.lifts op x₁ y₁ = true)
    (heval : ∀ env, W env → ((ctx.operation op x₁ y₁).eval env).Alike Eq ((ctx.operation op x₂ y₂).eval env)) :
    Expr.Coincides W (ctx.operation op x₁ y₁) (ctx.operation op x₂ y₂) where
  type := by
    rw [type_operation_eq hop, type_operation_eq hop]
    split_ifs with h₁ h₂ h₂
    · exact .refl _
    · exact .inr rfl
    · exact absurd (hlifts h₂) h₁
    · exact .refl _
  isNullConst := rfl
  nullable h := by cases h
  eval env henv := by
    refine .of_exists (fun u hu => ?_) fun u hu => ((heval env henv).exists_left hu).imp fun _ => And.left
    obtain ⟨u', hu', rfl⟩ := (heval env henv).exists_right hu
    refine ⟨u, hu', rfl, ?_⟩
    rw [eval_operation hop] at hu'
    obtain ⟨a, -, hu'⟩ := Outcome.bind_eq_ok.mp hu'
    obtain ⟨b, -, hu'⟩ := Outcome.bind_eq_ok.mp hu'
    rw [type_operation_eq hop]
    exact BinaryOp.compareValues_suits hop hu'

/-- Operands that have the same types on both sides. -/
theorem operation_of_types [External] (hx : Expr.Coincides W x₁ x₂) (hy : Expr.Coincides W y₁ y₂)
    (hxt : x₁.type = x₂.type)
    (hyt : y₁.type = y₂.type) : Expr.Coincides W (ctx.operation op x₁ y₁) (ctx.operation op x₂ y₂) := by
  have hlifts : ctx.lifts op x₁ y₁ = ctx.lifts op x₂ y₂ := by
    unfold lifts
    rw [hxt, hyt, hx.isNullConst, hy.isNullConst]
  refine operation_coincides_of hop (fun h => hlifts.trans h) fun env henv => ?_
  rw [eval_operation hop, eval_operation hop, hlifts]
  refine (hx.eval env henv).bind fun a a' ha => (hy.eval env henv).bind fun b b' hb => ?_
  obtain ⟨rfl, -⟩ := ha
  obtain ⟨rfl, -⟩ := hb
  exact .self fun _ _ => rfl

section Uneven

variable [External] {p q : Expr × Expr} (h : Bind.Pairs W (l₁, r₁) (l₂, r₂)) (hp : Bind.promote l₁ r₁ = .ok p)
  (hq : Bind.promote l₂ r₂ = .ok q) (hne : ¬(l₁.type = l₂.type ∧ r₁.type = r₂.type))
  (hobject : (l₂.type.isObject || r₂.type.isObject) = false)
include h hp hq hne hobject

omit hop in
/-- The types of operands after promotion on both sides. -/
theorem types_promoted :
    (p.1.type = p.2.type ∧
      p.1.type.isNullableValueType = (l₁.type.isNullableValueType || r₁.type.isNullableValueType)) ∧
    q.1.type = q.2.type ∧
      q.1.type.isNullableValueType = (l₂.type.isNullableValueType || r₂.type.isNullableValueType) := by
  have hkind := h.isValueType_or hne
  have hkind₁ : l₁.type.nonNullable.isValueType = true ∨ r₁.type.nonNullable.isValueType = true := by
    rwa [h.left.type.nonNullable, h.right.type.nonNullable]
  have hobject₁ : (l₁.type.isObject || r₁.type.isObject) = false := by
    rw [h.left.type.isObject, h.right.type.isObject, hobject]
  exact ⟨(Bind.type_promoted hp hobject₁ hkind₁).2, (Bind.type_promoted hq hobject hkind).2⟩

omit hop in
/-- A comparison is lifted alike if an operand has null on the right side. -/
theorem lifts_promoted (hnull : l₂.type.isNullableValueType = true ∨ r₂.type.isNullableValueType = true) :
    ctx.lifts op p.1 p.2 = ctx.lifts op q.1 q.2 := by
  obtain ⟨⟨hptype, hpnull⟩, hqtype, hqnull⟩ := types_promoted h hp hq hne hobject
  have hleft : (l₁.type.isNullableValueType || r₁.type.isNullableValueType) = true := by
    have lifted {x₁ x₂ : Expr} (hx : Expr.Coincides W x₁ x₂) (ht : x₂.type.isNullableValueType = true) :
        x₁.type.isNullableValueType = true := by
      rw [hx.type.isNullableValueType ht]
      exact ht
    rw [Bool.or_eq_true]
    exact hnull.imp (lifted h.left) (lifted h.right)
  rw [← Bool.or_eq_true] at hnull
  unfold lifts
  rw [← hptype, ← hqtype, hpnull, hqnull, hleft, hnull, h.isNullConst_left hp hq hne hobject,
    h.isNullConst_right hp hq hne hobject]

section Values

variable {a b : Value} (hl₁ : l₁.eval env = .ok a) (hl₂ : l₂.eval env = .ok a) (hr₁ : r₁.eval env = .ok b)
  (hr₂ : r₂.eval env = .ok b) (ha : a.Suits l₂.type) (hb : b.Suits r₂.type)
include hl₁ hl₂ hr₁ hr₂ ha hb

/-- A comparison with null is lifted on both sides or on none. -/
theorem operation_alike_of_null (hnull : a.isNull = true ∨ b.isNull = true) :
    ((ctx.operation op p.1 p.2).eval env).Alike Eq ((ctx.operation op q.1 q.2).eval env) := by
  obtain ⟨hlk, hrk⟩ := h.isValueType hq hne hobject
  have hlifts : ctx.lifts op p.1 p.2 = ctx.lifts op q.1 q.2 := by
    refine lifts_promoted h hp hq hne hobject (hnull.imp (fun hn => ?_) fun hn => ?_)
    · exact HostType.isNullableValueType_of_isValueType (ha.null hn) hlk
    · exact HostType.isNullableValueType_of_isValueType (hb.null hn) hrk
  obtain ⟨v, w, hv, hw, hvn, hwn⟩ := Bind.exists_eval_of_promote hp hl₁ hr₁ (ha.lift h.left.type)
    (hb.lift h.right.type) (h.left.type.nonNullable ▸ hlk) (h.right.type.nonNullable ▸ hrk)
  obtain ⟨v', w', hv', hw', hvn', hwn'⟩ := Bind.exists_eval_of_promote hq hl₂ hr₂ ha hb hlk hrk
  have hcompare : (a.isNull || b.isNull) = true := by rwa [Bool.or_eq_true]
  rw [eval_operation hop, eval_operation hop]
  simp only [hv, hw, hv', hw', Outcome.ok_bind, BinaryOp.compareValues, hvn, hwn, hvn', hwn', hcompare, if_true,
    hlifts]
  exact rfl

variable (hna : a.isNull = false) (hnb : b.isNull = false)
include hna hnb

/-- Operands of one type are ordered as their values are, on both sides. -/
theorem operation_alike_of_kind (hkind : l₂.type.nonNullable = r₂.type.nonNullable) :
    ((ctx.operation op p.1 p.2).eval env).Alike Eq ((ctx.operation op q.1 q.2).eval env) := by
  obtain ⟨hlk, hrk⟩ := h.isValueType hq hne hobject
  have hsa : Schema.empty.Settles l₂.type a := ha.settles hna hlk
  have hsb : Schema.empty.Settles r₂.type b := hb.settles hnb hrk
  have hwide : l₂.type.nonNullable ≠ .int .uint64 := by
    rw [not_and_or] at hne
    rcases hne with hl | hr
    · exact (h.balancedLeft hl).1
    · rw [hkind]
      exact (h.balancedRight hr).1
  obtain ⟨v, w, hv, hw, horder⟩ := (Bind.promote_cases hp).sameOrder
    (by rw [h.left.type.nonNullable, h.right.type.nonNullable, hkind]) (h.left.type.nonNullable ▸ hwide) hl₁ hr₁
    (hsa.congr h.left.type.nonNullable.symm) (hsb.congr h.right.type.nonNullable.symm)
  obtain ⟨v', w', hv', hw', horder'⟩ := (Bind.promote_cases hq).sameOrder hkind hwide hl₂ hr₂ hsa hsb
  rw [eval_operation hop, eval_operation hop]
  simp only [hv, hw, hv', hw', Outcome.ok_bind]
  exact (horder.symm.trans horder').compareValues_alike hop _ _

/-- Operands of different types are brought to the same type on both sides. -/
theorem operation_alike_of_ne (hkind : l₂.type.nonNullable ≠ r₂.type.nonNullable) :
    ((ctx.operation op p.1 p.2).eval env).Alike Eq ((ctx.operation op q.1 q.2).eval env) := by
  obtain ⟨hlk, hrk⟩ := h.isValueType hq hne hobject
  have hlk₁ : l₁.type.nonNullable.isValueType = true := h.left.type.nonNullable ▸ hlk
  have hrk₁ : r₁.type.nonNullable.isValueType = true := h.right.type.nonNullable ▸ hrk
  have hne₁ : l₁.type ≠ r₁.type := fun heq => hkind (by
    rw [← h.left.type.nonNullable, ← h.right.type.nonNullable, heq])
  obtain ⟨t₁, target₁, hmeet₁, ht₁, rfl⟩ := Bind.exists_of_promote hp hne₁
    (by rw [h.left.type.isObject, h.right.type.isObject, hobject])
  obtain ⟨t₂, target₂, hmeet₂, ht₂, rfl⟩ := Bind.exists_of_promote hq (fun heq => hkind (by rw [heq])) hobject
  have htarget : target₁.nonNullable = target₂.nonNullable := by
    rw [Bind.meet?_congr h.left.type.nonNullable h.right.type.nonNullable, hmeet₂] at hmeet₁
    cases hmeet₁
    rw [ht₁, ht₂]
    split_ifs <;> simp only [HostType.nonNullable_toNullable]
  have convert {v : Value} (hv : v.isNull = false) : (v.convert target₁).Alike
      (fun w w' => w = w' ∧ w.isNull = false) (v.convert target₂) :=
    .of_exists (fun w hw => ⟨w, Value.convert_congr hv htarget hw, rfl, Value.isNull_convert hv hw⟩)
      fun w hw => ⟨w, Value.convert_congr hv htarget.symm hw⟩
  rw [eval_operation hop, eval_operation hop, Expr.eval_convertTo_of_suits hl₁ (ha.lift h.left.type) hlk₁,
    Expr.eval_convertTo_of_suits hl₂ ha hlk, Expr.eval_convertTo_of_suits hr₁ (hb.lift h.right.type) hrk₁,
    Expr.eval_convertTo_of_suits hr₂ hb hrk]
  refine (convert hna).bind fun v v' hv => (convert hnb).bind fun w w' hw => ?_
  obtain ⟨rfl, hv⟩ := hv
  obtain ⟨rfl, hw⟩ := hw
  exact (Value.SameOrder.refl hv hw).compareValues_alike hop _ _

omit hna hnb in
/-- Where two operands have values, comparisons of different operands on the two sides have the same value. -/
theorem operation_alike_at :
    ((ctx.operation op p.1 p.2).eval env).Alike Eq ((ctx.operation op q.1 q.2).eval env) := by
  by_cases hnull : a.isNull = true ∨ b.isNull = true
  · exact operation_alike_of_null hop h hp hq hne hobject hl₁ hl₂ hr₁ hr₂ ha hb hnull
  · simp only [not_or, Bool.not_eq_true] at hnull
    obtain ⟨hna, hnb⟩ := hnull
    by_cases hkind : l₂.type.nonNullable = r₂.type.nonNullable
    · exact operation_alike_of_kind hop h hp hq hne hobject hl₁ hl₂ hr₁ hr₂ ha hb hna hnb hkind
    · exact operation_alike_of_ne hop h hp hq hne hobject hl₁ hl₂ hr₁ hr₂ ha hb hna hnb hkind

end Values

end Uneven

omit hop in
/-- A comparison of operands that are brought to one type has a value only where they have. -/
theorem exists_eval_of_promoted [External] (hop : op.isComparison = true) {l r : Expr} {p : Expr × Expr}
    (hp : Bind.promote l r = .ok p) {u : Value} (hu : (ctx.operation op p.1 p.2).eval env = .ok u) :
    (∃ a, l.eval env = .ok a) ∧ ∃ b, r.eval env = .ok b := by
  rw [eval_operation hop] at hu
  obtain ⟨v, hv, hu⟩ := Outcome.bind_eq_ok.mp hu
  obtain ⟨w, hw, -⟩ := Outcome.bind_eq_ok.mp hu
  exact (Bind.promote_cases hp).exists_eval hv hw

/-- **A comparison of operands that are brought to one type.** -/
theorem promoted_operation_coincides [External] (h : Bind.Pairs W (l₁, r₁) (l₂, r₂)) :
    (Bind.promote l₁ r₁).Alike
      (fun p q => Expr.Coincides W (ctx.operation op p.1 p.2) (ctx.operation op q.1 q.2)) (Bind.promote l₂ r₂) := by
  have hok : (∃ p, Bind.promote l₁ r₁ = .ok p) ↔ ∃ q, Bind.promote l₂ r₂ = .ok q := by
    rw [Bind.exists_promote_iff, Bind.exists_promote_iff, h.left.type.isObject, h.right.type.isObject,
      Bind.meet?_congr h.left.type.nonNullable h.right.type.nonNullable]
  refine .of_exists (fun p hp => ?_) fun q hq => hok.mpr ⟨q, hq⟩
  obtain ⟨q, hq⟩ := hok.mp ⟨p, hp⟩
  refine ⟨q, hq, ?_⟩
  by_cases hsame : (l₁.type = l₂.type ∧ r₁.type = r₂.type) ∨ (l₂.type.isObject || r₂.type.isObject) = true
  · obtain ⟨⟨hl, hlt⟩, hr, hrt⟩ := h.promoted_of_types hp hq hsame
    exact operation_of_types hop hl hr hlt hrt
  · rw [not_or, Bool.not_eq_true] at hsame
    obtain ⟨hne, hobject⟩ := hsame
    refine operation_coincides_of hop (fun hlifts => ?_) fun env henv => ?_
    · obtain ⟨-, hqtype, hqnull⟩ := types_promoted h hp hq hne hobject
      have hnull : q.1.type.isNullableValueType = true := by
        unfold lifts at hlifts
        simp only [Bool.and_eq_true] at hlifts
        exact hlifts.1.1.1.2
      rw [hqnull, Bool.or_eq_true] at hnull
      rwa [lifts_promoted h hp hq hne hobject hnull]
    · have alike {a b : Value} (hl : l₂.eval env = .ok a) (hr : r₂.eval env = .ok b) :
          ((ctx.operation op p.1 p.2).eval env).Alike Eq ((ctx.operation op q.1 q.2).eval env) := by
        obtain ⟨a', hl₁, rfl, ha⟩ := (h.left.eval env henv).exists_left hl
        obtain ⟨b', hr₁, rfl, hb⟩ := (h.right.eval env henv).exists_left hr
        exact operation_alike_at hop h hp hq hne hobject hl₁ hl hr₁ hr ha hb
      refine .of_exists (fun u hu => ?_) fun u hu => ?_
      · obtain ⟨⟨a, ha⟩, b, hb⟩ := exists_eval_of_promoted hop hp hu
        obtain ⟨_, ha, -⟩ := (h.left.eval env henv).exists_right ha
        obtain ⟨_, hb, -⟩ := (h.right.eval env henv).exists_right hb
        exact (alike ha hb).exists_right hu
      · obtain ⟨⟨a, ha⟩, b, hb⟩ := exists_eval_of_promoted hop hq hu
        exact ((alike ha hb).exists_left hu).imp fun _ => And.left

/-- **A comparison.** -/
theorem comparison_coincides [External] (h : Bind.Pairs W (l₁, r₁) (l₂, r₂)) :
    (ctx.comparison op l₁ r₁).Alike (Expr.Coincides W) (ctx.comparison op l₂ r₂) := by
  have promoted {l₁ l₂ r₁ r₂ : Expr} (h : Bind.Pairs W (l₁, r₁) (l₂, r₂)) :
      (Bind.promote l₁ r₁ >>= fun p => .ok (ctx.operation op p.1 p.2)).Alike (Expr.Coincides W)
        (Bind.promote l₂ r₂ >>= fun p => .ok (ctx.operation op p.1 p.2)) :=
    (promoted_operation_coincides hop h).bind fun _ _ hpq => hpq
  unfold comparison
  rw [Bind.TimeKey.forTypes?_congr h.left.type.nonNullable h.right.type.nonNullable]
  cases hkey : Bind.TimeKey.forTypes? l₂.type r₂.type with
  | some k => exact promoted (Bind.TimeKey.project_pairs h hkey)
  | none =>
    rcases Bind.ordinal?_coincides hop h.left h.right with ⟨h₁, h₂⟩ | ⟨e₁, e₂, h₁, h₂, he⟩
    · dsimp only at h₁ h₂
      rw [h₁, h₂]
      exact promoted h
    · dsimp only at h₁ h₂
      rw [h₁, h₂]
      exact he

end Comparison

/-- **A comparison of queries**, on operands of types with null on one side and without on the other. -/
theorem binary_coincides [External] {op : QueryOp} (hop : op.isComparison = true)
    (hl : Expr.Coincides W l₁ l₂)
    (hr : Expr.Coincides W r₁ r₂) (hlc : l₁.constValue? = l₂.constValue?) (hrc : r₁.constValue? = r₂.constValue?)
    (hel : Bind.Even (Bind.unifiedBy? l₂.type r₂.type) l₁ l₂ r₂)
    (her : Bind.Even (Bind.unifiedBy? l₂.type r₂.type) r₁ r₂ l₂) :
    (ctx.binary op l₁ r₁).Alike (Expr.Coincides W) (ctx.binary op l₂ r₂) := by
  obtain ⟨b, hb, hlogical, hcomparison⟩ :
      ∃ b, op.binaryOp? = some b ∧ b.isLogical = false ∧ b.isComparison = true := by
    cases op <;> first | exact ⟨_, rfl, rfl, rfl⟩ | cases hop
  unfold binary
  rw [hb]
  refine (Bind.unify_pairs hl hr hlc hrc hel her).bind fun p q hpq => ?_
  dsimp only
  rw [hlogical, if_neg Bool.false_ne_true, if_neg Bool.false_ne_true, hcomparison, if_pos rfl, if_pos rfl]
  exact comparison_coincides hcomparison hpq

/-! ## Values of comparisons -/

/-- A comparison of two operands has a value only where they have. -/
theorem exists_eval_of_comparison [External] (hop : op.isComparison = true) {l r e : Expr}
    (he : ctx.comparison op l r = .ok e)
    {u : Value} (hu : e.eval env = .ok u) : (∃ a, l.eval env = .ok a) ∧ ∃ b, r.eval env = .ok b := by
  rcases comparison_cases he with ⟨k, p, -, hp, rfl⟩ | hordinal | ⟨p, hp, rfl⟩
  · have projected {x : Expr} (hx : ∃ n, (k.project x).eval env = .ok n) : ∃ v, x.eval env = .ok v := by
      obtain ⟨n, hn⟩ := hx
      cases hconst : x.isNullConst with
      | true => exact ⟨_, Bind.eval_of_isNullConst hconst env⟩
      | false => exact Bind.TimeKey.exists_eval_of_project hconst hn
    exact (exists_eval_of_promoted hop hp hu).imp projected projected
  · obtain ⟨_, -, f, hf⟩ := Bind.exists_eval_ordinal? rfl rfl hordinal
    rw [(hf env).1] at hu
    obtain ⟨a, ha, hu⟩ := Outcome.bind_eq_ok.mp hu
    obtain ⟨b, hb, -⟩ := Outcome.bind_eq_ok.mp hu
    exact ⟨⟨a, ha⟩, b, hb⟩
  · exact exists_eval_of_promoted hop hp hu

theorem exists_eval_of_unifyNulls [External] {l r : Expr} (hl : ∃ a, (Bind.unifyNulls l r).1.eval env = .ok a)
    (hr : ∃ b, (Bind.unifyNulls l r).2.eval env = .ok b) :
    (∃ a, l.eval env = .ok a) ∧ ∃ b, r.eval env = .ok b := by
  unfold Bind.unifyNulls at hl hr
  cases hlc : l.isNullConst <;> cases hrc : r.isNullConst <;> simp only [hlc, hrc] at hl hr
  case true.false => exact ⟨⟨_, Bind.eval_of_isNullConst hlc env⟩, hr⟩
  case false.true => exact ⟨hl, _, Bind.eval_of_isNullConst hrc env⟩
  all_goals exact ⟨hl, hr⟩

theorem exists_eval_of_unifyEnums [External] {l r : Expr} {p : Expr × Expr} (hp : Bind.unifyEnums l r = .ok p)
    (hl : ∃ a, p.1.eval env = .ok a) (hr : ∃ b, p.2.eval env = .ok b) :
    (∃ a, l.eval env = .ok a) ∧ ∃ b, r.eval env = .ok b := by
  obtain ⟨a, ha⟩ := hl
  obtain ⟨b, hb⟩ := hr
  rcases Bind.unifyEnums_cases hp with ⟨-, hl, hr⟩ | ⟨enum, -, hl, hr⟩
  · rw [hl] at ha
    rw [hr] at hb
    exact ⟨⟨a, ha⟩, b, hb⟩
  · exact ⟨Bind.exists_eval_of_toUnderlying hl ha, Bind.exists_eval_of_toUnderlying hr hb⟩

/-- **A comparison of queries has a value only where both operands have.** -/
theorem exists_eval_of_binary [External] {op : QueryOp} (hop : op.isComparison = true) {l r e : Expr}
    (he : ctx.binary op l r = .ok e) {u : Value} (hu : e.eval env = .ok u) :
    (∃ a, l.eval env = .ok a) ∧ ∃ b, r.eval env = .ok b := by
  obtain ⟨b, l', r', hb, hunify, hcases⟩ := binary_cases (fun h => by rw [h] at hop; cases hop) he
  obtain ⟨hlogical, hcomparison⟩ : b.isLogical = false ∧ b.isComparison = true := by
    cases op <;> cases hb <;> first | exact ⟨rfl, rfl⟩ | cases hop
  rcases hcases with ⟨h, -⟩ | ⟨-, he⟩ | ⟨-, h, -⟩
  · rw [hlogical] at h
    cases h
  · obtain ⟨hl, hr⟩ := exists_eval_of_comparison hcomparison he hu
    obtain ⟨hl, hr⟩ := exists_eval_of_unifyNulls hl hr
    exact exists_eval_of_unifyEnums hunify hl hr
  · rw [hcomparison] at h
    cases h

end Context

end TypedQuery
