import TypedQuery.Proofs.Rows

/-!
# Aggregates of values

What an aggregate of a property is, as a function of the values of the property in a group. Sums and
averages widen narrow integers and take values of any type as decimals; a count looks at the number
of records only.

* `AggregationMethod.aggregate`: the aggregate of a list of values.
* **`PropertyAggregate.combine_eval`**: a bound aggregate of a group gives the aggregate of the
  values that its input has at the records of the group.
-/

namespace TypedQuery

/-! ## The aggregate of a list of values -/

namespace HostType

/-- Whether integers of the type are widened before they are added. -/
def isNarrow (t : HostType) : Bool :=
  match t.nonNullable with
  | .int .sbyte | .int .byte | .int .int16 | .int .uint16 => true
  | _ => false

/-- The type in which values of a type are added. -/
def summandType (t : HostType) : HostType :=
  if t.isObject then HostType.decimal.toNullable
  else if t.isNarrow then (HostType.int .int32).nullableLike t
  else t

end HostType

/-- A value as it is added, for its static type. -/
def Value.asSummand (t : HostType) (v : Value) : Outcome Value :=
  if t.isObject || t.isNarrow then v.convert t.summandType else .ok v

namespace AggregationMethod

/-- A sum or an average of values of a static type. -/
def totalOf (a : Aggregate) (result : HostType) (t : HostType) (values : List Value) :
    Outcome Value := do
  let summands ← values.mapM (Value.asSummand t)
  let total ← (Accumulator.start a result).run summands
  if t.isObject then total.convert .object else return total

/-- The aggregate of values of a static type. -/
def aggregate [External] (m : AggregationMethod) (s : Schema) (t : HostType) (values : List Value) :
    Outcome Value :=
  match m with
  | .count => .ok (.int64 values.length)
  | .countDistinct => .ok (.int64 (distinctItems values).length)
  | .sum => totalOf .sum t.summandType t values
  | .average => totalOf .average (t.summandType.averageType?.getD .object) t values
  | .min => (Accumulator.start .min t).run values
  | .max => (Accumulator.start .max t).run values
  | .custom label =>
    match s.customMethod? label t with
    | some c => c.code.run c.result values
    | none => .error (.aggregationNotSupportedForType label t.text)

end AggregationMethod

/-- Counting gives the number of values. -/
theorem Accumulator.run_count (t : HostType) (values : List Value) :
    (Accumulator.start .count t).run values = .ok (.int64 values.length) := by
  have run : ∀ (values : List Value) (seen : Nat),
      values.foldlM update (.count seen) = .ok (.count (seen + values.length)) := by
    intro values
    induction values with
    | nil => intro seen; rfl
    | cons v rest ih =>
      intro seen
      rw [List.foldlM_cons]
      change rest.foldlM update (.count (seen + 1)) = _
      rw [ih, List.length_cons, Nat.add_assoc, Nat.add_comm 1]
  unfold Accumulator.run
  rw [start, run values 0, Nat.zero_add]
  rfl

/-! ## Bound aggregates -/

namespace Expr

variable [External] {g p : Param} {body : Expr} {key : Value} {items : List Value} {env : Env}

/-- The environment in which the row of a group is computed. -/
abbrev groupEnv (g : Param) (key : Value) (items : List Value) : Env :=
  [(g.id, .grouping key items)]

omit [External] in
/-- The parameter for a group stands for it, next to whatever else is known. -/
theorem lookup_group : List.lookup g.id ((g.id, Value.grouping key items) :: env) =
    some (.grouping key items) := by
  simp

variable (hgroup : env.lookup g.id = some (.grouping key items))
include hgroup

theorem eval_group : (Expr.param g).eval env = .ok (.grouping key items) := by
  rw [Expr.eval, hgroup]
  rfl

/-- The operands of a call on a group with a function. -/
theorem operands_group :
    operands [.param g, .mkLambda p body] env =
      [⟨.ok (.grouping key items), none⟩,
        ⟨EvalError.fail .lambdaAsValue, some fun v => body.eval ((p.id, v) :: env)⟩] := by
  rw [operands_cons rfl, eval_group hgroup]
  rfl

/-- The values of a function at the items of a group, as an operator sees them. -/
theorem selected_group (m : Method) :
    Operand.selected m (operands [.param g, .mkLambda p body] env) =
      items.mapM fun v => body.eval ((p.id, v) :: env) := by
  rw [operands_group hgroup]
  rfl

omit hgroup in
theorem eval_collection {e : Expr} (h : e.isLambda = false) (op : CollectionOperator) (env : Env) :
    (mkCollection op [e]).eval env = op.apply (op.resultType [e]) [⟨e.eval env, none⟩] := by
  rw [mkCollection, mkCall, eval, operands_cons h]
  rfl

theorem eval_count_group :
    (mkCollection .longCount [.param g]).eval env = .ok (.int64 items.length) := by
  rw [eval_collection rfl, eval_group hgroup]
  exact Accumulator.run_count _ _

theorem eval_distinct_group :
    (mkCollection .longCount
        [.mkCollection .distinct [.mkCollection .select [.param g, .mkLambda p body]]]).eval env =
      (items.mapM fun v => body.eval ((p.id, v) :: env)) >>= fun values =>
        .ok (.int64 (distinctItems values).length) := by
  have hselect : (mkCollection .select [.param g, .mkLambda p body]).eval env =
      (items.mapM fun v => body.eval ((p.id, v) :: env)) >>= fun values =>
        .ok (.collection values) := by
    rw [mkCollection, mkCall, eval, ← selected_group hgroup (.collection .select)]
    rfl
  rw [eval_collection rfl, eval_collection rfl, hselect]
  cases items.mapM fun v => body.eval ((p.id, v) :: env) with
  | error e => rfl
  | ok values => exact Accumulator.run_count _ _

end Expr

namespace PropertyAggregate

theorem widenNarrow_eq (e : Expr) :
    widenNarrow e =
      if e.type.isNarrow then .convert e ((HostType.int .int32).nullableLike e.type) else e := by
  unfold widenNarrow HostType.isNarrow
  cases e.type.nonNullable with
  | int w => cases w <;> rfl
  | _ => rfl

theorem summand_type (e : Expr) : (summand e).type = e.type.summandType := by
  unfold summand HostType.summandType
  rw [widenNarrow_eq]
  split_ifs <;> rfl

theorem summand_eval [External] (e : Expr) (env : Env) :
    (summand e).eval env = e.eval env >>= Value.asSummand e.type := by
  have hkeep : (e.eval env >>= fun v => (.ok v : Outcome Value)) = e.eval env := by
    cases e.eval env <;> rfl
  unfold summand Value.asSummand HostType.summandType
  rw [widenNarrow_eq]
  by_cases hobject : e.type.isObject
  · simp only [hobject, if_true, Bool.true_or]
    rfl
  · by_cases hnarrow : e.type.isNarrow
    · simp only [hobject, hnarrow, if_true, Bool.or_true]
      rfl
    · simp only [hobject, hnarrow, Bool.or_self]
      exact hkeep.symm

/-- It is the same to change every value as it comes, or all of them in the end. -/
theorem mapM_bind_toOption (f g : Value → Outcome Value) (items : List Value) :
    (items.mapM fun v => f v >>= g).toOption = (items.mapM f >>= fun vs => vs.mapM g).toOption := by
  induction items with
  | nil => rfl
  | cons v rest ih =>
    rw [List.mapM_cons, List.mapM_cons]
    cases f v with
    | error e => rfl
    | ok w =>
      simp only [Outcome.ok_bind, bind_assoc, pure_bind, List.mapM_cons, Outcome.toOption_bind] at ih ⊢
      rw [ih]
      cases (g w).toOption <;> cases (rest.mapM f).toOption <;> rfl

section Group

variable {g p : Param} {key : Value} {items : List Value} {e slot : Expr} {env : Env}

/-- The values of an expression at items, in an environment. -/
def valuesIn [External] (env : Env) (p : Param) (items : List Value) (e : Expr) : Outcome (List Value) :=
  items.mapM fun v => e.eval ((p.id, v) :: env)

theorem valuesIn_summand [External] (e : Expr) :
    (valuesIn env p items (summand e)).toOption =
      (valuesIn env p items e >>= fun vs => vs.mapM (Value.asSummand e.type)).toOption := by
  unfold valuesIn
  simp only [summand_eval]
  exact mapM_bind_toOption _ _ _

variable (hgroup : env.lookup g.id = some (.grouping key items))
include hgroup

theorem total_eval [External] {a : PropertyAggregate} {op : CollectionOperator} {m : Aggregate}
    {supported : HostType → Bool}
    (happly : ∀ type args, op.apply type args = Operand.selected (.collection op) args >>= fun vs =>
      (Accumulator.start m type).run vs)
    (h : a.total op supported (.param g) p e = .ok slot) :
    (slot.eval env).toOption =
      (valuesIn env p items e >>= AggregationMethod.totalOf m
        (op.resultType [.param g, .mkLambda p (summand e)]) e.type).toOption := by
  have hcall : ((Expr.mkCollection op [.param g, .mkLambda p (summand e)]).eval env).toOption =
      ((valuesIn env p items e >>= fun vs => vs.mapM (Value.asSummand e.type)).toOption).bind
        fun vs => ((Accumulator.start m
          (op.resultType [.param g, .mkLambda p (summand e)])).run vs).toOption := by
    rw [← valuesIn_summand, ← Outcome.toOption_bind, valuesIn, ← Expr.selected_group hgroup (.collection op),
      ← happly]
    rfl
  unfold total at h
  dsimp only at h
  split at h
  · cases h
    unfold AggregationMethod.totalOf
    split
    · simp only [Expr.eval, Outcome.toOption_bind, hcall, Option.bind_assoc]
    · simp only [hcall, bind_pure, Outcome.toOption_bind, Option.bind_assoc]
  · cases h

omit hgroup in
theorem total_supported {a : PropertyAggregate} {op : CollectionOperator}
    {supported : HostType → Bool} (h : a.total op supported (.param g) p e = .ok slot) :
    supported e.type.summandType = true := by
  unfold total at h
  rw [← summand_type]
  dsimp only at h
  split at h
  · assumption
  · cases h

theorem extreme_eval [External] {a : PropertyAggregate} {op : CollectionOperator} {m : Aggregate}
    (happly : ∀ type args, op.apply type args = Operand.selected (.collection op) args >>= fun vs =>
      (Accumulator.start m type).run vs)
    (h : a.extreme op (.param g) p e = .ok slot) :
    slot.eval env =
      valuesIn env p items e >>= (Accumulator.start m (op.resultType [.param g, .mkLambda p e])).run := by
  unfold extreme at h
  split at h
  · cases h
  · cases h
    rw [valuesIn, ← Expr.selected_group hgroup (.collection op)]
    exact happly _ _

theorem custom_eval [External] {s : Schema} {label : String} (h : custom s label (.param g) p e = .ok slot) :
    slot.eval env =
      valuesIn env p items e >>= (AggregationMethod.custom label).aggregate s e.type := by
  unfold custom at h
  split at h
  · rename_i c hc
    cases h
    have haggregate : (AggregationMethod.custom label).aggregate s e.type =
        c.code.run c.result := by
      funext values
      simp only [AggregationMethod.aggregate, hc]
    rw [haggregate, valuesIn, ← Expr.selected_group hgroup (.collection (.custom c))]
    rfl
  · cases h

/-- **A bound aggregate gives the aggregate of its input's values at the records of a group**, or
fails as that fails. -/
theorem combine_eval [External] {a : PropertyAggregate} {s : Schema} (hcount : a.method ≠ .count)
    (h : a.combine s (.param g) p e = .ok slot) : (slot.eval env).toOption =
      (valuesIn env p items e >>= a.method.aggregate s e.type).toOption := by
  unfold combine at h
  split at h
  · contradiction
  · rename_i hm
    cases h
    rw [Expr.eval_distinct_group hgroup, hm]
    rfl
  · rename_i hm
    rw [total_eval hgroup (fun _ _ => rfl) h, hm]
    have htype : CollectionOperator.resultType .sum [.param g, .mkLambda p (summand e)] =
        e.type.summandType := by
      have hsum := total_supported h
      rw [← summand_type] at hsum ⊢
      exact if_pos hsum
    rw [htype]
    rfl
  · rename_i hm
    rw [total_eval hgroup (fun _ _ => rfl) h, hm]
    have htype : CollectionOperator.resultType .average [.param g, .mkLambda p (summand e)] =
        e.type.summandType.averageType?.getD .object := by
      rw [← summand_type]
      rfl
    rw [htype]
    rfl
  · rename_i hm
    rw [extreme_eval hgroup (fun _ _ => rfl) h, hm]
    rfl
  · rename_i hm
    rw [extreme_eval hgroup (fun _ _ => rfl) h, hm]
    rfl
  · rename_i hm
    rw [custom_eval hgroup h, hm]

end Group

end PropertyAggregate

/-- The combination of a property succeeds or fails by the type of the property alone. -/
theorem PropertyAggregate.combine_of_type [External] {a : PropertyAggregate} {s : Schema}
    {g₁ slot₁ e₁ e₂ : Expr} {p₁ : Param} (htype : e₁.type = e₂.type)
    (h : a.combine s g₁ p₁ e₁ = .ok slot₁) (g₂ : Expr) (p₂ : Param) :
    ∃ slot₂, a.combine s g₂ p₂ e₂ = .ok slot₂ := by
  have htotal (op : CollectionOperator) (supported : HostType → Bool)
      (h : a.total op supported g₁ p₁ e₁ = .ok slot₁) :
      ∃ slot₂, a.total op supported g₂ p₂ e₂ = .ok slot₂ := by
    unfold total at h ⊢
    simp only [summand_type, htype] at h ⊢
    split at h
    · rw [if_pos ‹_›]
      exact ⟨_, rfl⟩
    · cases h
  have hextreme (op : CollectionOperator) (h : a.extreme op g₁ p₁ e₁ = .ok slot₁) :
      ∃ slot₂, a.extreme op g₂ p₂ e₂ = .ok slot₂ := by
    unfold extreme at h ⊢
    rw [htype] at h
    split at h
    · cases h
    · rw [if_neg ‹_›]
      exact ⟨_, rfl⟩
  unfold combine at h ⊢
  split at h
  · exact ⟨_, rfl⟩
  · exact ⟨_, rfl⟩
  · exact htotal _ _ h
  · exact htotal _ _ h
  · exact hextreme _ h
  · exact hextreme _ h
  · unfold custom at h ⊢
    rw [htype] at h
    split at h
    · exact ⟨_, rfl⟩
    · cases h

/-! ## Successful bindings -/

/-- What binding aggregates to slots has bound. -/
theorem AggregateExpr.forall₂_of_bindSlots [External] {aggregates : List AggregateExpr} {group : Expr}
    {c c' : Context} {slots : List (String × Expr)} (h : bindSlots aggregates group c = (.ok slots, c')) :
    List.Forall₂ (fun a s => s.1 = a.name ∧ ∃ c₁ c₂, c.Frame c₁ ∧ bind a group c₁ = (.ok s.2, c₂))
      aggregates slots := by
  induction aggregates generalizing c c' slots with
  | nil =>
    rw [bindSlots] at h
    cases h
    exact .nil
  | cons a rest ih =>
    rw [bindSlots] at h
    obtain ⟨e, c₁, he, h⟩ := BindM.exists_of_bind_eq_ok h
    obtain ⟨tail, c₂, htail, h⟩ := BindM.exists_of_bind_eq_ok h
    cases h
    have hframe := bind_keeps a group c
    rw [he] at hframe
    refine .cons ⟨rfl, c, c₁, Context.Frame.refl c, he⟩ ((ih htail).imp fun b s hs => ?_)
    obtain ⟨hname, d₁, d₂, hd, hs⟩ := hs
    exact ⟨hname, d₁, d₂, hframe.trans hd, hs⟩

/-- What binding an aggregate with an input has bound. -/
theorem PropertyAggregate.exists_of_bind [External] {a : PropertyAggregate} {group slot : Expr}
    {c c' : Context} (hcount : a.method ≠ .count) (h : a.bind group c = (.ok slot, c')) :
    ∃ node e c₁, a.input = some node ∧ node.bind c = (.ok e, c₁) ∧
      a.combine c₁.schema group c₁.current e = .ok slot := by
  unfold PropertyAggregate.bind at h
  rw [if_neg hcount] at h
  obtain ⟨e, c₁, he, h⟩ := BindM.exists_of_bind_eq_ok h
  unfold bindInput at he
  cases hinput : a.input with
  | none =>
    rw [hinput] at he
    cases he
  | some node =>
    rw [hinput] at he
    exact ⟨node, e, c₁, rfl, he, (Prod.mk.inj h).1⟩

/-- What binding an aggregation has bound, for an item and for a group. -/
theorem Transformation.exists_of_bindAggregation [External] {t : Transformation} {c c' : Context}
    {bound : BoundAggregation} (h : t.bindAggregation c = (.ok bound, c')) :
    ∃ c₀ c₁ c₂ g slots, t.bindKey c = (.ok bound.key, c₀) ∧ c.Frame c₁ ∧
      AggregateExpr.bindSlots t.aggregates (.param g) c₁ = (.ok slots, c₂) ∧
      bound.result = ⟨g, aggregationExpr slots (t.keyContainer? g)⟩ := by
  unfold bindAggregation at h
  split at h
  · obtain ⟨key, c₁, hkey, h⟩ := BindM.exists_of_bind_eq_ok h
    obtain ⟨result, c₂, hresult, h⟩ := BindM.exists_of_bind_eq_ok h
    cases h
    have hframe := t.bindKey_keeps c
    rw [hkey] at hframe
    unfold bindResult at hresult
    obtain ⟨_, _, hctx, hresult⟩ := BindM.exists_of_bind_eq_ok hresult
    cases hctx
    obtain ⟨g, c₃, hg, hresult⟩ := BindM.exists_of_bind_eq_ok hresult
    obtain ⟨slots, c₄, hslots, hresult⟩ := BindM.exists_of_bind_eq_ok hresult
    cases hresult
    have hfresh := BindM.Keeps.fresh RangeVariable.itName
      (.grouping (.wrapper t.keyKind) c₁.current.type) c₁
    rw [hg] at hfresh
    exact ⟨c₁, c₃, _, g, slots, hkey, hframe.trans hfresh, hslots, rfl⟩
  · cases h

/-! ## Slots of expressions -/

namespace Expr

variable [External] {slots slots₁ slots₂ : List (String × Expr)} {env env₁ env₂ : Env}

theorem evalSlots_toOption
    (h : List.Forall₂ (fun s₁ s₂ => s₁.1 = s₂.1 ∧
      (s₁.2.eval env₁).toOption = (s₂.2.eval env₂).toOption) slots₁ slots₂) :
    (evalSlots slots₁ env₁).toOption = (evalSlots slots₂ env₂).toOption := by
  induction h with
  | nil => rfl
  | @cons s₁ s₂ _ _ hs _ ih =>
    obtain ⟨n₁, e₁⟩ := s₁
    obtain ⟨n₂, e₂⟩ := s₂
    obtain ⟨rfl, heval⟩ := hs
    simp only [evalSlots, Outcome.toOption_bind, heval, ih]

theorem evalSlots_agree {c₁ c₂ : Context} {V : Env → Env → Prop} (hV : V env₁ env₂)
    (h : List.Forall₂ (fun s₁ s₂ => s₁.1 = s₂.1 ∧ Expr.Agree c₁ c₂ V s₁.2 s₂.2) slots₁ slots₂) :
    evalSlots slots₁ env₁ = evalSlots slots₂ env₂ := by
  induction h with
  | nil => rfl
  | @cons s₁ s₂ _ _ hs _ ih =>
    obtain ⟨n₁, e₁⟩ := s₁
    obtain ⟨n₂, e₂⟩ := s₂
    obtain ⟨rfl, heval⟩ := hs
    simp only [evalSlots, heval.eval hV, ih]

/-- Slots have values exactly if each of them has. -/
theorem evalSlots_toOption_eq_none :
    (evalSlots slots env).toOption = none ↔ ∃ s ∈ slots, (s.2.eval env).toOption = none := by
  induction slots with
  | nil => simp [evalSlots, Except.toOption]
  | cons s rest ih =>
    obtain ⟨n, e⟩ := s
    simp only [evalSlots, Outcome.toOption_bind, List.mem_cons, exists_eq_or_imp, ← ih]
    cases (e.eval env).toOption with
    | none => simp
    | some v => cases (evalSlots rest env).toOption <;> simp [Except.toOption, Pure.pure, Except.pure]

/-- The values of slots have their names, and are those of their expressions. -/
theorem evalSlots_eq_ok {values : List (String × Value)} (h : evalSlots slots env = .ok values) :
    values.map Prod.fst = slots.map Prod.fst ∧
      ∀ s ∈ slots, ∃ v, s.2.eval env = .ok v ∧ (s.1, v) ∈ values := by
  induction slots generalizing values with
  | nil =>
    cases h
    simp
  | cons s rest ih =>
    obtain ⟨n, e⟩ := s
    rw [evalSlots] at h
    obtain ⟨v, hv, h⟩ := Outcome.bind_eq_ok.mp h
    obtain ⟨vs, hvs, h⟩ := Outcome.bind_eq_ok.mp h
    cases h
    obtain ⟨hnames, hvalues⟩ := ih hvs
    refine ⟨by simp [hnames], fun s hs => ?_⟩
    rcases List.mem_cons.mp hs with rfl | hs
    · exact ⟨v, hv, List.mem_cons_self⟩
    · obtain ⟨w, hw, hmem⟩ := hvalues s hs
      exact ⟨w, hw, List.mem_cons_of_mem _ hmem⟩

end Expr

/-! ## Rows -/

/-- The members of the row of a group: the container of its key, and the values of its slots. -/
theorem aggregationExpr_eval [External] (slots : List (String × Expr)) (key : Option Expr) (env : Env) :
    ((aggregationExpr slots key).eval env).toOption =
      (Expr.evalMember key env).toOption.bind fun k => (Expr.evalSlots slots env).toOption.map fun vs =>
        .wrapper (.aggregation (if slots.isEmpty then none else some (.container vs)) k) := by
  cases slots with
  | nil =>
    simp only [aggregationExpr, Wrapper.aggregation, Wrapper.empty, Expr.mkContainer?, Expr.eval,
      Expr.evalMember, Expr.evalSlots, Outcome.toOption_bind]
    rfl
  | cons s rest =>
    simp only [aggregationExpr, Wrapper.aggregation, Wrapper.empty, Expr.mkContainer?, Expr.eval,
      Expr.evalMember, Outcome.toOption_bind]
    cases (Expr.evalMember key env).toOption with
    | none => rfl
    | some k => cases (Expr.evalSlots (s :: rest) env).toOption <;> rfl

/-- The container of the key of a group, or nothing without grouping. -/
theorem Transformation.keyContainer_eval [External] (t : Transformation) (g : Param) (key : Value)
    (items : List Value) :
    Expr.evalMember (t.keyContainer? g) (Expr.groupEnv g key items) =
      if t.grouping.isEmpty then .ok none
      else some <$> key.member WrapperMember.groupByContainer.text := by
  unfold keyContainer?
  split
  · rfl
  · simp only [Expr.evalMember, Expr.eval, List.lookup_cons, beq_self_eq_true, orFail, Outcome.ok_bind]
    rfl

end TypedQuery
