import TypedQuery.Proofs.NullSafety

/-!
# Three-valued logic of predicates

Plain booleans are combined by short circuit, booleans that may be null by `Truth.and` and
`Truth.or`, and operands of other types are converted on the way. A predicate that is built with
`and`, `or` and `not` has the truth that `Truth` gives it all the same, at every depth and for every
mixture of operands (**`predicate_follows_truth_tables`**), if an operand whose type has no null is
not null.

* `Expr.HasTruth`: a boolean expression of a given truth.
* `BoolTree`: predicates built with `and`, `or` and `not`.
* `Bind.exists_logical`, `Bind.exists_not`: one operator.
-/

namespace TypedQuery

/-! ## Known truths -/

namespace BinaryOp

variable {op : BinaryOp} {τ σ : Truth}

theorem eq_of_isLogical (hop : op.isLogical = true) : op = .andAlso ∨ op = .orElse := by
  cases op <;> first | exact .inl rfl | exact .inr rfl | cases hop

theorem combine_known (hop : op.isLogical = true) (hτ : τ ≠ .unknown) (hσ : σ ≠ .unknown) :
    op.combine τ σ ≠ .unknown := by
  rcases eq_of_isLogical hop with rfl | rfl <;> cases τ <;> cases σ <;>
    first | decide | exact absurd rfl hτ | exact absurd rfl hσ

/-- What the left side decides, it decides alone: short circuit gives the table of known truths. -/
theorem shortCircuit_known (hop : op.isLogical = true) (hτ : τ ≠ .unknown) (hσ : σ ≠ .unknown) :
    (op.shortCircuit τ.toValue fun _ => .ok σ.toValue) = .ok (op.combine τ σ).toValue := by
  rcases eq_of_isLogical hop with rfl | rfl <;> cases τ <;> cases σ <;>
    first | rfl | exact absurd rfl hτ | exact absurd rfl hσ

theorem apply_toValue (hop : op.isLogical = true) (τ σ : Truth) (lifted : Bool) (type : HostType) :
    op.apply τ.toValue σ.toValue lifted type = .ok (op.combine τ σ).toValue := by
  simp only [BinaryOp.apply, hop, if_true, truthOf, Truth.ofValue?_toValue]
  rfl

theorem binaryType_logical (hop : op.isLogical = true) (l r : HostType) (lifted : Bool) :
    Expr.binaryType op l r lifted =
      if l.isNullableValueType || r.isNullableValueType then HostType.bool.toNullable else .bool := by
  rcases eq_of_isLogical hop with rfl | rfl <;> rfl

end BinaryOp

/-! ## Booleans with a truth -/

namespace Expr

/-- A boolean, a boolean that may be null or a value of any type, with a truth as its value. A
boolean that may not be null has a known truth. -/
structure HasTruth [External] (env : Env) (τ : Truth) (e : Expr) : Prop where
  type : e.type = .bool ∨ e.type = HostType.bool.toNullable ∨ e.type = .object
  value : e.eval env = .ok τ.toValue
  known : e.type = .bool → τ ≠ .unknown

variable {env : Env} {τ σ : Truth} {e l r : Expr}

theorem convert_toValue (τ : Truth) : τ.toValue.convert HostType.bool.toNullable = .ok τ.toValue := by
  cases τ <;> rfl

namespace HasTruth

variable [External]

/-- Truth is kept by the conversion to the type with null. -/
theorem convert (h : e.HasTruth env τ) : (Expr.convert e HostType.bool.toNullable).HasTruth env τ where
  type := .inr (.inl rfl)
  value := by
    rw [eval, h.value]
    exact convert_toValue τ
  known htype := by cases htype

theorem convertTo (h : e.HasTruth env τ) : (e.convertTo HostType.bool.toNullable).HasTruth env τ := by
  unfold Expr.convertTo
  split_ifs
  · exact h
  · exact h.convert

/-- The literal null is unknown, whatever type it takes. -/
theorem mkNull (h : e.HasTruth env τ) : (Expr.mkNull e.type).HasTruth env .unknown := by
  refine ⟨?_, rfl, fun htype => ?_⟩
  · rcases h.type with ht | ht | ht <;> rw [ht]
    · exact .inr (.inl rfl)
    · exact .inr (.inl rfl)
    · exact .inr (.inr rfl)
  · rcases h.type with ht | ht | ht <;> rw [ht] at htype <;> cases htype

theorem unknown_of_isNullConst (h : e.HasTruth env τ) (hnull : e.isNullConst = true) : τ = .unknown := by
  have hvalue := h.value
  unfold isNullConst at hnull
  split at hnull
  · cases τ with
    | unknown => rfl
    | true | false => cases hvalue
  · cases hnull

/-- An expression with a truth is no value of an enumeration. -/
theorem asEnum? (h : e.HasTruth env τ) : e.type.asEnum? = none := by
  rcases h.type with ht | ht | ht <;> rw [ht] <;> rfl

/-- Conjunction and disjunction of booleans that may be null. -/
theorem nullable {op : BinaryOp} (hop : op.isLogical = true) (hl : l.HasTruth env τ)
    (hr : r.HasTruth env σ) (hlt : l.type = HostType.bool.toNullable) :
    (mkBinary op l r false).HasTruth env (op.combine τ σ) := by
  have htype : binaryType op l.type r.type false = HostType.bool.toNullable := by
    rw [BinaryOp.binaryType_logical hop, hlt]
    rfl
  refine ⟨.inr (.inl htype), ?_, fun h => ?_⟩
  · have hlong : (op.isLogical && !HostType.bool.toNullable.isNullableValueType) = false := by
      rw [hop]
      rfl
    simp only [mkBinary, htype, eval, hl.value, hr.value, Outcome.ok_bind, hlong]
    exact op.apply_toValue hop τ σ _ _
  · change binaryType op l.type r.type false = .bool at h
    rw [htype] at h
    cases h

/-- Conjunction and disjunction of plain booleans. -/
theorem plain {op : BinaryOp} (hop : op.isLogical = true) (hl : l.HasTruth env τ)
    (hr : r.HasTruth env σ) (hlt : l.type = .bool) (hrt : r.type = .bool) :
    (mkBinary op l r false).HasTruth env (op.combine τ σ) := by
  have hτ := hl.known hlt
  have hσ := hr.known hrt
  refine ⟨.inl ?_, ?_, fun _ => op.combine_known hop hτ hσ⟩
  · change binaryType op l.type r.type false = .bool
    rw [BinaryOp.binaryType_logical hop, hlt, hrt]
    rfl
  · rw [eval_logical hop (by rw [hlt]; rfl) (by rw [hrt]; rfl), hl.value, hr.value]
    exact op.shortCircuit_known hop hτ hσ

theorem mkNot (h : e.HasTruth env τ) : (mkUnary .not e).HasTruth env τ.not where
  type := h.type
  value := by
    rw [mkUnary, eval, h.value]
    cases τ <;> rfl
  known htype := by
    have hτ := h.known htype
    cases τ <;> first | decide | exact absurd rfl hτ

end HasTruth

end Expr

/-! ## Operators -/

namespace Bind

variable [External] {env : Env} {τ σ : Truth} {e l r : Expr}

theorem exists_asBoolean (h : e.HasTruth env τ) :
    ∃ e', asBoolean e = .ok e' ∧ e'.HasTruth env τ ∧ e'.type.isBool = true := by
  unfold asBoolean
  rcases h.type with ht | ht | ht
  · exact ⟨e, by rw [ht]; rfl, h, by rw [ht]; rfl⟩
  · exact ⟨e, by rw [ht]; rfl, h, by rw [ht]; rfl⟩
  · exact ⟨.convert e HostType.bool.toNullable, by rw [ht]; rfl, h.convert, rfl⟩

theorem unifyNulls_hasTruth (hl : l.HasTruth env τ) (hr : r.HasTruth env σ) :
    (unifyNulls l r).1.HasTruth env τ ∧ (unifyNulls l r).2.HasTruth env σ := by
  unfold unifyNulls
  split
  next hnull _ =>
    cases hl.unknown_of_isNullConst hnull
    exact ⟨hr.mkNull, hr⟩
  next _ hnull =>
    cases hr.unknown_of_isNullConst hnull
    exact ⟨hl, hl.mkNull⟩
  next => exact ⟨hl, hr⟩

/-- A conjunction or disjunction of expressions with a truth has the truth that both give. -/
theorem exists_logical {op : BinaryOp} (hop : op.isLogical = true) (hl : l.HasTruth env τ)
    (hr : r.HasTruth env σ) :
    ∃ e, logical op l r = .ok e ∧ e.HasTruth env (op.combine τ σ) := by
  obtain ⟨a, ha, hat, hab⟩ := exists_asBoolean hl
  obtain ⟨b, hb, hbt, hbb⟩ := exists_asBoolean hr
  by_cases hnull : (a.type.isNullableValueType || b.type.isNullableValueType) = true
  · refine ⟨_, ?_, hat.convertTo.nullable hop hbt.convertTo (Expr.type_convertTo _ _)⟩
    simp only [logical, ha, hb, Outcome.ok_bind, hnull, if_true]
    rfl
  · have hplain := hnull
    simp only [Bool.not_eq_true, Bool.or_eq_false_iff] at hplain
    refine ⟨_, ?_, hat.plain hop hbt (type_of_isBool hab hplain.1) (type_of_isBool hbb hplain.2)⟩
    simp only [logical, ha, hb, Outcome.ok_bind, if_neg hnull]
    rfl

/-- The negation of an expression with a truth has the opposite truth. -/
theorem exists_not (h : e.HasTruth env τ) :
    ∃ e', unaryOperation .not e = .ok e' ∧ e'.HasTruth env τ.not := by
  unfold unaryOperation
  rcases h.type with ht | ht | ht
  · exact ⟨_, by simp only [ht]; rfl, h.mkNot⟩
  · exact ⟨_, by simp only [ht]; rfl, h.mkNot⟩
  · exact ⟨_, by simp only [ht]; rfl, h.convert.mkNot⟩

/-- A predicate made from an expression with a truth is never null: it is whether that truth is
true. -/
theorem exists_normalizePredicate {ctx : Context} (hnull : ctx.settings.nullPropagation = true)
    (h : e.HasTruth env τ) :
    ∃ body, ctx.normalizePredicate e = .ok body ∧ body.type = .bool ∧
      body.eval env = .ok (.bool (τ = .true)) := by
  have hfold {x : Expr} (hx : x.HasTruth env τ) :
      (ctx.foldNull x).type = .bool ∧ (ctx.foldNull x).eval env = .ok (.bool (τ = .true)) := by
    refine ⟨Context.type_foldNull x, ?_⟩
    rw [Context.eval_foldNull hnull, hx.value]
    cases τ <;> rfl
  unfold Context.normalizePredicate
  rcases h.type with ht | ht | ht
  · refine ⟨e, by simp only [ht], ht, ?_⟩
    rw [h.value]
    have hτ := h.known ht
    cases τ with
    | true | false => rfl
    | unknown => exact absurd rfl hτ
  · exact ⟨_, by simp only [ht]; rfl, hfold h⟩
  · exact ⟨_, by simp only [ht], hfold h.convert⟩

end Bind

namespace Context

variable {ctx : Context} {env : Env} {τ σ : Truth} {l r : Expr}

theorem exists_binary_logical [External] (op : QueryOp) {logical : BinaryOp}
    (hop : op.binaryOp? = some logical)
    (hlogical : logical.isLogical = true) (hl : l.HasTruth env τ) (hr : r.HasTruth env σ) :
    ∃ e, ctx.binary op l r = .ok e ∧ e.HasTruth env (logical.combine τ σ) := by
  obtain ⟨hnl, hnr⟩ := Bind.unifyNulls_hasTruth hl hr
  obtain ⟨e, he, htruth⟩ := Bind.exists_logical hlogical hnl hnr
  refine ⟨e, ?_, htruth⟩
  have henums : Bind.unifyEnums l r = .ok (l, r) := by
    simp only [Bind.unifyEnums, hl.asEnum?, hr.asEnum?]
    rfl
  simp only [binary, hop, henums, Outcome.ok_bind, hlogical, if_true]
  exact he

end Context

/-! ## Operators on nodes -/

namespace Node

variable {ctx : Context}

/-- The right operand is bound after the left one. -/
theorem bind_binary {op : QueryOp} {left right : Node} {l r : Expr}
    (hl : (left.bind ctx.deeper).1 = .ok l)
    (hr : (right.bind (left.bind ctx.deeper).2).1 = .ok r) :
    ((Node.binary op left right).bind ctx).1 =
      (right.bind (left.bind ctx.deeper).2).2.binary op l r := by
  have hlt : ctx.depth < ctx.settings.maxDepth := Nat.lt_of_succ_lt (lt_of_bind_eq_ok hl)
  rw [bind_of_lt _ hlt, Bind.step, Bind.binary]
  have hleft : left.bindWithin ctx.deeper.levelsLeft ctx.deeper = (.ok l, (left.bind ctx.deeper).2) :=
    Prod.ext hl rfl
  rw [BindM.bind_of_ok hleft, BindM.bind_of_ok ((bindWithin_after left right).trans (Prod.ext hr rfl))]
  rfl

theorem bind_unary {op : QueryUnaryOp} {operand : Node} {e : Expr}
    (h : (operand.bind ctx.deeper).1 = .ok e) :
    ((Node.unary op operand).bind ctx).1 = Bind.unaryOperation op e := by
  have hlt : ctx.depth < ctx.settings.maxDepth := Nat.lt_of_succ_lt (lt_of_bind_eq_ok h)
  rw [bind_of_lt _ hlt, Bind.step, Bind.unary]
  have hoperand : operand.bindWithin ctx.deeper.levelsLeft ctx.deeper =
      (.ok e, (operand.bind ctx.deeper).2) := Prod.ext h rfl
  rw [BindM.bind_of_ok hoperand]
  rfl

end Node

/-! ## Predicates -/

/-- Predicates built with `and`, `or` and `not` over atoms. -/
inductive BoolTree (ι : Type) where
  | atom (i : ι)
  | and (left right : BoolTree ι)
  | or (left right : BoolTree ι)
  | not (operand : BoolTree ι)

namespace BoolTree

variable {ι : Type}

/-- The predicate as a node, its atoms being given nodes. -/
def node (atoms : ι → Node) : BoolTree ι → Node
  | .atom i => atoms i
  | .and left right => .binary .and (left.node atoms) (right.node atoms)
  | .or left right => .binary .or (left.node atoms) (right.node atoms)
  | .not operand => .unary .not (operand.node atoms)

/-- The truth of the predicate, from those of its atoms. -/
def truth (τ : ι → Truth) : BoolTree ι → Truth
  | .atom i => τ i
  | .and left right => (left.truth τ).and (right.truth τ)
  | .or left right => (left.truth τ).or (right.truth τ)
  | .not operand => (operand.truth τ).not

/-- A property of every atom in the context in which it is bound: one level deeper for each operator
around it, and after all that stands to the left. -/
def Everywhere (atoms : ι → Node) (P : ι → Context → Prop) : BoolTree ι → Context → Prop
  | .atom i, ctx => P i ctx
  | .and left right, ctx | .or left right, ctx =>
    left.Everywhere atoms P ctx.deeper ∧
      right.Everywhere atoms P ((left.node atoms).bind ctx.deeper).2
  | .not operand, ctx => operand.Everywhere atoms P ctx.deeper

variable {atoms : ι → Node} {τ : ι → Truth} {env : Env}

/-- A predicate is bound to an expression with the truth that its atoms give. -/
theorem exists_bind [External] (t : BoolTree ι) (ctx : Context)
    (h : t.Everywhere atoms (fun i c => ∃ e, ((atoms i).bind c).1 = .ok e ∧ e.HasTruth env (τ i)) ctx) :
    ∃ e, ((t.node atoms).bind ctx).1 = .ok e ∧ e.HasTruth env (t.truth τ) := by
  induction t generalizing ctx with
  | atom i => exact h
  | and left right ihl ihr =>
    obtain ⟨l, hl, hlt⟩ := ihl _ h.1
    obtain ⟨r, hr, hrt⟩ := ihr _ h.2
    obtain ⟨e, he, het⟩ := Context.exists_binary_logical .and rfl rfl hlt hrt
    exact ⟨e, (Node.bind_binary hl hr).trans he, het⟩
  | or left right ihl ihr =>
    obtain ⟨l, hl, hlt⟩ := ihl _ h.1
    obtain ⟨r, hr, hrt⟩ := ihr _ h.2
    obtain ⟨e, he, het⟩ := Context.exists_binary_logical .or rfl rfl hlt hrt
    exact ⟨e, (Node.bind_binary hl hr).trans he, het⟩
  | not operand ih =>
    obtain ⟨x, hx, hxt⟩ := ih _ h
    obtain ⟨e, he, het⟩ := Bind.exists_not hxt
    exact ⟨e, (Node.bind_unary hx).trans he, het⟩

end BoolTree

/-- **Predicates follow three-valued logic.** With null propagation, a predicate built with `and`,
`or` and `not` is bound to an expression whose value is the truth that `Truth.and`, `Truth.or` and
`Truth.not` give from the truths of its atoms; as the filter of a clause, it is bound to a boolean
that is true exactly where that truth is, and false elsewhere. An atom whose type has no null must
not be null. -/
theorem predicate_follows_truth_tables [External] {ι : Type} (t : BoolTree ι) (atoms : ι → Node)
    (τ : ι → Truth) (v : RangeVariable) (ctx : Context) (env : Env)
    (hnull : ctx.settings.nullPropagation = true)
    (hatoms : t.Everywhere atoms
      (fun i c => ∃ e, ((atoms i).bind c).1 = .ok e ∧ e.HasTruth env (τ i)) ctx) :
    (∃ e, ((t.node atoms).bind ctx).1 = .ok e ∧ e.eval env = .ok (t.truth τ).toValue) ∧
      ∃ body, (FilterClause.bind ⟨t.node atoms, v⟩ ctx).1 = .ok ⟨ctx.current, body⟩ ∧
        body.type = .bool ∧ body.eval env = .ok (.bool (t.truth τ = .true)) := by
  obtain ⟨e, he, htruth⟩ := t.exists_bind ctx hatoms
  refine ⟨⟨e, he, htruth.value⟩, ?_⟩
  have hframe := Node.bind_keeps (t.node atoms) ctx
  generalize hafter : ((t.node atoms).bind ctx).2 = after at hframe
  have hbind : (t.node atoms).bind ctx = (.ok e, after) := Prod.ext he hafter
  have hnull : after.settings.nullPropagation = true := by rw [hframe.settings, hnull]
  obtain ⟨body, hbody, htype, hvalue⟩ := Bind.exists_normalizePredicate hnull htruth
  refine ⟨body, ?_, htype, hvalue⟩
  rw [FilterClause.bind, Bind.filterLambda, BindM.bind_of_ok hbind, ← hframe.current]
  rw [BindM.bind_of_ok (by rw [BindM.reads, hbody]), if_pos htype]
  rfl

/-! ### Flags -/

/-- Flags that are on or off, and maybe checked. -/
def flagSchema : Schema :=
  ⟨[("Flag", ⟨"Flag", [("Active", .bool), ("Checked", HostType.bool.toNullable)], none⟩)], [], []⟩

/-- The clause over flags. -/
def flagContext : Context := .initial flagSchema {} (.record "Flag")

/-- The variable of the clause over flags. -/
def flagVariable : RangeVariable := ⟨RangeVariable.itName, .entity "Flag" true⟩

/-- A member of a flag, the literal true or the literal null. -/
def flagAtom : Fin 4 → Node
  | 0 => .property (.rangeVariable flagVariable) "Active" .single
  | 1 => .property (.rangeVariable flagVariable) "Checked" .single
  | 2 => .constant (.bool true) none
  | 3 => .constant .null none

/-- A flag that is not checked. -/
def uncheckedFlag : Value := .record "Flag" [("Active", .bool true), ("Checked", .null)]

/-- The truths of the atoms at a flag that is not checked. -/
def uncheckedTruth : Fin 4 → Truth
  | 0 | 2 => .true
  | 1 | 3 => .unknown

/-- `(null or Active) and not (Checked and true)`. -/
def flagTree : BoolTree (Fin 4) := .and (.or (.atom 3) (.atom 0)) (.not (.and (.atom 1) (.atom 2)))

theorem predicate_follows_truth_tables_of_flag :
    (∃ e, ((flagTree.node flagAtom).bind flagContext).1 = .ok e ∧
        e.eval [(0, uncheckedFlag)] = .ok .null) ∧
      ∃ body, (FilterClause.bind ⟨flagTree.node flagAtom, flagVariable⟩ flagContext).1 =
          .ok ⟨flagContext.current, body⟩ ∧
        body.type = .bool ∧ body.eval [(0, uncheckedFlag)] = .ok (.bool false) := by
  refine predicate_follows_truth_tables flagTree flagAtom uncheckedTruth flagVariable flagContext
    [(0, uncheckedFlag)] rfl ⟨⟨?_, ?_⟩, ?_, ?_⟩
  · exact ⟨_, rfl, .inr (.inr rfl), rfl, fun h => by cases h⟩
  · exact ⟨_, rfl, .inl rfl, rfl, fun _ h => by cases h⟩
  · exact ⟨_, rfl, .inr (.inl rfl), rfl, fun h => by cases h⟩
  · exact ⟨_, rfl, .inl rfl, rfl, fun _ h => by cases h⟩

/-- A flag of which nothing is known, though it is on or off. -/
def blankFlag : Value := .record "Flag" [("Active", .null), ("Checked", .null)]

/-- The truths of the atoms at a flag of which nothing is known. -/
def blankTruth : Fin 4 → Truth
  | 2 => .true
  | 0 | 1 | 3 => .unknown

/-- `Active and true`, of which both sides are plain booleans. -/
def activeTree : BoolTree (Fin 4) := .and (.atom 0) (.atom 2)

/-- Where a boolean that may not be null is null all the same, it has a truth, but the predicate has
no value. -/
theorem predicate_fails_at_blank_flag :
    activeTree.Everywhere flagAtom (fun i c => ∃ e, ((flagAtom i).bind c).1 = .ok e ∧ e.type = .bool ∧
        e.eval [(0, blankFlag)] = .ok (blankTruth i).toValue) flagContext ∧
      (∃ e, ((activeTree.node flagAtom).bind flagContext).1 = .ok e ∧
        e.eval [(0, blankFlag)] = EvalError.fail (.notBoolean .null)) ∧
      ∃ l, (FilterClause.bind ⟨activeTree.node flagAtom, flagVariable⟩ flagContext).1 = .ok l ∧
        l.body.eval [(0, blankFlag)] = EvalError.fail (.notBoolean .null) :=
  ⟨⟨⟨_, rfl, rfl, rfl⟩, ⟨_, rfl, rfl, rfl⟩⟩, ⟨_, rfl, rfl⟩, ⟨_, rfl, rfl⟩⟩

end TypedQuery
