import TypedQuery.Proofs.ItemPredicates
import TypedQuery.Proofs.Replacements

/-!
# Operands below `and`, `or` and `not`

One atom of a predicate in the place of another: what holds of the two expressions that the atoms are bound to holds
of the predicates, if `and`, `or` and `not` keep it. They keep equal values and equal truths. They also keep a
boolean that may not be null in the place of one that may: `and` and `or` of the first stop at an operand that
decides, so that they have a value wherever those of the second have one, and the same.

* `Expr.LogicalRelation`: relations that the operators keep; **`BoolTree.bind_related`**: predicates of atoms that are
  related.
* `Expr.Replaces.logicalRelation`, `Expr.sameTruth_logicalRelation`: equal values and equal truths.
* `Expr.Shortens`, **`Expr.Shortens.logicalRelation`**: values with fewer operands looked at.
-/

namespace TypedQuery

open NodeCongruence (OperandsRel)

/-! ## Related predicates -/

/-- Outcomes the second of which is a related result wherever the first is one. -/
abbrev Leads (R : Expr → Expr → Prop) : Outcome Expr → Outcome Expr → Prop := Follows (fun _ => False) R

theorem leads_iff {R : Expr → Expr → Prop} {o₁ o₂ : Outcome Expr} :
    Leads R o₁ o₂ ↔ ∀ e₁, o₁ = .ok e₁ → ∃ e₂, o₂ = .ok e₂ ∧ R e₁ e₂ := by
  cases o₁ with
  | error e => exact ⟨fun _ => nofun, fun _ => False.elim⟩
  | ok e₁ =>
    constructor
    · intro h _ he
      cases he
      exact h.exists_ok
    · intro h
      obtain ⟨e₂, rfl, hR⟩ := h e₁ rfl
      exact hR

namespace Expr

/-- A relation that logic keeps, in whatever contexts the operands are bound, and that only looks at what
`Replaces` says. -/
structure LogicalRelation [External] (R : Expr → Expr → Prop) : Prop where
  replaces : ∀ {e₁ e₂ a₁ a₂ : Expr}, R e₁ e₂ → Replaces (fun _ => True) e₁ a₁ → Replaces (fun _ => True) e₂ a₂ → R a₁ a₂
  logical : ∀ (c₁ c₂ : Context) {op : QueryOp} {logical : BinaryOp}, op.binaryOp? = some logical →
    logical.isLogical = true → ∀ {l₁ l₂ r₁ r₂ : Expr}, R l₁ l₂ → R r₁ r₂ →
      Leads R (c₁.binary op l₁ r₁) (c₂.binary op l₂ r₂)
  not : ∀ {e₁ e₂ : Expr}, R e₁ e₂ → Leads R (Bind.unaryOperation .not e₁) (Bind.unaryOperation .not e₂)

end Expr

namespace Context

/-- The context some levels deeper. -/
def lowered (ctx : Context) (levels : Nat) : Context := { ctx with depth := ctx.depth + levels }

theorem Frame.deeper {c c' : Context} (h : c.Frame c') : c.deeper.Frame c'.deeper :=
  { h with depth := congrArg (· + 1) h.depth }

theorem Rebindable.lowered {ctx : Context} (h : ctx.Rebindable) (levels : Nat) : (ctx.lowered levels).Rebindable :=
  ⟨⟨h.numbered.current, h.numbered.root, h.numbered.scope⟩, h.readsBelow, h.readsCurrent⟩

end Context

/-- What is bound some levels deeper is bound to the same. -/
theorem Node.bind_of_lowered {node : Node} {ctx : Context} {levels : Nat} {e : Expr}
    (h : (node.bind (ctx.lowered levels)).1 = .ok e) : (node.bind ctx).1 = .ok e := by
  have hraised : Context.Raised ctx.settings.maxDepth (ctx.lowered levels) ctx :=
    ⟨rfl, Nat.le_refl _, Nat.le_add_right _ _⟩
  rw [hraised.bind (by rw [h]; trivial), h]

/-- **Predicates of related atoms are related.** -/
theorem BoolTree.bind_related [External] {ι : Type} {R : Expr → Expr → Prop} (hR : Expr.LogicalRelation R)
    {ctx : Context} (hctx : ctx.Rebindable) {atoms₁ atoms₂ : ι → Node}
    (hatoms : ∀ i levels, Leads R ((atoms₁ i).bind (ctx.lowered levels)).1 ((atoms₂ i).bind (ctx.lowered levels)).1)
    (t : BoolTree ι) : Leads R ((t.node atoms₁).bind ctx).1 ((t.node atoms₂).bind ctx).1 := by
  -- operands are bound deeper, and those to the right after nodes that are not the same
  suffices hrun : ∀ levels {c₁ c₂ : Context}, (ctx.lowered levels).Frame c₁ → (ctx.lowered levels).Frame c₂ →
      Leads R ((t.node atoms₁).bind c₁).1 ((t.node atoms₂).bind c₂).1 from hrun 0 (.refl ctx) (.refl ctx)
  have room {levels : Nat} {c₁ c₂ : Context} (h₁ : (ctx.lowered levels).Frame c₁) (h₂ : (ctx.lowered levels).Frame c₂)
      (hlt : c₁.depth < c₁.settings.maxDepth) : c₂.depth < c₂.settings.maxDepth := by
    rwa [h₂.depth, h₂.settings, ← h₁.depth, ← h₁.settings]
  induction t with
  | atom i =>
    intro levels c₁ c₂ h₁ h₂
    refine leads_iff.mpr fun e₁ he₁ => ?_
    obtain ⟨a₁, ha₁, hreplaces₁⟩ := ((hctx.lowered levels).bind_alike h₁ _).exists_left he₁
    obtain ⟨a₂, ha₂, ha⟩ := leads_iff.mp (hatoms i levels) a₁ ha₁
    obtain ⟨e₂, he₂, hreplaces₂⟩ := ((hctx.lowered levels).bind_alike h₂ _).exists_right ha₂
    exact ⟨e₂, he₂, hR.replaces ha hreplaces₁ hreplaces₂⟩
  | and left right ihl ihr | or left right ihl ihr =>
    intro levels c₁ c₂ h₁ h₂
    by_cases hlt : c₁.depth < c₁.settings.maxDepth
    · rw [node, node, Node.bind_operands hlt (by decide), Node.bind_operands (room h₁ h₂ hlt) (by decide)]
      have hl := ihl (levels + 1) h₁.deeper h₂.deeper
      have hr := ihr (levels + 1) (h₁.deeper.trans ((left.node atoms₁).bind_keeps _))
        (h₂.deeper.trans ((left.node atoms₂).bind_keeps _))
      exact hl.bind fun _ _ hl => hr.bind fun _ _ hr => hR.logical c₁ c₂ rfl rfl hl hr
    · rw [Node.bind_of_le (Nat.le_of_not_lt hlt)]
      exact False.elim
  | not operand ih =>
    intro levels c₁ c₂ h₁ h₂
    by_cases hlt : c₁.depth < c₁.settings.maxDepth
    · rw [node, node, Node.bind_operand hlt, Node.bind_operand (room h₁ h₂ hlt)]
      exact (ih (levels + 1) h₁.deeper h₂.deeper).bind fun _ _ => hR.not
    · rw [Node.bind_of_le (Nat.le_of_not_lt hlt)]
      exact False.elim

/-! ## Equal values and equal truths -/

namespace Expr

variable [External] {V S : Env → Prop} {e₁ e₂ a₁ a₂ : Expr}

/-- Expressions that do for each other. -/
theorem Replaces.logicalRelation (V : Env → Prop) : LogicalRelation (Replaces V) where
  replaces h h₁ h₂ := {
    type := by rw [← h₁.type, h.type, h₂.type]
    isNullConst := by rw [← h₁.isNullConst, h.isNullConst, h₂.isNullConst]
    text := fun s => (h₁.text s).symm.trans ((h.text s).trans (h₂.text s))
    eval := fun env henv => by rw [← h₁.eval env trivial, h.eval env henv, h₂.eval env trivial] }
  logical c₁ c₂ _ _ hop hlogical _ _ _ _ := Context.logical_replaces c₁ c₂ hop hlogical
  not := Bind.not_replaces

/-- The expressions are booleans of the same truth. -/
def SameTruth (env : Env) (e₁ e₂ : Expr) : Prop := ∃ τ, e₁.HasTruth env τ ∧ e₂.HasTruth env τ

theorem HasTruth.replace {env : Env} {τ : Truth} {e a : Expr} (h : e.HasTruth env τ)
    (ha : Replaces (fun _ => True) e a) : a.HasTruth env τ where
  type := ha.type ▸ h.type
  value := (ha.eval env trivial).symm.trans h.value
  known htype := h.known (ha.type.trans htype)

theorem sameTruth_logicalRelation (env : Env) : LogicalRelation (SameTruth env) where
  replaces := fun ⟨τ, h₁, h₂⟩ ha₁ ha₂ => ⟨τ, h₁.replace ha₁, h₂.replace ha₂⟩
  logical c₁ c₂ op logical hop hlogical l₁ l₂ r₁ r₂ := by
    rintro ⟨τ, hl₁, hl₂⟩ ⟨σ, hr₁, hr₂⟩
    have bound (c : Context) {l r : Expr} (hl : l.HasTruth env τ) (hr : r.HasTruth env σ) :
        ∃ e, c.binary op l r = .ok e ∧ e.HasTruth env (logical.combine τ σ) :=
      Context.exists_binary_logical op hop hlogical hl hr
    obtain ⟨e₁, he₁, h₁⟩ := bound c₁ hl₁ hr₁
    obtain ⟨e₂, he₂, h₂⟩ := bound c₂ hl₂ hr₂
    rw [he₁, he₂]
    exact ⟨_, h₁, h₂⟩
  not := by
    rintro e₁ e₂ ⟨τ, h₁, h₂⟩
    obtain ⟨a₁, ha₁, h₁⟩ := Bind.exists_not h₁
    obtain ⟨a₂, ha₂, h₂⟩ := Bind.exists_not h₂
    rw [ha₁, ha₂]
    exact ⟨_, h₁, h₂⟩

end Expr

/-! ## Values with fewer operands looked at -/

/-- Nothing becomes a boolean but booleans and null. -/
theorem Value.convert_truth_iff {v : Value} {τ : Truth} :
    v.convert HostType.bool.toNullable = .ok τ.toValue ↔ v = τ.toValue := by
  constructor
  · intro h
    cases v with
    | null | bool => exact Except.ok.inj h
    | _ => cases h
  · rintro rfl
    exact Expr.convert_toValue τ

namespace BinaryOp

variable {op : BinaryOp} {l r : Expr} {env : Env} {v : Value}

theorem truthOf_eq_ok_iff {τ : Truth} : truthOf v = .ok τ ↔ v = τ.toValue := by
  constructor
  · intro h
    unfold truthOf orFail at h
    cases v with
    | null => cases h; rfl
    | bool b => cases b <;> cases h <;> rfl
    | _ => cases h
  · rintro rfl
    rw [truthOf, Truth.ofValue?_toValue]
    rfl

/-- Logic of truths that may be unknown has a value where both operands have a truth. -/
theorem eval_lifted_iff [External] (hop : op.isLogical = true) :
    (Expr.mkBinary op (l.convertTo HostType.bool.toNullable) (r.convertTo HostType.bool.toNullable) false).eval env =
        .ok v ↔
      ∃ τ σ : Truth, l.eval env = .ok τ.toValue ∧ r.eval env = .ok σ.toValue ∧ v = (op.combine τ σ).toValue := by
  have operand {e : Expr} {τ : Truth} :
      (e.convertTo HostType.bool.toNullable).eval env = .ok τ.toValue ↔ e.eval env = .ok τ.toValue := by
    unfold Expr.convertTo
    split_ifs
    · rfl
    · rw [Expr.eval, Outcome.bind_eq_ok]
      constructor
      · rintro ⟨u, hu, hτ⟩
        rw [hu, Value.convert_truth_iff.mp hτ]
      · exact fun h => ⟨_, h, Expr.convert_toValue τ⟩
  rw [Expr.eval_logical_of_nullable hop (by rw [Expr.type_convertTo]; rfl)]
  constructor
  · intro h
    obtain ⟨a, ha, h⟩ := Outcome.bind_eq_ok.mp h
    obtain ⟨b, hb, h⟩ := Outcome.bind_eq_ok.mp h
    unfold apply at h
    rw [if_pos hop] at h
    obtain ⟨τ, hτ, h⟩ := Outcome.bind_eq_ok.mp h
    obtain ⟨σ, hσ, hv⟩ := Outcome.bind_eq_ok.mp h
    rw [truthOf_eq_ok_iff.mp hτ] at ha
    rw [truthOf_eq_ok_iff.mp hσ] at hb
    exact ⟨τ, σ, operand.mp ha, operand.mp hb, (Except.ok.inj hv).symm⟩
  · rintro ⟨τ, σ, hl, hr, rfl⟩
    rw [operand.mpr hl, operand.mpr hr]
    exact op.apply_toValue hop τ σ _ _

/-- A boolean decides, or leaves the result to the other operand. -/
theorem combine_ofBool (hop : op.isLogical = true) (x : Bool) (σ : Truth) :
    op.combine (.ofBool x) σ = if x = decide (op = .orElse) then .ofBool x else σ := by
  rcases eq_of_isLogical hop with rfl | rfl <;> cases x <;> cases σ <;> rfl

/-- Logic of booleans has a value where the left one decides, or both have a value. -/
theorem eval_plain_iff [External] (hop : op.isLogical = true) (hl : l.type = .bool) (hr : r.type = .bool) :
    (Expr.mkBinary op l r false).eval env = .ok v ↔
      ∃ x, l.eval env = .ok (.bool x) ∧
        if x = decide (op = .orElse) then v = .bool x else ∃ y, r.eval env = .ok (.bool y) ∧ v = .bool y := by
  rw [Expr.eval_logical hop (by rw [hl]; rfl) (by rw [hr]; rfl)]
  constructor
  · intro h
    obtain ⟨u, hu, h⟩ := Outcome.bind_eq_ok.mp h
    cases u with
    | bool x =>
      refine ⟨x, hu, ?_⟩
      unfold shortCircuit at h
      dsimp only at h
      split_ifs at h ⊢
      · exact (Except.ok.inj h).symm
      · obtain ⟨w, hw, h⟩ := Outcome.bind_eq_ok.mp h
        cases w with
        | bool y => exact ⟨y, hw, (Except.ok.inj h).symm⟩
        | _ => cases h
    | _ => cases h
  · rintro ⟨x, hx, h⟩
    rw [hx]
    unfold shortCircuit
    show (if _ then _ else _) = _
    split_ifs at h ⊢
    · rw [h]
    · obtain ⟨y, hy, rfl⟩ := h
      rw [hy]
      rfl

end BinaryOp

/-- The second expression has a value wherever the first has one, and the same: in all environments of `V` where both
have values, and for sure in those of `S`, where no operand is null if its type has no null. The first may be of the
type of booleans with null in the place of booleans. -/
structure Expr.Shortens [External] (V S : Env → Prop) (e₁ e₂ : Expr) : Prop where
  type : e₁.type = e₂.type ∨ e₁.type = HostType.bool.toNullable ∧ e₂.type = .bool
  isNullConst : e₁.isNullConst = e₂.isNullConst
  text : ∀ s, e₁.constValue? = some (.string s) ↔ e₂.constValue? = some (.string s)
  eval : ∀ env, V env →
    (e₁.eval env).Tracks (S env) False (fun v => S env → e₂.type = .bool → v ≠ .null) (e₂.eval env)

open TypedQuery.Expr (Shortens)

namespace Expr.Shortens

variable [External] {V S : Env → Prop} {e e₁ e₂ : Expr}

/-- An expression that is not null if its type has no null. -/
theorem refl (h : ∀ env, V env → S env → e.type = .bool → e.eval env ≠ .ok .null) : Shortens V S e e where
  type := .inl rfl
  isNullConst := rfl
  text _ := .rfl
  eval env henv := by
    refine ⟨fun ha _ => ⟨ha, fun hsound htype hnull => h env henv hsound htype ?_⟩, False.elim⟩
    rw [ha, hnull]

theorem of_type (h : e.type ≠ .bool) : Shortens V S e e := refl fun _ _ _ htype => absurd htype h

theorem mkNull (t : HostType) : Shortens V S (.mkNull t) (.mkNull t) := by
  refine of_type fun htype => ?_
  have hnullable := HostType.isNullable_toNullable t
  rw [show t.toNullable = .bool from htype] at hnullable
  cases hnullable

theorem lifts (h : Shortens V S e₁ e₂) : e₁.type.Lifts e₂.type := by
  rcases h.type with htype | ⟨h₁, h₂⟩
  · exact .inl htype
  · rw [h₁, h₂]
    exact .inr rfl

/-- What is no literal. -/
theorem of_eval (htype : e₁.type = e₂.type ∨ e₁.type = HostType.bool.toNullable ∧ e₂.type = .bool)
    (h₁ : e₁.constValue? = none) (h₂ : e₂.constValue? = none)
    (h : ∀ env, V env →
      (e₁.eval env).Tracks (S env) False (fun v => S env → e₂.type = .bool → v ≠ .null) (e₂.eval env)) :
    Shortens V S e₁ e₂ where
  type := htype
  isNullConst := by rw [(plain_of_constValue? h₁).1, (plain_of_constValue? h₂).1]
  text s := by rw [h₁, h₂]
  eval := h

theorem convert (h : Shortens V S e₁ e₂) (t : HostType) : Shortens V S (.convert e₁ t) (.convert e₂ t) := by
  refine of_eval (.inl rfl) rfl rfl fun env henv => ?_
  rw [Expr.eval, Expr.eval]
  refine (h.eval env henv).bind fun v _ => ⟨fun hw _ => ⟨hw, fun _ htype hnull => ?_⟩, False.elim⟩
  have hnullable := (Value.Suits.of_convert hw).null (by rw [hnull]; rfl)
  rw [show t = .bool from htype] at hnullable
  cases hnullable

theorem mkNot (h : Shortens V S e₁ e₂) : Shortens V S (.mkUnary .not e₁) (.mkUnary .not e₂) := by
  refine of_eval h.type rfl rfl fun env henv => ?_
  rw [mkUnary, mkUnary, Expr.eval, Expr.eval]
  refine (h.eval env henv).bind fun v hv => ⟨fun {w} hw _ => ⟨hw, fun hsound htype hnull => hv hsound htype ?_⟩,
    False.elim⟩
  subst hnull
  cases v <;> first | rfl | cases hw

end Expr.Shortens

namespace Bind

variable [External] {V S : Env → Prop} {e₁ e₂ l₁ l₂ r₁ r₂ : Expr}

/-! ### Operands brought together -/

theorem enumLiteral_shortens (h : Shortens V S e₁ e₂) (enum : EnumType) {value : Int64}
    (hvalue : enumLiteral e₁ enum = .ok value) : enumLiteral e₂ enum = .ok value := by
  unfold enumLiteral at hvalue
  split at hvalue
  next s hs =>
    unfold enumLiteral
    rw [(h.text s).mp hs]
    exact hvalue
  next => cases hvalue

theorem toUnderlying_shortens (h : Shortens V S e₁ e₂) (enum : EnumType) :
    Leads (Shortens V S) (toUnderlying e₁ enum) (toUnderlying e₂ enum) := by
  have same {t : HostType} (ht : t ≠ .bool) (htype : e₂.type = t) : e₁.type = e₂.type :=
    h.type.resolve_right fun hplain => ht (htype.symm.trans hplain.2)
  unfold toUnderlying
  dsimp only
  rw [h.isNullConst, h.lifts.asEnum?, h.lifts.isIntegral]
  split_ifs with hnull henum hintegral
  · exact .mkNull _
  · rw [same (t := e₂.type) (fun ht => by rw [ht] at henum; cases henum) rfl]
    exact h.convert _
  · rw [same (t := e₂.type) (fun ht => by rw [ht] at hintegral; cases hintegral) rfl]
    unfold Expr.convertTo
    rw [same (t := e₂.type) (fun ht => by rw [ht] at hintegral; cases hintegral) rfl]
    split_ifs
    · exact h
    · exact h.convert _
  · refine leads_iff.mpr fun a ha => ⟨a, ?_, ?_⟩
    · obtain ⟨value, hvalue, ha⟩ := Outcome.bind_eq_ok.mp ha
      rw [enumLiteral_shortens h enum hvalue]
      exact ha
    · obtain ⟨value, -, ha⟩ := Outcome.bind_eq_ok.mp ha
      obtain ⟨w, hw, ha⟩ := Outcome.bind_eq_ok.mp ha
      cases ha
      refine .of_type fun htype => ?_
      rw [show enum.underlying = .bool from htype] at hw
      cases hw

theorem unifyEnums_shortens (hl : Shortens V S l₁ l₂) (hr : Shortens V S r₁ r₂) :
    Follows (fun _ => False) (OperandsRel (Shortens V S)) (unifyEnums l₁ r₁) (unifyEnums l₂ r₂) := by
  unfold unifyEnums
  rw [hl.lifts.asEnum?, hr.lifts.asEnum?]
  split
  · exact ⟨hl, hr⟩
  · exact (toUnderlying_shortens hl _).bind fun _ _ hl' => (toUnderlying_shortens hr _).bind fun _ _ hr' => ⟨hl', hr'⟩

theorem unifyNulls_shortens (hl : Shortens V S l₁ l₂) (hr : Shortens V S r₁ r₂) :
    OperandsRel (Shortens V S) (unifyNulls l₁ r₁) (unifyNulls l₂ r₂) := by
  -- the null of a boolean is the null of a boolean that may be null
  have null {x₁ x₂ : Expr} (h : Shortens V S x₁ x₂) : Shortens V S (.mkNull x₁.type) (.mkNull x₂.type) := by
    have htype : Expr.mkNull x₁.type = .mkNull x₂.type := by
      rcases h.type with htype | ⟨h₁, h₂⟩
      · rw [htype]
      · rw [h₁, h₂]
        rfl
    rw [htype]
    exact .mkNull _
  unfold unifyNulls
  rw [hl.isNullConst, hr.isNullConst]
  split
  · exact ⟨null hr, hr⟩
  · exact ⟨hl, null hl⟩
  · exact ⟨hl, hr⟩

theorem asBoolean_shortens (h : Shortens V S e₁ e₂) :
    Follows (fun _ => False) (fun a b => Shortens V S a b ∧ b.type.isBool = true) (asBoolean e₁) (asBoolean e₂) := by
  unfold asBoolean
  rw [h.lifts.isBool, h.lifts.isObject]
  split_ifs with hbool
  · exact ⟨h, hbool⟩
  · exact ⟨h.convert _, rfl⟩
  · exact False.elim

/-! ### Operators -/

section Logical

variable {op : BinaryOp} (hop : op.isLogical = true) (hl : Shortens V S l₁ l₂) (hr : Shortens V S r₁ r₂)
include hop hl hr

/-- Both sides look at both operands. -/
theorem lifted_shortens :
    Shortens V S (.mkBinary op (l₁.convertTo HostType.bool.toNullable) (r₁.convertTo HostType.bool.toNullable) false)
      (.mkBinary op (l₂.convertTo HostType.bool.toNullable) (r₂.convertTo HostType.bool.toNullable) false) := by
  have htype (l r : Expr) : (Expr.mkBinary op (l.convertTo HostType.bool.toNullable)
      (r.convertTo HostType.bool.toNullable) false).type = HostType.bool.toNullable := by
    rw [type_logical hop, Expr.type_convertTo, Expr.type_convertTo]
    rfl
  refine .of_eval (.inl ((htype l₁ r₁).trans (htype l₂ r₂).symm)) rfl rfl fun env henv => ⟨fun {v} hv hsurely => ?_,
    False.elim⟩
  obtain ⟨τ, σ, hτ, hσ, rfl⟩ := (BinaryOp.eval_lifted_iff hop).mp hv
  have hvalues : S env ∨ (∃ w, l₂.eval env = .ok w) ∧ ∃ w, r₂.eval env = .ok w := hsurely.imp id fun ⟨_, hw⟩ => by
    obtain ⟨τ', σ', hτ', hσ', -⟩ := (BinaryOp.eval_lifted_iff hop).mp hw
    exact ⟨⟨_, hτ'⟩, _, hσ'⟩
  have hτ₂ := ((hl.eval env henv).forward hτ (hvalues.imp id And.left)).1
  have hσ₂ := ((hr.eval env henv).forward hσ (hvalues.imp id And.right)).1
  refine ⟨(BinaryOp.eval_lifted_iff hop).mpr ⟨τ, σ, hτ₂, hσ₂, rfl⟩, fun _ hplain => ?_⟩
  rw [htype] at hplain
  cases hplain

variable (hlt : l₂.type = .bool) (hrt : r₂.type = .bool)
include hlt hrt

/-- The second side may look at one operand only. -/
theorem plain_shortens_lifted :
    Shortens V S (.mkBinary op (l₁.convertTo HostType.bool.toNullable) (r₁.convertTo HostType.bool.toNullable) false)
      (.mkBinary op l₂ r₂ false) := by
  have known {x₁ x₂ : Expr} (h : Shortens V S x₁ x₂) (htype : x₂.type = .bool) {env : Env} (henv : V env) {τ : Truth}
      (hτ : x₁.eval env = .ok τ.toValue) (hsurely : S env ∨ ∃ x, x₂.eval env = .ok (.bool x)) :
      ∃ x, τ = .ofBool x ∧ x₂.eval env = .ok (.bool x) := by
    obtain ⟨hvalue, hnull⟩ := (h.eval env henv).forward hτ (hsurely.imp id fun ⟨x, hx⟩ => ⟨_, hx⟩)
    cases τ with
    | true => exact ⟨true, rfl, hvalue⟩
    | false => exact ⟨false, rfl, hvalue⟩
    | unknown =>
      rcases hsurely with hsound | ⟨x, hx⟩
      · exact absurd rfl (hnull hsound htype)
      · cases hvalue.symm.trans hx
  have htype₁ : (Expr.mkBinary op (l₁.convertTo HostType.bool.toNullable) (r₁.convertTo HostType.bool.toNullable)
      false).type = HostType.bool.toNullable := by
    rw [type_logical hop, Expr.type_convertTo, Expr.type_convertTo]
    rfl
  have htype₂ : (Expr.mkBinary op l₂ r₂ false).type = .bool := by
    rw [type_logical hop, hlt, hrt]
    rfl
  refine .of_eval (.inr ⟨htype₁, htype₂⟩) rfl rfl fun env henv => ⟨fun {v} hv hsurely => ?_, False.elim⟩
  obtain ⟨τ, σ, hτ, hσ, rfl⟩ := (BinaryOp.eval_lifted_iff hop).mp hv
  have hsurely := hsurely.imp id (Exists.imp fun _ => (BinaryOp.eval_plain_iff hop hlt hrt).mp)
  obtain ⟨x, rfl, hx⟩ := known hl hlt henv hτ (hsurely.imp id fun ⟨_, x, hx, _⟩ => ⟨x, hx⟩)
  rw [BinaryOp.combine_ofBool hop, BinaryOp.eval_plain_iff hop hlt hrt]
  by_cases hdecides : x = decide (op = .orElse)
  · rw [if_pos hdecides]
    refine ⟨⟨x, hx, ?_⟩, fun _ _ => ?_⟩
    · rw [if_pos hdecides]
      cases x <;> rfl
    · cases x <;> nofun
  · rw [if_neg hdecides]
    obtain ⟨y, rfl, hy⟩ := known hr hrt henv hσ (hsurely.imp id fun ⟨_, x', hx', hrest⟩ => by
      cases hx.symm.trans hx'
      rw [if_neg hdecides] at hrest
      exact hrest.imp fun _ => And.left)
    refine ⟨⟨x, hx, ?_⟩, fun _ _ => ?_⟩
    · rw [if_neg hdecides]
      exact ⟨y, hy, by cases y <;> rfl⟩
    · cases y <;> nofun

/-- Both sides may look at one operand only. -/
theorem plain_shortens (hlt₁ : l₁.type = .bool) (hrt₁ : r₁.type = .bool) :
    Shortens V S (.mkBinary op l₁ r₁ false) (.mkBinary op l₂ r₂ false) := by
  have htype : (Expr.mkBinary op l₁ r₁ false).type = (Expr.mkBinary op l₂ r₂ false).type := by
    rw [type_logical hop, type_logical hop, hlt, hrt, hlt₁, hrt₁]
  refine .of_eval (.inl htype) rfl rfl fun env henv => ⟨fun {v} hv hsurely => ?_, False.elim⟩
  obtain ⟨x, hx₁, hrest₁⟩ := (BinaryOp.eval_plain_iff hop hlt₁ hrt₁).mp hv
  have hsurely := hsurely.imp id (Exists.imp fun _ => (BinaryOp.eval_plain_iff hop hlt hrt).mp)
  have hx := ((hl.eval env henv).forward hx₁ (hsurely.imp id fun ⟨_, x, hx, _⟩ => ⟨_, hx⟩)).1
  rw [BinaryOp.eval_plain_iff hop hlt hrt]
  by_cases hdecides : x = decide (op = .orElse)
  · rw [if_pos hdecides] at hrest₁
    subst hrest₁
    exact ⟨⟨x, hx, by rw [if_pos hdecides]⟩, fun _ _ => nofun⟩
  · rw [if_neg hdecides] at hrest₁
    obtain ⟨y, hy₁, rfl⟩ := hrest₁
    have hy := ((hr.eval env henv).forward hy₁ (hsurely.imp id fun ⟨_, x', hx', hrest⟩ => by
      cases hx.symm.trans hx'
      rw [if_neg hdecides] at hrest
      obtain ⟨z, hz, -⟩ := hrest
      exact ⟨_, hz⟩)).1
    exact ⟨⟨x, hx, by rw [if_neg hdecides]; exact ⟨y, hy, rfl⟩⟩, fun _ _ => nofun⟩

end Logical

theorem logical_shortens {op : BinaryOp} (hop : op.isLogical = true) (hl : Shortens V S l₁ l₂)
    (hr : Shortens V S r₁ r₂) : Leads (Shortens V S) (logical op l₁ r₁) (logical op l₂ r₂) := by
  unfold logical
  refine (asBoolean_shortens hl).bind fun a₁ a₂ ⟨ha, hat⟩ => (asBoolean_shortens hr).bind fun b₁ b₂ ⟨hb, hbt⟩ => ?_
  dsimp only
  cases hnull₂ : a₂.type.isNullableValueType || b₂.type.isNullableValueType with
  | true =>
    have hnull₁ : (a₁.type.isNullableValueType || b₁.type.isNullableValueType) = true := by
      rcases Bool.or_eq_true_iff.mp hnull₂ with hnull | hnull
      · rw [ha.lifts.isNullableValueType hnull, hnull, Bool.true_or]
      · rw [hb.lifts.isNullableValueType hnull, hnull, Bool.or_true]
    rw [hnull₁]
    exact lifted_shortens hop ha hb
  | false =>
    obtain ⟨ha₂, hb₂⟩ := Bool.or_eq_false_iff.mp hnull₂
    have hat₂ := type_of_isBool hat ha₂
    have hbt₂ := type_of_isBool hbt hb₂
    cases hnull₁ : a₁.type.isNullableValueType || b₁.type.isNullableValueType with
    | true => exact plain_shortens_lifted hop ha hb hat₂ hbt₂
    | false =>
      obtain ⟨ha₁, hb₁⟩ := Bool.or_eq_false_iff.mp hnull₁
      exact plain_shortens hop ha hb hat₂ hbt₂ (type_of_isBool (ha.lifts.isBool.trans hat) ha₁)
        (type_of_isBool (hb.lifts.isBool.trans hbt) hb₁)

theorem not_shortens (h : Shortens V S e₁ e₂) :
    Leads (Shortens V S) (unaryOperation .not e₁) (unaryOperation .not e₂) := by
  unfold unaryOperation
  dsimp only
  rw [h.lifts.isBool, h.lifts.isObject]
  split_ifs
  · exact h.mkNot
  · exact (h.convert _).mkNot
  · exact False.elim

end Bind

/-- **Logic keeps values**, and fails at no more places. -/
theorem Expr.Shortens.logicalRelation [External] (V S : Env → Prop) : Expr.LogicalRelation
    (Shortens V S) where
  replaces {e₁ e₂ a₁ a₂} h h₁ h₂ := {
    type := by rw [← h₁.type, ← h₂.type]; exact h.type
    isNullConst := by rw [← h₁.isNullConst, h.isNullConst, h₂.isNullConst]
    text := fun s => (h₁.text s).symm.trans ((h.text s).trans (h₂.text s))
    eval := fun env henv => by
      rw [← h₁.eval env trivial, ← h₂.eval env trivial, ← h₂.type]
      exact h.eval env henv }
  logical c₁ c₂ op logical hop hlogical l₁ l₂ r₁ r₂ hl hr := by
    unfold Context.binary
    rw [hop]
    refine (Bind.unifyEnums_shortens hl hr).bind fun p q hpq => ?_
    have hnulls := Bind.unifyNulls_shortens hpq.1 hpq.2
    dsimp only
    rw [if_pos hlogical, if_pos hlogical]
    exact Bind.logical_shortens hlogical hnulls.1 hnulls.2
  not := Bind.not_shortens

end TypedQuery
