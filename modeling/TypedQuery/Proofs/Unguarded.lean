import TypedQuery.Proofs.NullFree
import TypedQuery.Proofs.Parameterization

/-!
# Expressions with and without guards

With null propagation, what is read is guarded. Where nothing is null, a guard does not change a value: an
expression that is bound with null propagation mirrors the one that is bound without it. The type of the first
may have null where that of the second has not.

* `HostType.Lifts`: a type that is another one, with null or without.
* `Expr.isNarrow`: nothing is converted to integers of 64 bits without sign.
* **`Expr.Mirrors`**: an expression has the values of another, which are of its type and without null.
* `Expr.Mirrors.convertTo`, `Expr.Mirrors.guardCall`, `Expr.Mirrors.member`: conversions, guards and members.
* `Context.memberAccess_mirrors`: a declared property, guarded or not.
-/

namespace TypedQuery

/-! ## Types with null -/

namespace HostType

/-- The first type is the second, or the second with null. -/
def Lifts (t u : HostType) : Prop := t = u ∨ t = u.toNullable

namespace Lifts

variable {t u : HostType}

theorem refl (t : HostType) : t.Lifts t := .inl rfl

theorem nonNullable (h : t.Lifts u) : t.nonNullable = u.nonNullable := by
  rcases h with rfl | rfl
  · rfl
  · exact u.nonNullable_toNullable

theorem toNullable (h : t.Lifts u) : t.toNullable.Lifts u := by
  rcases h with rfl | rfl
  · exact .inr rfl
  · exact .inr u.toNullable_toNullable

/-- A type that has null is not lifted any more. -/
theorem eq_of_isNullable (h : t.Lifts u) (hu : u.isNullable = true) : t = u := by
  rcases h with rfl | rfl
  · rfl
  · exact toNullable_of_isNullable hu

theorem eq_of_not_isNullableValueType (h : t.Lifts u) (ht : t.isNullableValueType = false) : t = u := by
  rcases h with rfl | rfl
  · rfl
  · unfold HostType.toNullable at ht ⊢
    split_ifs at ht ⊢
    · cases ht
    · rfl

theorem isNullableValueType (h : t.Lifts u) (hu : u.isNullableValueType = true) : t = u :=
  h.eq_of_isNullable (by cases u <;> first | rfl | cases hu)

theorem eq_iff (h : t.Lifts u) {w : HostType} (hw : w.isNullable = true)
    (hvalue : w.isNullableValueType = false) : t = w ↔ u = w := by
  constructor
  · rintro rfl
    exact (h.eq_of_not_isNullableValueType hvalue).symm
  · rintro rfl
    exact h.eq_of_isNullable hw

theorem isObject (h : t.Lifts u) : t.isObject = u.isObject := by
  simp only [HostType.isObject, h.eq_iff (w := .object) rfl rfl]

theorem isBool (h : t.Lifts u) : t.isBool = u.isBool := by
  simp only [HostType.isBool, h.nonNullable]

theorem isIntegral (h : t.Lifts u) : t.isIntegral = u.isIntegral := by
  simp only [HostType.isIntegral, h.nonNullable]

theorem asEnum? (h : t.Lifts u) : t.asEnum? = u.asEnum? := by
  simp only [HostType.asEnum?, h.nonNullable]

theorem nullableLike (h : t.Lifts u) (w : HostType) : (w.nullableLike t).Lifts (w.nullableLike u) := by
  unfold HostType.nullableLike
  split_ifs with ht hu hu
  · exact .refl _
  · exact .inr rfl
  · rw [h.isNullableValueType hu] at ht
    exact absurd hu ht
  · exact .refl _

end Lifts

end HostType

namespace Expr

/-! ## Conversions to wide integers -/

mutual

/-- Whether nothing in the expression is converted to integers of 64 bits without sign. -/
def isNarrow (e : Expr) : Bool :=
  match e with
  | .const .. | .captured .. | .param _ => true
  | .member source _ => isNarrow source
  | .index source key => isNarrow source && isNarrow key
  | .binary _ left right _ _ => isNarrow left && isNarrow right
  | .convert x t => decide (t.nonNullable ≠ .int .uint64) && isNarrow x
  | .unary _ x _ | .typeIs x _ | .typeAs x _ => isNarrow x
  | .cond test ifTrue ifFalse _ => isNarrow test && (isNarrow ifTrue && isNarrow ifFalse)
  | .call _ args _ => areNarrow args
  | .lambda _ body => isNarrow body
  | .container slots => areNarrowSlots slots
  | .wrapper ⟨_, g, c, s, i, m⟩ =>
    isNarrowMember g && (isNarrowMember c && (isNarrowMember s && (isNarrowMember i && isNarrowMember m)))
  | .slot chain _ _ => isNarrow chain
termination_by structural e

/-- Whether nothing in the arguments is converted to such integers. -/
def areNarrow (args : List Expr) : Bool :=
  match args with
  | [] => true
  | e :: rest => isNarrow e && areNarrow rest
termination_by structural args

/-- Whether nothing in the slots is converted to such integers. -/
def areNarrowSlots (slots : List (String × Expr)) : Bool :=
  match slots with
  | [] => true
  | (_, e) :: rest => isNarrow e && areNarrowSlots rest
termination_by structural slots

/-- Whether nothing in a member that may be missing is converted to such integers. -/
def isNarrowMember (member : Option Expr) : Bool :=
  match member with
  | none => true
  | some e => isNarrow e
termination_by structural member

end

variable {e x l r source result : Expr} {t : HostType}

theorem areNarrow_iff {args : List Expr} : areNarrow args = true ↔ ∀ e ∈ args, e.isNarrow = true := by
  induction args with
  | nil => simp [areNarrow]
  | cons e rest ih => rw [areNarrow, Bool.and_eq_true, ih, List.forall_mem_cons]

theorem isNarrow_mkBinary {op : BinaryOp} {lifted : Bool} :
    (mkBinary op l r lifted).isNarrow = true ↔ l.isNarrow = true ∧ r.isNarrow = true := by
  rw [mkBinary, isNarrow, Bool.and_eq_true]

theorem isNarrow_convert :
    (convert x t).isNarrow = true ↔ t.nonNullable ≠ .int .uint64 ∧ x.isNarrow = true := by
  rw [isNarrow, Bool.and_eq_true, decide_eq_true_iff]

theorem isNarrow_mkCall {m : Method} {args : List Expr} :
    (mkCall m args).isNarrow = true ↔ ∀ e ∈ args, e.isNarrow = true := by
  rw [mkCall, isNarrow, areNarrow_iff]

/-- What is converted to a wide integer was one before. -/
theorem isNarrow_convertTo (h : (x.convertTo t).isNarrow = true) :
    x.isNarrow = true ∧ (t.nonNullable = .int .uint64 → x.type = t) := by
  unfold convertTo at h
  split_ifs at h with ht
  · exact ⟨h, fun _ => ht⟩
  · rw [isNarrow_convert] at h
    exact ⟨h.2, fun hwide => absurd hwide h.1⟩

theorem isNarrow_foldl_isNull {test : Expr} {args : List Expr}
    (h : (args.foldl (fun test e => mkBinary .orElse test (mkEqual e (mkNull e.type)) false) test).isNarrow
      = true) : test.isNarrow = true ∧ ∀ e ∈ args, e.isNarrow = true := by
  induction args generalizing test with
  | nil => exact ⟨h, by simp⟩
  | cons a rest ih =>
    obtain ⟨htest, hrest⟩ := ih h
    rw [isNarrow_mkBinary, mkEqual, isNarrow_mkBinary] at htest
    exact ⟨htest.1, List.forall_mem_cons.mpr ⟨htest.2.1, hrest⟩⟩

/-- The parts of a guard. -/
theorem isNarrow_guardCall {args : List Expr} (h : (Bind.guardCall args e).isNarrow = true) :
    e.isNarrow = true ∧ (∀ a ∈ args, a.isNarrow = true) ∧
      (args ≠ [] → e.type.nonNullable = .int .uint64 → e.type = e.type.toNullable) := by
  cases args with
  | nil => exact ⟨h, by simp, fun hne => absurd rfl hne⟩
  | cons a rest =>
    simp only [Bind.guardCall, Bind.someIsNull?, mkCond, isNarrow, Bool.and_eq_true] at h
    obtain ⟨htest, -, hresult⟩ := h
    obtain ⟨hfirst, hrest⟩ := isNarrow_foldl_isNull htest
    rw [mkEqual, isNarrow_mkBinary] at hfirst
    obtain ⟨he, hwide⟩ := isNarrow_convertTo hresult
    refine ⟨he, List.forall_mem_cons.mpr ⟨hfirst.1, hrest⟩, fun _ htype => hwide ?_⟩
    rw [e.type.nonNullable_toNullable, htype]

/-! ## Mirrors -/

/-- Whether the expression is neither the literal null nor a lambda. -/
def isOperand (e : Expr) : Bool := !e.isNullConst && !e.isLambda

theorem isOperand_iff : e.isOperand = true ↔ e.isNullConst = false ∧ e.isLambda = false := by
  rw [isOperand, Bool.and_eq_true, Bool.not_eq_true', Bool.not_eq_true']

theorem isOperand_convertTo (h : x.isOperand = true) : (x.convertTo t).isOperand = true := by
  unfold convertTo
  split_ifs
  · exact h
  · rfl

/-- Where an environment has a property, the second expression has each value of the first one, which is
without null and of the type of the second; the type of the first may have null where that one has not.
A type of wide integers is the same on both sides, if none are converted. -/
structure Mirrors [External] (s : Schema) (V : Env → Prop) (e₁ e₂ : Expr) : Prop where
  type : e₁.type.Lifts e₂.type
  left : e₁.isOperand = true
  right : e₂.isOperand = true
  wide : e₁.isNarrow = true → e₁.type.nonNullable = .int .uint64 → e₁.type = e₂.type
  eval : e₁.isNarrow = true → ∀ {env v}, V env → e₁.eval env = .ok v →
    e₂.eval env = .ok v ∧ s.Settles e₂.type v

/-- What has a value of its type is brought to a type by a conversion of the value. -/
theorem eval_convertTo [External] {s : Schema} {env : Env} {v : Value} (hv : x.eval env = .ok v)
    (hsettled : s.Settles x.type v) : (x.convertTo t).eval env = v.convert t :=
  eval_convertTo_of_eval hv fun ht => hsettled.convert_self (by rw [ht])

theorem exists_eval_of_convertTo [External] {env : Env} {v : Value} (h : (x.convertTo t).eval env = .ok v) :
    ∃ a, x.eval env = .ok a := by
  cases hx : x.eval env with
  | ok a => exact ⟨a, rfl⟩
  | error err =>
    rw [eval_convertTo_of_error hx] at h
    cases h

/-- Of expressions that mirror others none is null. -/
theorem someNull_eq_false [External] {s : Schema} {V : Env → Prop} {args : List Expr} {env : Env} {b : Bool}
    (hargs : ∀ a ∈ args, ∃ a', Mirrors s V a a') (hnarrow : ∀ a ∈ args, a.isNarrow = true) (henv : V env)
    (hb : someNull env args = .ok b) : b = false := by
  induction args with
  | nil =>
    cases hb
    rfl
  | cons a rest ih =>
    obtain ⟨v, hv, hb⟩ := Outcome.bind_eq_ok.mp hb
    obtain ⟨a', ha⟩ := hargs a List.mem_cons_self
    obtain ⟨-, hsettled⟩ := ha.eval (hnarrow a List.mem_cons_self) henv hv
    rw [hsettled.isNull, if_neg Bool.false_ne_true] at hb
    exact ih (fun c hc => hargs c (List.mem_cons_of_mem _ hc))
      (fun c hc => hnarrow c (List.mem_cons_of_mem _ hc)) hb

namespace Mirrors

variable [External] {s : Schema} {V : Env → Prop} {e₁ e₂ x₁ x₂ : Expr} {t₁ t₂ : HostType}

theorem refl (he : e.isOperand = true) (h : ∀ env v, V env → e.eval env = .ok v → s.Settles e.type v) :
    Mirrors s V e e where
  type := .refl _
  left := he
  right := he
  wide _ _ := rfl
  eval _ _ _ henv hv := ⟨hv, h _ _ henv hv⟩

/-- An expression that is no wide integer. -/
theorem of_eval (htype : e₁.type.Lifts e₂.type) (hleft : e₁.isOperand = true) (hright : e₂.isOperand = true)
    (hwide : e₁.type.nonNullable ≠ .int .uint64)
    (heval : e₁.isNarrow = true → ∀ {env v}, V env → e₁.eval env = .ok v →
      e₂.eval env = .ok v ∧ s.Settles e₂.type v) : Mirrors s V e₁ e₂ where
  type := htype
  left := hleft
  right := hright
  wide _ h := absurd h hwide
  eval := heval

/-! ### Conversions -/

theorem convert (h : Mirrors s V x₁ x₂) (ht : t₁.Lifts t₂)
    (hsettles : ∀ v w, s.Settles x₂.type v → v.convert t₂ = .ok w → s.Settles t₂ w) :
    Mirrors s V (.convert x₁ t₁) (.convert x₂ t₂) where
  type := ht
  left := rfl
  right := rfl
  wide hnarrow hwide := absurd hwide (isNarrow_convert.mp hnarrow).1
  eval hnarrow env w henv hw := by
    obtain ⟨v, hv, hw⟩ := Outcome.bind_eq_ok.mp hw
    obtain ⟨hv, hsettled⟩ := h.eval (isNarrow_convert.mp hnarrow).2 henv hv
    have hconvert := Value.convert_congr hsettled.isNull ht.nonNullable hw
    refine ⟨?_, hsettles v w hsettled hconvert⟩
    rw [Expr.eval, hv]
    exact hconvert

/-- Operands that are brought to one type, null aside, have the same value. Where one of them has the type
already, the conversion of the other changes nothing. -/
theorem eval_convertTo (h : Mirrors s V x₁ x₂) (ht : t₁.nonNullable = t₂.nonNullable)
    (hnarrow : x₁.isNarrow = true) {env : Env} {w : Value} (henv : V env)
    (hw : (x₁.convertTo t₁).eval env = .ok w) :
    (x₂.convertTo t₂).eval env = .ok w ∧ ∃ v, s.Settles x₂.type v ∧ v.convert t₂ = .ok w := by
  have hvalue : ∃ v, x₂.eval env = .ok v ∧ s.Settles x₂.type v ∧ v.convert t₁ = .ok w := by
    unfold Expr.convertTo at hw
    split_ifs at hw with htype
    · obtain ⟨hv, hsettled⟩ := h.eval hnarrow henv hw
      refine ⟨w, hv, hsettled, hsettled.convert_self ?_⟩
      rw [← h.type.nonNullable, htype]
    · obtain ⟨v, hv, hw⟩ := Outcome.bind_eq_ok.mp hw
      obtain ⟨hv, hsettled⟩ := h.eval hnarrow henv hv
      exact ⟨v, hv, hsettled, hw⟩
  obtain ⟨v, hv, hsettled, hw⟩ := hvalue
  have hconvert := Value.convert_congr hsettled.isNull ht hw
  exact ⟨(Expr.eval_convertTo hv hsettled).trans hconvert, v, hsettled, hconvert⟩

theorem convertTo (h : Mirrors s V x₁ x₂) (ht : t₁.Lifts t₂)
    (hsettles : ∀ v w, s.Settles x₂.type v → v.convert t₂ = .ok w → s.Settles t₂ w)
    (hwide : t₁.nonNullable = .int .uint64 → x₁.type = x₂.type → t₁ = t₂) :
    Mirrors s V (x₁.convertTo t₁) (x₂.convertTo t₂) where
  type := by rwa [type_convertTo, type_convertTo]
  left := isOperand_convertTo h.left
  right := isOperand_convertTo h.right
  wide hnarrow hkind := by
    rw [type_convertTo] at hkind ⊢
    rw [type_convertTo]
    obtain ⟨hx, hsame⟩ := isNarrow_convertTo hnarrow
    have hsame := hsame hkind
    exact hwide hkind (h.wide hx (hsame ▸ hkind))
  eval hnarrow env w henv hw := by
    obtain ⟨hw, v, hsettled, hconvert⟩ :=
      h.eval_convertTo ht.nonNullable (isNarrow_convertTo hnarrow).1 henv hw
    rw [type_convertTo]
    exact ⟨hw, hsettles v w hsettled hconvert⟩

/-! ### Guards -/

/-- **A guard does not change a value.** -/
theorem guardCall {args : List Expr} (hargs : ∀ a ∈ args, ∃ a', Mirrors s V a a') (h : Mirrors s V e₁ e₂) :
    Mirrors s V (Bind.guardCall args e₁) e₂ := by
  cases args with
  | nil => exact h
  | cons a rest =>
    refine ⟨?_, rfl, h.right, fun hnarrow hkind => ?_, fun hnarrow env v henv hv => ?_⟩
    · rw [type_guardCall]
      exact h.type.toNullable
    · obtain ⟨he, -, hnullable⟩ := isNarrow_guardCall hnarrow
      rw [type_guardCall, HostType.nonNullable_toNullable] at hkind
      rw [type_guardCall, ← hnullable (by simp) hkind]
      exact h.wide he hkind
    · obtain ⟨he, hnarrow, -⟩ := isNarrow_guardCall hnarrow
      rw [eval_guardCall] at hv
      obtain ⟨b, hb, hv⟩ := Outcome.bind_eq_ok.mp hv
      obtain rfl : b = false := someNull_eq_false hargs hnarrow henv hb
      rw [if_neg Bool.false_ne_true] at hv
      unfold Expr.convertTo at hv
      split_ifs at hv
      · exact h.eval he henv hv
      · obtain ⟨w, hw, hv⟩ := Outcome.bind_eq_ok.mp hv
        obtain ⟨hw, hsettled⟩ := h.eval he henv hw
        rw [hsettled.convert_self (by rw [HostType.nonNullable_toNullable, h.type.nonNullable])] at hv
        cases hv
        exact ⟨hw, hsettled⟩

theorem guardIfNeeded {s₁ s₂ : Expr} (ctx : Context) (hs : Mirrors s V s₁ s₂) (h : Mirrors s V e₁ e₂) :
    Mirrors s V (ctx.guardIfNeeded s₁ e₁) e₂ := by
  rw [Context.guardIfNeeded_eq]
  refine guardCall (fun a ha => ⟨s₂, ?_⟩) h
  rw [List.mem_singleton.mp (List.mem_filter.mp ha).1]
  exact hs

/-! ### Members -/

theorem member {s₁ s₂ : Expr} {typeName name : String} {m : Member} (h : Mirrors s V s₁ s₂)
    (ht : s₂.type = .record typeName) (hm : s.member? typeName name = some m) :
    Mirrors s V (.member s₁ m) (.member s₂ m) where
  type := .refl _
  left := rfl
  right := rfl
  wide _ _ := rfl
  eval hnarrow env w henv hw := by
    obtain ⟨v, hv, hw⟩ := Outcome.bind_eq_ok.mp hw
    obtain ⟨hv, hsettled⟩ := h.eval hnarrow henv hv
    rw [Expr.eval, hv]
    rw [ht] at hsettled
    exact ⟨hw, hsettled.member hm hw⟩

theorem widenPrimitive (h : Mirrors s V x₁ x₂) : Mirrors s V x₁.widenPrimitive x₂.widenPrimitive := by
  unfold Expr.widenPrimitive
  rw [h.type.nonNullable]
  split
  next t ht =>
    refine h.convert (h.type.nullableLike t) fun v w hv hw => hv.convert hw (.inr ?_)
    rw [HostType.nonNullable_nullableLike]
    unfold HostType.widened? at ht
    split at ht <;> cases ht <;> rfl
  next => exact h

end Mirrors

/-- An expression mirrors another, and is a literal if that is the literal of the same value. -/
structure Echoes [External] (s : Schema) (V : Env → Prop) (e₁ e₂ : Expr) :
    Prop extends Mirrors s V e₁ e₂ where
  constValue : e₁.constValue? = e₂.constValue?

end Expr

/-! ## Properties -/

namespace Context

/-- The context without null propagation. -/
def unguarded (ctx : Context) : Context :=
  { ctx with settings := { ctx.settings with nullPropagation := false } }

theorem needsGuard_unguarded (ctx : Context) (e : Expr) : ctx.unguarded.needsGuard e = false := rfl

theorem guardIfNeeded_unguarded (ctx : Context) (source result : Expr) :
    ctx.unguarded.guardIfNeeded source result = result := rfl

theorem constValue?_guardIfNeeded (ctx : Context) (source : Expr) {result : Expr}
    (h : result.constValue? = none) : (ctx.guardIfNeeded source result).constValue? = none := by
  unfold guardIfNeeded
  split_ifs
  · rfl
  · exact h

/-- A declared member. -/
theorem memberAccess_mirrors [External] {ctx : Context} {V : Env → Prop} {s₁ s₂ e₁ : Expr} {name : String}
    (hs : Expr.Mirrors ctx.schema V s₁ s₂) (he : ctx.memberAccess s₁ name = .ok e₁) :
    ∃ e₂, ctx.unguarded.memberAccess s₂ name = .ok e₂ ∧ Expr.Echoes ctx.schema V e₁ e₂ := by
  unfold memberAccess at he
  split at he
  next m hm =>
    cases he
    obtain ⟨typeName, hname, hm⟩ := Option.bind_eq_some_iff.mp hm
    have htype : s₁.type = .record typeName := by
      revert hname
      cases s₁.type <;> intro hname <;> cases hname
      rfl
    have htype := (hs.type.eq_iff rfl rfl).mp htype
    refine ⟨Expr.widenPrimitive (.member s₂ m), ?_, hs.guardIfNeeded ctx (hs.member htype hm).widenPrimitive, ?_⟩
    · have hm : ctx.unguarded.schema.member? typeName name = some m := hm
      unfold memberAccess
      rw [htype, HostType.recordName?, Option.bind_some, hm]
      rfl
    · have hplain (source : Expr) : (Expr.widenPrimitive (.member source m)).constValue? = none := by
        unfold Expr.widenPrimitive
        split <;> rfl
      rw [constValue?_guardIfNeeded ctx s₁ (hplain s₁), hplain s₂]
  next => cases he

end Context

end TypedQuery
