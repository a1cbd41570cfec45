import TypedQuery.Proofs.Comparisons
import TypedQuery.Proofs.UnguardedOperators

/-!
# Operands with null and without

A guarded property has its type with null, and a property that needs no guard has it without. Where two such
operands have the same values, what binding makes of them before it compares them has the same values too. There
are two exceptions. The literal null next to a type that is widened is converted on one side only, and is no
literal any more there; and integers of 64 bits without sign are made floats on one side only.

* `Outcome.Alike`: two outcomes that are related results or both failures.
* `Value.Suits`: what the values of an expression have of its type.
* `Expr.Coincides`: two expressions that have the same values, the first with null added to its type or not.
* `Bind.comparedAs?`, `Bind.Even`: the types in which operands are compared, without the exceptions.
* **`Bind.unify_pairs`**: enumerations and the literal null.
* `Bind.Pairs.promoted_of_types`, `Bind.Pairs.isNullConst_right`: operands that are brought to one type.
-/

namespace TypedQuery

/-! ## Outcomes -/

namespace Outcome

variable {α β γ δ : Type} {R : α → β → Prop} {S : γ → δ → Prop}

/-- The outcomes are related results, or both are failures. -/
def Alike (R : α → β → Prop) : Outcome α → Outcome β → Prop
  | .ok a, .ok b => R a b
  | .error _, .error _ => True
  | _, _ => False

namespace Alike

variable {o₁ : Outcome α} {o₂ : Outcome β} {a : α} {b : β}

theorem exists_right (h : Alike R o₁ o₂) (ha : o₁ = .ok a) : ∃ b, o₂ = .ok b ∧ R a b := by
  subst ha
  cases o₂ with
  | ok b => exact ⟨b, rfl, h⟩
  | error e => exact h.elim

theorem exists_left (h : Alike R o₁ o₂) (hb : o₂ = .ok b) : ∃ a, o₁ = .ok a ∧ R a b := by
  subst hb
  cases o₁ with
  | ok a => exact ⟨a, rfl, h⟩
  | error e => exact h.elim

theorem of_exists (hright : ∀ a, o₁ = .ok a → ∃ b, o₂ = .ok b ∧ R a b)
    (hleft : ∀ b, o₂ = .ok b → ∃ a, o₁ = .ok a) : Alike R o₁ o₂ := by
  cases o₁ with
  | ok a =>
    obtain ⟨b, rfl, hab⟩ := hright a rfl
    exact hab
  | error e =>
    cases o₂ with
    | ok b =>
      obtain ⟨a, ha⟩ := hleft b rfl
      cases ha
    | error e' => trivial

theorem mono {R' : α → β → Prop} (h : Alike R o₁ o₂) (hR : ∀ a b, R a b → R' a b) : Alike R' o₁ o₂ := by
  cases o₁ <;> cases o₂ <;> first | exact hR _ _ h | exact h

theorem bind {f : α → Outcome γ} {g : β → Outcome δ} (h : Alike R o₁ o₂)
    (hf : ∀ a b, R a b → Alike S (f a) (g b)) : Alike S (o₁ >>= f) (o₂ >>= g) := by
  cases o₁ <;> cases o₂ <;> first | exact hf _ _ h | exact h.elim | trivial

theorem self {R : α → α → Prop} {o : Outcome α} (h : ∀ a, o = .ok a → R a a) : Alike R o o := by
  cases o with
  | ok a => exact h a rfl
  | error e => trivial

theorem traced (h : Alike R o₁ o₂) : Alike (fun a b => R a b ∧ o₁ = .ok a) o₁ o₂ := by
  cases o₁ <;> cases o₂ <;> first | exact ⟨h, rfl⟩ | exact h

theorem isOk_iff (h : Alike R o₁ o₂) : (∃ a, o₁ = .ok a) ↔ ∃ b, o₂ = .ok b :=
  ⟨fun ⟨_, ha⟩ => (h.exists_right ha).imp fun _ => And.left, fun ⟨_, hb⟩ => (h.exists_left hb).imp fun _ => And.left⟩

end Alike

end Outcome

/-! ## Values of a type -/

/-- The value is null only if the type has null, and of the type otherwise, as far as the value itself shows. -/
structure Value.Suits (v : Value) (t : HostType) : Prop where
  null : v.isNull = true → t.isNullable = true
  typed : v.isNull = false → v.isInstanceOf t.nonNullable = true

namespace Value

variable {v w : Value} {t u t₁ t₂ : HostType} {s : Schema}

namespace Suits

theorem of_null (ht : t.isNullable = true) : Value.null.Suits t := ⟨fun _ => ht, fun h => by cases h⟩

theorem of_admits (h : s.admits t v = true) : v.Suits t :=
  ⟨fun hnull => Schema.isNullable_of_admits h hnull,
    fun hnull => isInstanceOf_nonNullable (Schema.isInstanceOf_of_admits h hnull)⟩

theorem of_isInstanceOf (h : v.isInstanceOf t.nonNullable = true) : v.Suits t where
  null hnull := by
    obtain rfl := eq_null hnull
    cases h
  typed _ := h

theorem settles (h : v.Suits t) (hv : v.isNull = false) (ht : t.nonNullable.isValueType = true) :
    s.Settles t v := by
  have htyped := h.typed hv
  have hkind := HostType.nonNullable_of_isValueType ht
  exact .of_isAtom (isAtom_of_isInstanceOf htyped (.inl (hkind.symm ▸ ht))) htyped

theorem admits (h : v.Suits t) (ht : t.nonNullable.isValueType = true) : s.admits t v = true := by
  cases hv : v.isNull with
  | true =>
    obtain rfl := eq_null hv
    exact h.null rfl
  | false =>
    refine (h.settles hv ht).admits ?_
    cases hkind : t.nonNullable <;> first | rfl | (rw [hkind] at ht; cases ht)

theorem lift (h : v.Suits u) (ht : t.Lifts u) : v.Suits t where
  null hnull := by
    rw [ht.eq_of_isNullable (h.null hnull)]
    exact h.null hnull
  typed hnull := by
    rw [ht.nonNullable]
    exact h.typed hnull

/-- A boolean or null. -/
theorem exists_truth (h : v.Suits t) (ht : t.isBool = true) : ∃ τ : Truth, v = τ.toValue :=
  Schema.exists_truth_of_admits (s := .empty) (h.admits (by
    rw [show t.nonNullable = .bool from of_decide_eq_true ht]
    rfl)) ht

theorem exists_bool (h : v.Suits .bool) : ∃ b, v = .bool b :=
  Schema.exists_bool_of_admits (s := .empty) (h.admits rfl) rfl (Bool.eq_false_iff.mpr fun hv => nomatch h.null hv)

/-- A conversion gives a value that suits the target. -/
theorem of_convert (h : v.convert t = .ok w) : w.Suits t := by
  cases hv : v.isNull with
  | true =>
    obtain rfl := eq_null hv
    unfold convert at h
    split_ifs at h with ht <;> cases h
    exact .of_null ht
  | false =>
    have hnull := isNull_convert hv h
    refine ⟨fun hw => absurd hw (by simp [hnull]), fun _ => ?_⟩
    by_cases hitems : ∃ items, v = .collection items
    · obtain ⟨items, rfl⟩ := hitems
      unfold convert at h
      split at h
      next element ht =>
        rw [ht]
        cases hitems : convertItems items element <;> rw [hitems] at h <;> cases h
        rfl
      next =>
        split_ifs at h with hinstance <;> cases h
        exact hinstance
    · rw [convert_of_not_collection hv fun items hv => hitems ⟨items, hv⟩] at h
      split_ifs at h with hinstance
      · cases h
        exact hinstance
      · exact convertScalar_isInstanceOf h

/-- A conversion that changes nullability only. -/
theorem convert_self (h : v.Suits t) (hkind : t.nonNullable.isValueType = true)
    (ht : t.nonNullable = u.nonNullable) (hnull : t.isNullable = true → u.isNullable = true) :
    v.convert u = .ok v :=
  (Schema.convert_of_admits (s := .empty) (h.admits hkind) ht fun hv => hnull (h.null hv)).1

end Suits

/-- A conversion to a type, with null and without. -/
theorem convert_alike (ht : t₁.Lifts t₂) (hnull : v.isNull = true → t₁ = t₂ ∨ t₂.isNullable = true) :
    (v.convert t₁).Alike (fun a b => a = b ∧ b.Suits t₂) (v.convert t₂) := by
  have same (h : t₁ = t₂) : (v.convert t₁).Alike (fun a b => a = b ∧ b.Suits t₂) (v.convert t₂) := by
    rw [h]
    exact .self fun a ha => ⟨rfl, .of_convert ha⟩
  cases hv : v.isNull with
  | true => exact (hnull hv).elim same fun h => same (ht.eq_of_isNullable h)
  | false =>
    refine .of_exists (fun a ha => ?_) fun b hb => ⟨b, convert_congr hv ht.nonNullable.symm hb⟩
    have hb := convert_congr hv ht.nonNullable ha
    exact ⟨a, hb, rfl, .of_convert hb⟩

end Value

/-! ## Comparisons of values -/

theorem Value.SameOrder.compareValues_alike {v w v' w' : Value} (h : v.SameOrder w v' w') {op : BinaryOp}
    (hop : op.isComparison = true) (lifted lifted' : Bool) :
    (op.compareValues v w lifted).Alike Eq (op.compareValues v' w' lifted') := by
  unfold BinaryOp.compareValues
  rw [h.left.1, h.left.2, h.right.1, h.right.2, Bool.or_self, if_neg Bool.false_ne_true,
    if_neg Bool.false_ne_true, h.compare, h.equals]
  cases op <;> first | (cases hop; done) | exact rfl | skip
  all_goals
    cases v'.compare? w' <;> first | exact rfl | trivial

/-- A comparison is null only if it is lifted. -/
theorem BinaryOp.compareValues_suits {op : BinaryOp} (hop : op.isComparison = true) {a b u : Value} {lifted : Bool}
    (h : op.compareValues a b lifted = .ok u) :
    u.Suits (if lifted then HostType.bool.toNullable else .bool) := by
  have bool (x : Bool) : (Value.bool x).Suits (if lifted then HostType.bool.toNullable else .bool) :=
    .of_isInstanceOf (by cases lifted <;> rfl)
  unfold compareValues at h
  split_ifs at h
  · cases h
    unfold compareNulls
    split_ifs with hlifted
    · exact .of_null rfl
    · rw [if_neg hlifted] at bool
      split <;> exact bool _
  · cases op <;> first | (cases hop; done) | (cases h; exact bool _) | skip
    all_goals
      cases hcompare : a.compare? b <;> simp only [hcompare] at h <;> cases h
      exact bool _

/-! ## Expressions -/

/-- The second expression has the type of the first, or that without null; in the environments with a property
it has the same values. -/
structure Expr.Coincides [External] (W : Env → Prop) (e₁ e₂ : Expr) : Prop where
  type : e₁.type.Lifts e₂.type
  isNullConst : e₁.isNullConst = e₂.isNullConst
  nullable : e₂.isNullConst = true → e₂.type.isNullable = true
  eval : ∀ env, W env → (e₁.eval env).Alike (fun v w => v = w ∧ w.Suits e₂.type) (e₂.eval env)

namespace Expr

variable [External] {W : Env → Prop} {e₁ e₂ x₁ x₂ : Expr} {t t₁ t₂ : HostType} {env : Env} {v : Value}

/-- What has a value of its type is converted to a type by a conversion of the value. -/
theorem eval_convertTo_of_suits (hv : x₁.eval env = .ok v) (hsuits : v.Suits x₁.type)
    (hkind : x₁.type.nonNullable.isValueType = true) : (x₁.convertTo t).eval env = v.convert t := by
  refine eval_convertTo_of_eval hv fun ht => ?_
  exact hsuits.convert_self hkind (by rw [ht]) (by rw [ht]; exact id)

namespace Coincides

/-- The null of a type. -/
theorem mkNull (ht : t₁.Lifts t₂) : Coincides W (mkNull t₁) (mkNull t₂) := by
  have htype : t₁.toNullable = t₂.toNullable := by
    rcases ht with rfl | rfl
    · rfl
    · exact t₂.toNullable_toNullable
  refine ⟨.inl htype, rfl, fun _ => t₂.isNullable_toNullable, fun env _ => ⟨rfl, ?_⟩⟩
  exact .of_null t₂.isNullable_toNullable

/-- An expression without null of a value type, for example a literal. -/
theorem refl (hnull : e₁.isNullConst = true → e₁.type.isNullable = true)
    (h : ∀ env v, W env → e₁.eval env = .ok v → v.Suits e₁.type) : Coincides W e₁ e₁ :=
  ⟨.refl _, rfl, hnull, fun env henv => .self fun v hv => ⟨rfl, h env v henv hv⟩⟩

theorem isNull_of_type_ne (h : Coincides W e₁ e₂) (ht : e₁.type ≠ e₂.type) :
    e₂.type.isValueType = true ∧ e₁.type = .nullable e₂.type := by
  have htype := h.type.resolve_left ht
  unfold HostType.toNullable at htype
  split_ifs at htype with hvalue
  · exact ⟨hvalue, htype⟩
  · exact absurd htype ht

theorem convert (h : Coincides W x₁ x₂) (ht : t₁.Lifts t₂)
    (hnull : t₁ = t₂ ∨ (x₂.type.isNullable = true → t₂.isNullable = true)) :
    Coincides W (.convert x₁ t₁) (.convert x₂ t₂) where
  type := ht
  isNullConst := rfl
  nullable h := by cases h
  eval env henv := by
    refine (h.eval env henv).bind fun v w hvw => ?_
    obtain ⟨rfl, hsuits⟩ := hvw
    exact Value.convert_alike ht fun hv => hnull.imp id fun hnull => hnull (hsuits.null hv)

/-- Operands that are brought to one type: on one side the type may be that of the operand already. -/
theorem convertTo (h : Coincides W x₁ x₂) (ht : t₁.Lifts t₂)
    (hkind : (x₁.type = x₂.type ∧ t₁ = t₂) ∨ (x₂.type.nonNullable.isValueType = true ∧ x₂.isNullConst = false ∧
      (x₂.type.isNullable = true → t₂.isNullable = true))) :
    Coincides W (x₁.convertTo t₁) (x₂.convertTo t₂) := by
  rcases hkind with ⟨hx, rfl⟩ | ⟨hkind, hconst, hnull⟩
  · unfold Expr.convertTo
    rw [hx]
    split_ifs with htype
    · exact h
    · exact h.convert (.refl _) (.inl rfl)
  · refine ⟨?_, ?_, fun hc => ?_, fun env henv => ?_⟩
    · rwa [type_convertTo, type_convertTo]
    · rw [isNullConst_convertTo, isNullConst_convertTo, h.isNullConst, hconst, Bool.and_false, Bool.and_false]
    · rw [isNullConst_convertTo, hconst, Bool.and_false] at hc
      cases hc
    · rw [type_convertTo]
      have hconverted : ((Expr.convert x₁ t₁).eval env).Alike (fun v w => v = w ∧ w.Suits t₂)
          ((Expr.convert x₂ t₂).eval env) := (h.convert ht (.inr hnull)).eval env henv
      have hvalues := h.eval env henv
      cases hv : x₂.eval env with
      | error err =>
        have hleft : ∃ err, x₁.eval env = .error err := by
          cases hx : x₁.eval env with
          | error err => exact ⟨err, rfl⟩
          | ok v =>
            rw [hv, hx] at hvalues
            exact hvalues.elim
        obtain ⟨err', hx⟩ := hleft
        rw [eval_convertTo_of_error hx, eval_convertTo_of_error hv]
        trivial
      | ok v =>
        obtain ⟨v', hx, rfl, hsuits⟩ := hvalues.exists_left hv
        rw [eval_convertTo_of_suits hv hsuits hkind,
          eval_convertTo_of_suits hx (hsuits.lift h.type) (h.type.nonNullable ▸ hkind)]
        simp only [Expr.eval, hx, hv] at hconverted
        exact hconverted

theorem convertTo_of_type_eq (h : Coincides W x₁ x₂) (hx : x₁.type = x₂.type) (t : HostType) :
    Coincides W (x₁.convertTo t) (x₂.convertTo t) ∧ (x₁.convertTo t).type = (x₂.convertTo t).type :=
  ⟨h.convertTo (.refl t) (.inl ⟨hx, rfl⟩), by rw [type_convertTo, type_convertTo]⟩

theorem convertTo_object (h : Coincides W x₁ x₂) :
    Coincides W (x₁.convertTo .object) (x₂.convertTo .object) ∧
      (x₁.convertTo .object).type = (x₂.convertTo .object).type := by
  by_cases hx : x₁.type = x₂.type
  · exact h.convertTo_of_type_eq hx _
  · obtain ⟨hvalue, -⟩ := h.isNull_of_type_ne hx
    refine ⟨h.convertTo (.refl _) (.inr ⟨?_, ?_, fun _ => rfl⟩), ?_⟩
    · rwa [HostType.nonNullable_of_isValueType hvalue]
    · rw [Bool.eq_false_iff]
      exact fun hc => hx (h.type.eq_of_isNullable (h.nullable hc))
    · rw [type_convertTo, type_convertTo]

/-- A type that has any value is on both sides. -/
theorem type_eq_of_isObject (h : Coincides W x₁ x₂) (hx : x₂.type.isObject = true) : x₁.type = x₂.type := by
  have ht : x₂.type = .object := of_decide_eq_true hx
  exact h.type.eq_of_isNullable (by rw [ht]; rfl)

end Coincides

end Expr

/-! ## Enumerations and the literal null -/

/-- Whether two numbers of the type are brought to the type itself. -/
def HostType.isSteady (t : HostType) : Bool :=
  !t.isNumeric || Bind.wider t.nonNullable t.nonNullable = t.nonNullable

namespace Bind

variable {W : Env → Prop} {l₁ l₂ r₁ r₂ : Expr}

/-- The type in which an operand of a type is compared, next to a value of an enumeration or of one itself;
none for what is no number. -/
def comparedAs? (enum? : Option EnumType) (t : HostType) : Option HostType :=
  match enum? with
  | none => some t
  | some enum => if t.asEnum?.isSome || t.isIntegral then some enum.underlying else none

/-- An operand that has null added to its type on one side is no wide integer, and next to the literal null it
is of a type that is not widened. -/
def Even (enum? : Option EnumType) (l₁ l₂ r₂ : Expr) : Prop :=
  l₁.type ≠ l₂.type → ∀ t, comparedAs? enum? l₂.type = some t →
    t.nonNullable ≠ .int .uint64 ∧ (r₂.isNullConst = true → t.isSteady = true)

theorem enumLiteral_alike (h : l₁.constValue? = l₂.constValue?) (enum : EnumType) :
    (enumLiteral l₁ enum).Alike Eq (enumLiteral l₂ enum) := by
  unfold enumLiteral
  rw [h]
  split
  · split <;> first | rfl | trivial
  · trivial

/-- An operand next to a value of an enumeration. -/
theorem toUnderlying_coincides [External] (h : Expr.Coincides W l₁ l₂)
    (hconst : l₁.constValue? = l₂.constValue?) (enum : EnumType) :
    (toUnderlying l₁ enum).Alike (fun a b => Expr.Coincides W a b ∧
      (a.type ≠ b.type → l₁.type ≠ l₂.type ∧ comparedAs? (some enum) l₂.type = some b.type) ∧
      (b.isNullConst = true → l₂.isNullConst = true)) (toUnderlying l₂ enum) := by
  have htarget := h.type.nullableLike enum.underlying
  have hplain (hkind : l₂.type.asEnum?.isSome = true ∨ l₂.type.isIntegral = true)
      (hne : enum.underlying.nullableLike l₁.type ≠ enum.underlying.nullableLike l₂.type) :
      l₁.type ≠ l₂.type ∧
        comparedAs? (some enum) l₂.type = some (enum.underlying.nullableLike l₂.type) := by
    have htype : l₁.type ≠ l₂.type := fun heq => hne (by rw [heq])
    refine ⟨htype, ?_⟩
    have hvalue : l₂.type.isNullableValueType = false := by
      have hvalue := (h.isNull_of_type_ne htype).1
      cases ht : l₂.type <;> first | rfl | (rw [ht] at hvalue; cases hvalue)
    simp only [comparedAs?, HostType.nullableLike, hvalue, Bool.or_eq_true, if_pos hkind, Bool.false_eq_true,
      if_false]
  unfold toUnderlying
  dsimp only
  rw [h.isNullConst, h.type.asEnum?, h.type.isIntegral]
  split_ifs with hnull henum hint
  · exact ⟨.mkNull (.refl _), fun hne => absurd rfl hne, fun _ => hnull⟩
  · have hkind := HostType.isValueType_of_asEnum? henum
    refine ⟨h.convert htarget (.inr (HostType.isNullable_nullableLike _ hkind)), hplain (.inl henum), ?_⟩
    exact fun hc => by cases hc
  · have hkind := HostType.isValueType_of_isIntegral hint
    have hconst : l₂.isNullConst = false := by simpa using hnull
    refine ⟨h.convertTo htarget (.inr ⟨hkind, hconst, HostType.isNullable_nullableLike _ hkind⟩), ?_, ?_⟩
    · rw [Expr.type_convertTo, Expr.type_convertTo]
      exact hplain (.inr hint)
    · rw [Expr.isNullConst_convertTo, hconst, Bool.and_false]
      exact fun hc => by cases hc
  · refine (enumLiteral_alike hconst enum).bind fun n m hn => ?_
    subst hn
    refine Outcome.Alike.bind (R := fun v w => v = w ∧ v.isInstanceOf enum.underlying = true)
      (.self fun v hv => ⟨rfl, Value.ofInt_isInstanceOf hv⟩) fun v w hv => ?_
    obtain ⟨rfl, hv⟩ := hv
    have hplain : (Expr.const v enum.underlying).isNullConst = false := by
      cases v <;> first | rfl | cases hv
    refine ⟨.refl ?_ fun env u _ hu => ?_, fun hne => absurd rfl hne, ?_⟩
    · exact fun hc => absurd hc (by simp [hplain])
    · cases hu
      exact .of_isInstanceOf (Value.isInstanceOf_nonNullable hv)
    · exact fun hc => absurd hc (by simp [hplain])

/-- The literal null is null. -/
theorem eval_of_isNullConst [External] {e : Expr} (h : e.isNullConst = true) (env : Env) :
    e.eval env = .ok .null := by
  unfold Expr.isNullConst at h
  split at h
  · rfl
  · cases h

/-- What stands for an operand next to a value of an enumeration has a value only where the operand has. -/
theorem exists_eval_of_toUnderlying [External] {e a : Expr} {enum : EnumType}
    (ha : toUnderlying e enum = .ok a) {env : Env}
    {v : Value} (hv : a.eval env = .ok v) : ∃ u, e.eval env = .ok u := by
  unfold toUnderlying at ha
  dsimp only at ha
  split_ifs at ha with hnull
  · exact ⟨_, eval_of_isNullConst hnull env⟩
  · cases ha
    obtain ⟨u, hu, -⟩ := Outcome.bind_eq_ok.mp hv
    exact ⟨u, hu⟩
  · cases ha
    exact Expr.exists_eval_of_convertTo hv
  · obtain ⟨n, hn, -⟩ := Outcome.bind_eq_ok.mp ha
    unfold enumLiteral at hn
    cases e <;> first | exact ⟨_, rfl⟩ | cases hn

/-- Operands for which promotion on the two sides makes no difference: next to the literal null, which has the
type of the operand, the operand is not widened. -/
def Balanced (l₁ l₂ r₂ : Expr) : Prop :=
  l₁.type ≠ l₂.type → l₂.type.nonNullable ≠ .int .uint64 ∧
    (r₂.isNullConst = true → r₂.type = l₂.type.toNullable ∧ l₂.type.isSteady = true)

/-- Two pairs of operands that match and are balanced. -/
structure Pairs [External] (W : Env → Prop) (p q : Expr × Expr) : Prop where
  left : Expr.Coincides W p.1 q.1
  right : Expr.Coincides W p.2 q.2
  balancedLeft : Balanced p.1 q.1 q.2
  balancedRight : Balanced p.2 q.2 q.1

theorem unifyNulls_pairs [External] (hl : Expr.Coincides W l₁ l₂) (hr : Expr.Coincides W r₁ r₂)
    (hel : Even none l₁ l₂ r₂) (her : Even none r₁ r₂ l₂) :
    Pairs W (unifyNulls l₁ r₁) (unifyNulls l₂ r₂) := by
  have steady {x₁ x₂ y₂ : Expr} (h : Even none x₁ x₂ y₂) (hy : y₂.isNullConst = false ∨ x₁.type = x₂.type) :
      Balanced x₁ x₂ y₂ := by
    intro hne
    refine ⟨(h hne _ rfl).1, fun hc => ?_⟩
    rcases hy with hy | hy
    · rw [hy] at hc
      cases hc
    · exact absurd hy hne
  have null {x₁ x₂ y₂ : Expr} (h : Even none x₁ x₂ y₂) (hy : y₂.isNullConst = true) :
      Balanced x₁ x₂ (.mkNull x₂.type) := fun hne =>
    ⟨(h hne _ rfl).1, fun _ => ⟨rfl, (h hne _ rfl).2 hy⟩⟩
  have constant {x₁ x₂ y₂ : Expr} (h : Expr.Coincides W x₁ x₂) (hx : x₂.isNullConst = true) :
      Balanced x₁ x₂ y₂ := fun hne => absurd (h.type.eq_of_isNullable (h.nullable hx)) hne
  have made {x₁ x₂ y₂ : Expr} (h : Expr.Coincides W x₁ x₂) : Balanced (.mkNull x₁.type) (.mkNull x₂.type) y₂ :=
    constant (.mkNull h.type) rfl
  unfold unifyNulls
  rw [hl.isNullConst, hr.isNullConst]
  cases hlc : l₂.isNullConst <;> cases hrc : r₂.isNullConst
  · exact ⟨hl, hr, steady hel (.inl hrc), steady her (.inl hlc)⟩
  · exact ⟨hl, .mkNull hl.type, null hel hrc, made hl⟩
  · exact ⟨.mkNull hr.type, hr, made hr, null her hlc⟩
  · exact ⟨hl, hr, constant hl hlc, constant hr hrc⟩

/-- **Operands brought together**: enumerations become numbers, and the literal null takes the type of the other
side. -/
theorem unify_pairs [External] (hl : Expr.Coincides W l₁ l₂) (hr : Expr.Coincides W r₁ r₂)
    (hlc : l₁.constValue? = l₂.constValue?) (hrc : r₁.constValue? = r₂.constValue?)
    (hel : Even (unifiedBy? l₂.type r₂.type) l₁ l₂ r₂) (her : Even (unifiedBy? l₂.type r₂.type) r₁ r₂ l₂) :
    (unifyEnums l₁ r₁).Alike (fun p q => Pairs W (unifyNulls p.1 p.2) (unifyNulls q.1 q.2)) (unifyEnums l₂ r₂) := by
  unfold unifyEnums
  change Outcome.Alike _ (match unifiedBy? l₁.type r₁.type with | none => _ | some enum => _)
    (match unifiedBy? l₂.type r₂.type with | none => _ | some enum => _)
  have hunified : unifiedBy? l₁.type r₁.type = unifiedBy? l₂.type r₂.type := by
    rw [unifiedBy?, unifiedBy?, hl.type.asEnum?, hr.type.asEnum?]
  rw [hunified]
  cases henum : unifiedBy? l₂.type r₂.type with
  | none =>
    rw [henum] at hel her
    exact unifyNulls_pairs hl hr hel her
  | some enum =>
    rw [henum] at hel her
    refine (toUnderlying_coincides hl hlc enum).bind fun a₁ a₂ ha => ?_
    refine (toUnderlying_coincides hr hrc enum).bind fun b₁ b₂ hb => ?_
    obtain ⟨ha, hatype, haconst⟩ := ha
    obtain ⟨hb, hbtype, hbconst⟩ := hb
    have even {x₁ x₂ a₁ a₂ y₂ b₂ : Expr} (h : Even (some enum) x₁ x₂ y₂)
        (htype : a₁.type ≠ a₂.type → x₁.type ≠ x₂.type ∧ comparedAs? (some enum) x₂.type = some a₂.type)
        (hconst : b₂.isNullConst = true → y₂.isNullConst = true) : Even none a₁ a₂ b₂ := by
      intro hne t ht
      cases ht
      obtain ⟨hx, hcompared⟩ := htype hne
      obtain ⟨hwide, hsteady⟩ := h hx _ hcompared
      exact ⟨hwide, fun hb => hsteady (hconst hb)⟩
    exact unifyNulls_pairs ha hb (even hel hatype hbconst) (even her hbtype haconst)

/-! ## Promotion -/

/-- Operands of different types, neither of which may have any value, are brought to the type in which theirs
meet. -/
theorem exists_of_promote {l r : Expr} {p : Expr × Expr} (hp : promote l r = .ok p) (htype : l.type ≠ r.type)
    (hobject : (l.type.isObject || r.type.isObject) = false) :
    ∃ t target, meet? l.type r.type = some t ∧
      target = (if l.type.isNullableValueType || r.type.isNullableValueType then t.toNullable else t) ∧
      p = (l.convertTo target, r.convertTo target) := by
  unfold promote at hp
  rw [if_neg htype, hobject, if_neg Bool.false_ne_true] at hp
  cases hmeet : meet? l.type r.type with
  | none =>
    rw [hmeet] at hp
    cases hp
  | some t =>
    rw [hmeet] at hp
    cases hp
    exact ⟨t, _, rfl, rfl, rfl⟩

/-- Promotion of two numbers, dates or other values: the type has null if that of an operand has. -/
theorem type_promoted {l r : Expr} {p : Expr × Expr} (hp : promote l r = .ok p)
    (hobject : (l.type.isObject || r.type.isObject) = false)
    (hkind : l.type.nonNullable.isValueType = true ∨ r.type.nonNullable.isValueType = true) :
    (l.type.nonNullable.isValueType = true ∧ r.type.nonNullable.isValueType = true) ∧ p.1.type = p.2.type ∧
      p.1.type.isNullableValueType = (l.type.isNullableValueType || r.type.isNullableValueType) := by
  by_cases htype : l.type = r.type
  · unfold promote at hp
    rw [if_pos htype] at hp
    cases hp
    rw [← htype, or_self] at hkind
    rw [← htype]
    exact ⟨⟨hkind, hkind⟩, rfl, (Bool.or_self _).symm⟩
  · obtain ⟨t, target, hmeet, rfl, rfl⟩ := exists_of_promote hp htype hobject
    have hvalue : (l.type.nonNullable.isValueType = true ∧ r.type.nonNullable.isValueType = true) ∧
        t.isValueType = true := by
      rcases meet?_eq_some htype hmeet with ⟨-, hl, hr⟩ | ⟨-, hl, hr, -⟩
      · refine ⟨⟨hl, hr⟩, ?_⟩
        unfold meet? at hmeet
        split_ifs at hmeet
        · cases hmeet
          unfold wider
          split <;> rfl
        · cases hmeet
          exact hl
        · split at hmeet <;> cases hmeet <;> rfl
      · rw [hl, hr, or_self] at hkind
        rw [hl, hr]
        exact ⟨⟨hkind, hkind⟩, hkind⟩
    refine ⟨hvalue.1, by rw [Expr.type_convertTo, Expr.type_convertTo], ?_⟩
    rw [Expr.type_convertTo, HostType.toNullable, if_pos hvalue.2]
    split_ifs with hnull
    · exact hnull.symm
    · rw [Bool.not_eq_true] at hnull
      rw [hnull]
      cases t <;> first | rfl | cases hvalue.2

namespace Pairs

variable [External] {p q : Expr × Expr}

theorem swap (h : Pairs W p q) : Pairs W p.swap q.swap := ⟨h.right, h.left, h.balancedRight, h.balancedLeft⟩

section Promoted

variable (h : Pairs W (l₁, r₁) (l₂, r₂)) (hp : promote l₁ r₁ = .ok p) (hq : promote l₂ r₂ = .ok q)
include h hp hq

/-- Operands of the same types on both sides. -/
theorem promoted_of_type_eq (hl : l₁.type = l₂.type) (hr : r₁.type = r₂.type) :
    (Expr.Coincides W p.1 q.1 ∧ p.1.type = q.1.type) ∧ Expr.Coincides W p.2 q.2 ∧ p.2.type = q.2.type := by
  unfold promote at hp hq
  rw [hl, hr] at hp
  split_ifs at hp hq
  · cases hp
    cases hq
    exact ⟨⟨h.left, hl⟩, h.right, hr⟩
  · cases hp
    cases hq
    exact ⟨h.left.convertTo_of_type_eq hl _, h.right.convertTo_of_type_eq hr _⟩
  · cases hmeet : meet? l₂.type r₂.type <;> rw [hmeet] at hp hq <;> cases hp
    cases hq
    exact ⟨h.left.convertTo_of_type_eq hl _, h.right.convertTo_of_type_eq hr _⟩

/-- An operand next to one that may have any value. -/
theorem promoted_of_isObject (hne : ¬(l₁.type = l₂.type ∧ r₁.type = r₂.type))
    (hobject : (l₂.type.isObject || r₂.type.isObject) = true) :
    (Expr.Coincides W p.1 q.1 ∧ p.1.type = q.1.type) ∧ Expr.Coincides W p.2 q.2 ∧ p.2.type = q.2.type := by
  have hl := h.left
  have hr := h.right
  dsimp only at hl hr
  have hobject₁ : (l₁.type.isObject || r₁.type.isObject) = true := by rw [hl.type.isObject, hr.type.isObject, hobject]
  -- both types are equal only if they are on both sides
  have both {x y : HostType} (hxy : (x.isObject || y.isObject) = true) (heq : x = y) :
      x.isObject = true ∧ y.isObject = true := by
    rw [← heq, Bool.or_self] at hxy
    exact ⟨hxy, heq ▸ hxy⟩
  have hne₁ : l₁.type ≠ r₁.type := fun heq => by
    obtain ⟨hlo, hro⟩ := both hobject₁ heq
    exact hne ⟨hl.type_eq_of_isObject (hl.type.isObject ▸ hlo), hr.type_eq_of_isObject (hr.type.isObject ▸ hro)⟩
  have hne₂ : l₂.type ≠ r₂.type := fun heq => by
    obtain ⟨hlo, hro⟩ := both hobject heq
    exact hne ⟨hl.type_eq_of_isObject hlo, hr.type_eq_of_isObject hro⟩
  unfold promote at hp hq
  rw [if_neg hne₁, if_pos hobject₁] at hp
  rw [if_neg hne₂, if_pos hobject] at hq
  cases hp
  cases hq
  exact ⟨hl.convertTo_object, hr.convertTo_object⟩

/-- Operands of the same types on both sides, or next to one that may have any value. -/
theorem promoted_of_types (hsame : (l₁.type = l₂.type ∧ r₁.type = r₂.type) ∨
      (l₂.type.isObject || r₂.type.isObject) = true) :
    (Expr.Coincides W p.1 q.1 ∧ p.1.type = q.1.type) ∧ Expr.Coincides W p.2 q.2 ∧ p.2.type = q.2.type := by
  by_cases heven : l₁.type = l₂.type ∧ r₁.type = r₂.type
  · exact h.promoted_of_type_eq hp hq heven.1 heven.2
  · exact h.promoted_of_isObject hp hq heven (hsame.resolve_left heven)

section Uneven

variable (hne : ¬(l₁.type = l₂.type ∧ r₁.type = r₂.type)) (hobject : (l₂.type.isObject || r₂.type.isObject) = false)
include hne hobject

omit hp hq hobject in
/-- One of two operands whose types differ from those on the other side is of a value type. -/
theorem isValueType_or : l₂.type.nonNullable.isValueType = true ∨ r₂.type.nonNullable.isValueType = true := by
  have value {x₁ x₂ : Expr} (hx : Expr.Coincides W x₁ x₂) (htype : x₁.type ≠ x₂.type) :
      x₂.type.nonNullable.isValueType = true := by
    obtain ⟨hvalue, -⟩ := hx.isNull_of_type_ne htype
    rwa [HostType.nonNullable_of_isValueType hvalue]
  rw [not_and_or] at hne
  exact hne.imp (value h.left) (value h.right)

omit hp in
theorem isValueType : l₂.type.nonNullable.isValueType = true ∧ r₂.type.nonNullable.isValueType = true :=
  (type_promoted hq hobject (h.isValueType_or hne)).1

/-- The right operand is the literal null after promotion on both sides, or on none. -/
theorem isNullConst_right : p.2.isNullConst = q.2.isNullConst := by
  have none {l r : Expr} {p : Expr × Expr} (hp : promote l r = .ok p) (hr : r.isNullConst = false) :
      p.2.isNullConst = false := by
    rcases (promote_cases hp).eq_or with rfl | ⟨t, rfl⟩
    · exact hr
    · rw [Expr.isNullConst_convertTo, hr, Bool.and_false]
  cases hconst : r₂.isNullConst with
  | false => rw [none hp (h.right.isNullConst.trans hconst), none hq hconst]
  | true =>
    have hr : r₁.type = r₂.type := h.right.type.eq_of_isNullable (h.right.nullable hconst)
    have hl : l₁.type ≠ l₂.type := fun hl => hne ⟨hl, hr⟩
    obtain ⟨hvalue, hnullable⟩ := h.left.isNull_of_type_ne hl
    obtain ⟨htype, hsteady⟩ := (h.balancedLeft hl).2 hconst
    dsimp only at hvalue hnullable htype hsteady
    rw [HostType.toNullable, if_pos hvalue] at htype
    -- on the left both operands have the type of the null, and on the right they are brought to it
    have hleft : p = (l₁, r₁) := by
      unfold promote at hp
      rw [if_pos (by rw [hnullable, hr, htype])] at hp
      cases hp
      rfl
    have hkind := HostType.nonNullable_of_isValueType hvalue
    have hright : q.2 = r₂ := by
      obtain ⟨t, target, hmeet, htarget, rfl⟩ := exists_of_promote hq
        (fun heq => by rw [heq, htype] at hvalue; cases hvalue) hobject
      have ht : t = l₂.type := by
        unfold meet? at hmeet
        rw [htype, show (HostType.nullable l₂.type).nonNullable = l₂.type from rfl, hkind, if_pos rfl] at hmeet
        split_ifs at hmeet with hnumeric
        · rw [Bool.and_eq_true] at hnumeric
          unfold HostType.isSteady at hsteady
          rw [hnumeric.1, hkind] at hsteady
          cases hmeet
          simpa using hsteady
        · exact (Option.some_inj.mp hmeet).symm
      rw [htype, show (HostType.nullable l₂.type).isNullableValueType = true from rfl, Bool.or_true, if_pos rfl, ht,
        HostType.toNullable, if_pos hvalue] at htarget
      rw [htarget]
      exact if_pos htype
    rw [hleft, hright, h.right.isNullConst]

theorem isNullConst_left : p.1.isNullConst = q.1.isNullConst := by
  have swapped {l r : Expr} {p : Expr × Expr} (hp : promote l r = .ok p) : promote r l = .ok p.swap := by
    have hswap := promote_swap l r
    rw [hp] at hswap
    cases h : promote r l <;> rw [h] at hswap <;> cases hswap
    rfl
  refine h.swap.isNullConst_right (p := p.swap) (q := q.swap) (swapped hp) (swapped hq) ?_ ?_
  · exact fun hsame => hne hsame.symm
  · rwa [Bool.or_comm]

end Uneven

end Promoted

end Pairs

end Bind

end TypedQuery
