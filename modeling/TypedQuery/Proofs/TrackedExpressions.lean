import TypedQuery.Proofs.LiftedComparisons

/-!
# Expressions that fail at different places

Two expressions for one thing need not fail together: behind null one gives null where the other fails, and `and`
and `or` stop at an operand that decides if no operand may be null. Where both have a value, it is the same.

* `Outcome.Tracks`: two outcomes that are equal if both are results; the second is one for sure, or whenever the
  first is.
* `Expr.Tracks`: two such expressions, the first with null added to its type or not.
* **`Context.comparison_tracks`**, **`Context.logical_tracks`**, `Bind.not_tracks`: operators.
* `Context.normalizePredicate_tracks`: predicates that are never null.
-/

namespace TypedQuery

/-! ## Outcomes -/

/-- A result of the first outcome is one of the second, if the second is a result or `surely` holds; where
`strict` holds, the first is a result if the second is. -/
structure Outcome.Tracks {α : Type} (surely strict : Prop) (P : α → Prop) (o₁ o₂ : Outcome α) : Prop where
  forward : ∀ {a}, o₁ = .ok a → (surely ∨ ∃ b, o₂ = .ok b) → o₂ = .ok a ∧ P a
  backward : strict → ∀ {b}, o₂ = .ok b → ∃ a, o₁ = .ok a

namespace Outcome.Tracks

variable {α β : Type} {surely strict : Prop} {P Q : α → Prop} {R : β → Prop} {o₁ o₂ : Outcome α} {a : α}

theorem ok (ha : P a) : Tracks surely strict P (.ok a) (.ok a) where
  forward h _ := by
    cases h
    exact ⟨rfl, ha⟩
  backward _ _ _ := ⟨a, rfl⟩

theorem of_alike (h : o₁.Alike (fun a b => a = b ∧ P b) o₂) : Tracks surely strict P o₁ o₂ where
  forward ha _ := by
    obtain ⟨b, hb, rfl, hP⟩ := h.exists_right ha
    exact ⟨hb, hP⟩
  backward _ _ hb := (h.exists_left hb).imp fun _ => And.left

theorem mono {strict' : Prop} (h : Tracks surely strict P o₁ o₂) (hstrict : strict' → strict) (hP : ∀ a, P a → Q a) :
    Tracks surely strict' Q o₁ o₂ where
  forward ha hsurely := (h.forward ha hsurely).imp id (hP _)
  backward hs := h.backward (hstrict hs)

theorem of_surely {surely' : Prop} (h : Tracks surely strict P o₁ o₂) (hsurely : surely' → surely) :
    Tracks surely' strict P o₁ o₂ where
  forward ha hs := h.forward ha (hs.imp hsurely fun hb => hb)
  backward := h.backward

theorem bind {f₁ f₂ : α → Outcome β} (h : Tracks surely strict P o₁ o₂)
    (hf : ∀ a, P a → Tracks surely strict R (f₁ a) (f₂ a)) : Tracks surely strict R (o₁ >>= f₁) (o₂ >>= f₂) where
  forward {c} hc hsurely := by
    obtain ⟨a, ha, hc⟩ := Outcome.bind_eq_ok.mp hc
    have hresult : surely ∨ ∃ d, o₂ = .ok d ∧ ∃ e, f₂ d = .ok e := hsurely.imp id fun ⟨e, he⟩ => by
      obtain ⟨d, hd, he⟩ := Outcome.bind_eq_ok.mp he
      exact ⟨d, hd, e, he⟩
    obtain ⟨ha, hP⟩ := h.forward ha (hresult.imp id fun ⟨d, hd, _⟩ => ⟨d, hd⟩)
    rw [ha]
    refine (hf a hP).forward hc (hresult.imp id ?_)
    rintro ⟨d, hd, hresult⟩
    cases ha.symm.trans hd
    exact hresult
  backward hs c hc := by
    obtain ⟨b, hb, hc⟩ := Outcome.bind_eq_ok.mp hc
    obtain ⟨a, ha⟩ := h.backward hs hb
    obtain ⟨hb', hP⟩ := h.forward ha (.inr ⟨b, hb⟩)
    cases hb.symm.trans hb'
    obtain ⟨d, hd⟩ := (hf b hP).backward hs hc
    exact ⟨d, by rw [ha, Outcome.ok_bind, hd]⟩

end Outcome.Tracks

/-! ## Expressions -/

namespace Expr

variable [External]

/-- The expressions have the same values at an environment, which suit the type of the second. -/
def AlikeAt (e₁ e₂ : Expr) (env : Env) : Prop :=
  (e₁.eval env).Alike (fun v w => v = w ∧ w.Suits e₂.type) (e₂.eval env)

/-- The second expression has the type of the first, or that without null. In the environments of `V` it has the
value of the first where both have one; it has one in those of `S`, and the first has one too where `strict`
holds. -/
structure Tracks (V S : Env → Prop) (strict : Prop) (e₁ e₂ : Expr) : Prop where
  type : e₁.type.Lifts e₂.type
  isNullConst : e₁.isNullConst = e₂.isNullConst
  nullable : e₂.isNullConst = true → e₂.type.isNullable = true
  eval : ∀ env, V env → (e₁.eval env).Tracks (S env) strict (·.Suits e₂.type) (e₂.eval env)

namespace Tracks

variable {V S : Env → Prop} {strict strict' : Prop} {e₁ e₂ l₁ l₂ r₁ r₂ a₁ a₂ : Expr} {t₁ t₂ : HostType}

theorem of_alike (h : Coincides V e₁ e₂) : Tracks V S strict e₁ e₂ :=
  ⟨h.type, h.isNullConst, h.nullable, fun env henv => .of_alike (h.eval env henv)⟩

theorem mono (h : Tracks V S strict e₁ e₂) (hstrict : strict' → strict) : Tracks V S strict' e₁ e₂ :=
  { h with eval := fun env henv => (h.eval env henv).mono hstrict fun _ => id }

theorem mkNull (ht : t₁.Lifts t₂) : Tracks V S strict (mkNull t₁) (mkNull t₂) := .of_alike (.mkNull ht)

theorem coincides_of (h : Tracks V S strict e₁ e₂) {W : Env → Prop} (hW : ∀ env, W env → e₁.AlikeAt e₂ env) :
    Coincides W e₁ e₂ := ⟨h.type, h.isNullConst, h.nullable, hW⟩

/-- What is made of two operands, if it has a value only where both have. -/
theorem of_operands (hl : Tracks V S strict l₁ l₂) (hr : Tracks V S strict r₁ r₂)
    (h : Coincides (fun env => l₁.AlikeAt l₂ env ∧ r₁.AlikeAt r₂ env) a₁ a₂)
    (hfirst : ∀ {env u}, a₁.eval env = .ok u → (∃ v, l₁.eval env = .ok v) ∧ ∃ w, r₁.eval env = .ok w)
    (hsecond : ∀ {env u}, a₂.eval env = .ok u → (∃ v, l₂.eval env = .ok v) ∧ ∃ w, r₂.eval env = .ok w) :
    Tracks V S strict a₁ a₂ := by
  refine ⟨h.type, h.isNullConst, h.nullable, fun env henv => ?_⟩
  have alike {x₁ x₂ : Expr} (hx : Tracks V S strict x₁ x₂) {v : Value} (hv : x₁.eval env = .ok v)
      (hsurely : S env ∨ ∃ w, x₂.eval env = .ok w) : x₁.AlikeAt x₂ env := by
    obtain ⟨hw, hsuits⟩ := (hx.eval env henv).forward hv hsurely
    unfold AlikeAt
    rw [hv, hw]
    exact ⟨rfl, hsuits⟩
  refine ⟨fun {u} hu hsurely => ?_, fun hs u hu => ?_⟩
  · obtain ⟨⟨_, hv⟩, _, hw⟩ := hfirst hu
    have hoperands : S env ∨ (∃ v, l₂.eval env = .ok v) ∧ ∃ w, r₂.eval env = .ok w :=
      hsurely.imp id fun ⟨_, hu⟩ => hsecond hu
    obtain ⟨_, hu', rfl, hsuits⟩ := (h.eval env
      ⟨alike hl hv (hoperands.imp id And.left), alike hr hw (hoperands.imp id And.right)⟩).exists_right hu
    exact ⟨hu', hsuits⟩
  · obtain ⟨⟨v, hv⟩, w, hw⟩ := hsecond hu
    obtain ⟨v', hv'⟩ := (hl.eval env henv).backward hs hv
    obtain ⟨w', hw'⟩ := (hr.eval env henv).backward hs hw
    exact ((h.eval env ⟨alike hl hv' (.inr ⟨v, hv⟩), alike hr hw' (.inr ⟨w, hw⟩)⟩).exists_left hu).imp fun _ => And.left

theorem convert (h : Tracks V S strict e₁ e₂) (t : HostType) : Tracks V S strict (.convert e₁ t) (.convert e₂ t) where
  type := .refl t
  isNullConst := rfl
  nullable := nofun
  eval env henv := (h.eval env henv).bind fun _ _ => .of_alike (.self fun _ hw => ⟨rfl, .of_convert hw⟩)

end Tracks

end Expr

/-! ## Comparisons -/

namespace Context

variable {V S : Env → Prop} {strict : Prop} {c₁ c₂ : Context} {l₁ l₂ r₁ r₂ : Expr}

/-- Of the context, an operator sees the settings only. -/
theorem binary_of_settings {op : QueryOp} (hop : op ≠ .has) (h : c₁.settings = c₂.settings) (l r : Expr) :
    c₁.binary op l r = c₂.binary op l r := by
  cases op <;> first | exact absurd rfl hop | simp only [binary, QueryOp.binaryOp?, comparison, operation, h]

/-- **A comparison.** -/
theorem comparison_tracks [External] {op : QueryOp} (hop : op.isComparison = true)
    (hsettings : c₁.settings = c₂.settings)
    (hl : Expr.Tracks V S strict l₁ l₂) (hr : Expr.Tracks V S strict r₁ r₂)
    (hlc : l₁.constValue? = l₂.constValue?) (hrc : r₁.constValue? = r₂.constValue?)
    (hel : Bind.Even (Bind.unifiedBy? l₂.type r₂.type) l₁ l₂ r₂)
    (her : Bind.Even (Bind.unifiedBy? l₂.type r₂.type) r₁ r₂ l₂) :
    (c₁.binary op l₁ r₁).Alike (Expr.Tracks V S strict) (c₂.binary op l₂ r₂) := by
  have hcoincide : (c₂.binary op l₁ r₁).Alike _ (c₂.binary op l₂ r₂) :=
    binary_coincides hop (hl.coincides_of fun _ => And.left) (hr.coincides_of fun _ => And.right) hlc hrc hel her
  rw [binary_of_settings (by rintro rfl; cases hop) hsettings]
  refine .of_exists (fun a₁ ha₁ => ?_) fun a₂ ha₂ => (hcoincide.exists_left ha₂).imp fun _ => And.left
  obtain ⟨a₂, ha₂, h⟩ := hcoincide.exists_right ha₁
  exact ⟨a₂, ha₂, hl.of_operands hr h (exists_eval_of_binary hop ha₁) (exists_eval_of_binary hop ha₂)⟩

end Context

/-! ## Conjunctions and disjunctions -/

/-- The value is a boolean or null. -/
def Value.IsTruth (v : Value) : Prop := ∃ τ : Truth, v = τ.toValue

/-- The value is a boolean. -/
def Value.IsBool (v : Value) : Prop := ∃ x, v = .bool x

theorem Value.IsBool.isTruth {v : Value} (h : v.IsBool) : v.IsTruth := by
  obtain ⟨x, rfl⟩ := h
  cases x with
  | false => exact ⟨.false, rfl⟩
  | true => exact ⟨.true, rfl⟩

namespace BinaryOp

variable {op : BinaryOp} (hop : op.isLogical = true) {surely strict : Prop} {o₁ o₂ p₁ p₂ : Outcome Value}
include hop

/-- Booleans that may be null, on both sides. -/
theorem combine_tracks (ho : o₁.Tracks surely strict Value.IsTruth o₂)
    (hp : p₁.Tracks surely strict Value.IsTruth p₂) (lifted : Bool) (t : HostType) :
    (o₁ >>= fun v => p₁ >>= fun w => op.apply v w lifted t).Tracks surely strict
      Value.IsTruth (o₂ >>= fun v => p₂ >>= fun w => op.apply v w lifted t) := by
  refine ho.bind fun _ hv => hp.bind fun _ hw => ?_
  obtain ⟨τ, rfl⟩ := hv
  obtain ⟨σ, rfl⟩ := hw
  rw [op.apply_toValue hop]
  exact .ok ⟨_, rfl⟩

/-- A boolean that decides is the result, whatever truth the other operand has. -/
theorem apply_of_decides {x : Bool} (hx : x = decide (op = .orElse)) {w u : Value} {lifted : Bool} {t : HostType}
    (hu : op.apply (.bool x) w lifted t = .ok u) : u = .bool x := by
  unfold apply at hu
  rw [if_pos hop] at hu
  obtain ⟨τ, hτ, hu⟩ := Outcome.bind_eq_ok.mp hu
  obtain ⟨σ, -, hu⟩ := Outcome.bind_eq_ok.mp hu
  subst hx
  rcases eq_of_isLogical hop with rfl | rfl <;> cases hτ <;> cases hu <;> cases σ <;> rfl

/-- Booleans that may be null on one side only: on the other, what decides is the result. -/
theorem apply_tracks_shortCircuit (ho : o₁.Tracks surely False Value.IsBool o₂)
    (hp : p₁.Tracks surely False Value.IsBool p₂) (lifted : Bool) (t : HostType) :
    (o₁ >>= fun v => p₁ >>= fun w => op.apply v w lifted t).Tracks surely False Value.IsBool
      (o₂ >>= fun v => op.shortCircuit v fun _ => p₂) := by
  refine ho.bind fun v hv => ?_
  obtain ⟨x, rfl⟩ := hv
  unfold shortCircuit
  dsimp only
  split_ifs with hdecides
  · refine ⟨fun {u} hu _ => ?_, False.elim⟩
    obtain ⟨w, -, hu⟩ := Outcome.bind_eq_ok.mp hu
    obtain rfl := apply_of_decides hop hdecides hu
    exact ⟨rfl, x, rfl⟩
  · refine hp.bind fun w hw => ?_
    obtain ⟨y, rfl⟩ := hw
    have hresult : op.apply (.bool x) (.bool y) lifted t = .ok (.bool y) := by
      rcases eq_of_isLogical hop with rfl | rfl <;> cases x <;> cases y <;>
        first | rfl | exact absurd rfl hdecides
    rw [hresult]
    exact .ok ⟨y, rfl⟩

omit hop in
theorem shortCircuit_tracks (ho : o₁.Tracks surely strict Value.IsBool o₂)
    (hp : p₁.Tracks surely strict Value.IsBool p₂) :
    (o₁ >>= fun v => op.shortCircuit v fun _ => p₁).Tracks surely strict Value.IsBool
      (o₂ >>= fun v => op.shortCircuit v fun _ => p₂) := by
  refine ho.bind fun v hv => ?_
  obtain ⟨x, rfl⟩ := hv
  unfold shortCircuit
  dsimp only
  split_ifs with hdecides
  · exact .ok ⟨x, rfl⟩
  · refine hp.bind fun w hw => ?_
    obtain ⟨y, rfl⟩ := hw
    exact .ok ⟨y, rfl⟩

end BinaryOp

namespace Expr

variable [External] {op : BinaryOp} {e l r : Expr} {env : Env} {surely strict : Prop} {o : Outcome Value}

/-- The logic of booleans one of which may be null. -/
theorem eval_logical_of_nullable (hop : op.isLogical = true)
    (hnull : (l.type.isNullableValueType || r.type.isNullableValueType) = true) (lifted : Bool) (env : Env) :
    (mkBinary op l r lifted).eval env = l.eval env >>= fun v => r.eval env >>= fun w =>
      op.apply v w lifted HostType.bool.toNullable := by
  have htype : binaryType op l.type r.type lifted = HostType.bool.toNullable := by
    rw [BinaryOp.binaryType_logical hop, if_pos hnull]
  have hlong : (op.isLogical && !HostType.bool.toNullable.isNullableValueType) = false := by
    rw [hop]
    rfl
  simp only [mkBinary, eval, htype, hlong, Bool.false_eq_true, if_false]

section ConvertTo

variable {P : Value → Prop} (hP : ∀ v, P v → v.IsTruth)
include hP

/-- A boolean brought to the type with null has the same value. -/
theorem convertTo_tracks_left (h : (e.eval env).Tracks surely strict P o) :
    ((e.convertTo HostType.bool.toNullable).eval env).Tracks surely strict P o := by
  unfold convertTo
  split_ifs
  · exact h
  · have hconverted : (e.eval env >>= fun v => v.convert HostType.bool.toNullable).Tracks surely strict P
        (o >>= .ok) := by
      refine h.bind fun v hv => ?_
      obtain ⟨τ, rfl⟩ := hP v hv
      rw [convert_toValue]
      exact .ok hv
    rwa [show o >>= .ok = o by cases o <;> rfl] at hconverted

theorem convertTo_tracks_right (h : o.Tracks surely strict P (e.eval env)) :
    o.Tracks surely strict P ((e.convertTo HostType.bool.toNullable).eval env) := by
  unfold convertTo
  split_ifs
  · exact h
  · have hconverted : (o >>= .ok).Tracks surely strict P
        (e.eval env >>= fun v => v.convert HostType.bool.toNullable) := by
      refine h.bind fun v hv => ?_
      obtain ⟨τ, rfl⟩ := hP v hv
      rw [convert_toValue]
      exact .ok hv
    rwa [show o >>= .ok = o by cases o <;> rfl] at hconverted

end ConvertTo

end Expr

/-! ## Operators -/

namespace Bind

variable [External] {V S : Env → Prop} {strict : Prop} {l₁ l₂ r₁ r₂ e₁ e₂ : Expr}

theorem asBoolean_tracks (h : Expr.Tracks V S strict e₁ e₂) :
    (asBoolean e₁).Alike (fun a b => Expr.Tracks V S strict a b ∧ b.type.isBool = true) (asBoolean e₂) := by
  unfold asBoolean
  rw [h.type.isBool, h.type.isObject]
  split_ifs with hbool
  · exact ⟨h, hbool⟩
  · exact ⟨h.convert _, rfl⟩
  · trivial

section Logical

variable {op : BinaryOp} (hop : op.isLogical = true) (hl : Expr.Tracks V S strict l₁ l₂)
  (hr : Expr.Tracks V S strict r₁ r₂) (hlt : l₂.type.isBool = true) (hrt : r₂.type.isBool = true)
include hop hl hr hlt hrt

omit hop hr hrt in
theorem eval_tracks_truth {env : Env} (henv : V env) :
    (l₁.eval env).Tracks (S env) False Value.IsTruth (l₂.eval env) :=
  (hl.eval env henv).mono False.elim fun _ hv => hv.exists_truth hlt

omit hop hr hrt hlt in
theorem eval_tracks_bool (hplain : l₂.type = .bool) {env : Env} (henv : V env) :
    (l₁.eval env).Tracks (S env) False Value.IsBool (l₂.eval env) :=
  (hl.eval env henv).mono False.elim fun v hv => by
    rw [hplain] at hv
    exact hv.exists_bool

/-- Logic of booleans one of which may be null, on both sides. -/
theorem nullable_tracks :
    Expr.Tracks V S False
      (.mkBinary op (l₁.convertTo HostType.bool.toNullable) (r₁.convertTo HostType.bool.toNullable) false)
      (.mkBinary op (l₂.convertTo HostType.bool.toNullable) (r₂.convertTo HostType.bool.toNullable) false) := by
  have htype (l r : Expr) : (Expr.mkBinary op (l.convertTo HostType.bool.toNullable)
      (r.convertTo HostType.bool.toNullable) false).type = HostType.bool.toNullable := by
    rw [type_logical hop, Expr.type_convertTo, Expr.type_convertTo]
    rfl
  refine ⟨?_, rfl, nofun, fun env henv => ?_⟩
  · rw [htype, htype]
    exact .refl _
  · rw [htype, Expr.eval_logical_of_nullable hop (by rw [Expr.type_convertTo]; rfl),
      Expr.eval_logical_of_nullable hop (by rw [Expr.type_convertTo]; rfl)]
    have hleft := Expr.convertTo_tracks_right (fun _ => id) (eval_tracks_truth hl hlt henv)
    have hright := Expr.convertTo_tracks_right (fun _ => id) (eval_tracks_truth hr hrt henv)
    refine (BinaryOp.combine_tracks hop (Expr.convertTo_tracks_left (fun _ => id) hleft)
      (Expr.convertTo_tracks_left (fun _ => id) hright) _ _).mono id ?_
    rintro _ ⟨τ, rfl⟩
    exact .of_admits (s := .empty) (by cases τ <;> rfl)

end Logical

section Plain

variable {op : BinaryOp} (hop : op.isLogical = true) (hl : Expr.Tracks V S strict l₁ l₂)
  (hr : Expr.Tracks V S strict r₁ r₂) (hlt : l₂.type = .bool) (hrt : r₂.type = .bool)
include hop hl hr hlt hrt

/-- Logic of booleans one of which may be null on the first side only. -/
theorem halted_tracks :
    Expr.Tracks V S False
      (.mkBinary op (l₁.convertTo HostType.bool.toNullable) (r₁.convertTo HostType.bool.toNullable) false)
      (.mkBinary op l₂ r₂ false) := by
  have htype : (Expr.mkBinary op l₂ r₂ false).type = .bool := by
    rw [type_logical hop, hlt, hrt]
    rfl
  refine ⟨?_, rfl, nofun, fun env henv => ?_⟩
  · rw [htype, type_logical hop, Expr.type_convertTo, Expr.type_convertTo]
    exact .inr rfl
  · rw [htype, Expr.eval_logical_of_nullable hop (by rw [Expr.type_convertTo]; rfl),
      Expr.eval_logical hop (by rw [hlt]; rfl) (by rw [hrt]; rfl)]
    refine (BinaryOp.apply_tracks_shortCircuit hop 
      (Expr.convertTo_tracks_left (fun _ => Value.IsBool.isTruth) (eval_tracks_bool hl hlt henv))
      (Expr.convertTo_tracks_left (fun _ => Value.IsBool.isTruth) (eval_tracks_bool hr hrt henv)) _ _).mono id ?_
    rintro _ ⟨x, rfl⟩
    exact .of_isInstanceOf rfl

/-- Logic of booleans that are never null, on both sides. -/
theorem halted_tracks_halted (hlt₁ : l₁.type = .bool) (hrt₁ : r₁.type = .bool) :
    Expr.Tracks V S False (.mkBinary op l₁ r₁ false) (.mkBinary op l₂ r₂ false) := by
  have htype {l r : Expr} (hl : l.type = .bool) (hr : r.type = .bool) :
      (Expr.mkBinary op l r false).type = .bool := by
    rw [type_logical hop, hl, hr]
    rfl
  refine ⟨?_, rfl, nofun, fun env henv => ?_⟩
  · rw [htype hlt hrt, htype hlt₁ hrt₁]
    exact .refl _
  · rw [htype hlt hrt, Expr.eval_logical hop (by rw [hlt₁]; rfl) (by rw [hrt₁]; rfl),
      Expr.eval_logical hop (by rw [hlt]; rfl) (by rw [hrt]; rfl)]
    refine (BinaryOp.shortCircuit_tracks (eval_tracks_bool hl hlt henv) (eval_tracks_bool hr hrt henv)).mono id ?_
    rintro _ ⟨x, rfl⟩
    exact .of_isInstanceOf rfl

end Plain

theorem logical_tracks {op : BinaryOp} (hop : op.isLogical = true) (hl : Expr.Tracks V S strict l₁ l₂)
    (hr : Expr.Tracks V S strict r₁ r₂) :
    (logical op l₁ r₁).Alike (Expr.Tracks V S False) (logical op l₂ r₂) := by
  unfold logical
  refine (asBoolean_tracks hl).bind fun a₁ a₂ ⟨ha, hat⟩ => (asBoolean_tracks hr).bind fun b₁ b₂ ⟨hb, hbt⟩ => ?_
  have hat₁ : a₁.type.isBool = true := ha.type.isBool.trans hat
  have hbt₁ : b₁.type.isBool = true := hb.type.isBool.trans hbt
  dsimp only
  cases hnull₁ : a₁.type.isNullableValueType || b₁.type.isNullableValueType <;>
    cases hnull₂ : a₂.type.isNullableValueType || b₂.type.isNullableValueType
  case true.true => exact nullable_tracks hop ha hb hat hbt
  all_goals rw [Bool.or_eq_false_iff] at *
  case true.false =>
    exact halted_tracks hop ha hb (type_of_isBool hat hnull₂.1) (type_of_isBool hbt hnull₂.2)
  case false.false =>
    exact halted_tracks_halted hop ha hb (type_of_isBool hat hnull₂.1) (type_of_isBool hbt hnull₂.2)
      (type_of_isBool hat₁ hnull₁.1) (type_of_isBool hbt₁ hnull₁.2)
  case false.true =>
    -- a type without null on the first side has none on the second
    rw [← ha.type.eq_of_not_isNullableValueType hnull₁.1, ← hb.type.eq_of_not_isNullableValueType hnull₁.2,
      hnull₁.1, hnull₁.2] at hnull₂
    cases hnull₂

/-- The literal null takes the type of the other operand. -/
theorem unifyNulls_tracks (hl : Expr.Tracks V S strict l₁ l₂) (hr : Expr.Tracks V S strict r₁ r₂) :
    Expr.Tracks V S strict (unifyNulls l₁ r₁).1 (unifyNulls l₂ r₂).1 ∧
      Expr.Tracks V S strict (unifyNulls l₁ r₁).2 (unifyNulls l₂ r₂).2 := by
  unfold unifyNulls
  rw [hl.isNullConst, hr.isNullConst]
  cases l₂.isNullConst <;> cases r₂.isNullConst
  · exact ⟨hl, hr⟩
  · exact ⟨hl, .mkNull hl.type⟩
  · exact ⟨.mkNull hr.type, hr⟩
  · exact ⟨hl, hr⟩

theorem unifyEnums_tracks (hl : Expr.Tracks V S strict l₁ l₂) (hr : Expr.Tracks V S strict r₁ r₂)
    (hlc : l₁.constValue? = l₂.constValue?) (hrc : r₁.constValue? = r₂.constValue?) :
    (unifyEnums l₁ r₁).Alike (fun p q => Expr.Tracks V S strict p.1 q.1 ∧ Expr.Tracks V S strict p.2 q.2)
      (unifyEnums l₂ r₂) := by
  have number {x₁ x₂ : Expr} (hx : Expr.Tracks V S strict x₁ x₂) (hxc : x₁.constValue? = x₂.constValue?)
      (enum : EnumType) : (toUnderlying x₁ enum).Alike (Expr.Tracks V S strict) (toUnderlying x₂ enum) := by
    have hcoincide := toUnderlying_coincides (hx.coincides_of (W := fun env => x₁.AlikeAt x₂ env ∧ x₁.AlikeAt x₂ env)
      fun _ => And.left) hxc enum
    refine .of_exists (fun a₁ ha₁ => ?_) fun a₂ ha₂ => (hcoincide.exists_left ha₂).imp fun _ => And.left
    obtain ⟨a₂, ha₂, h, -⟩ := hcoincide.exists_right ha₁
    have both {x a : Expr} (ha : toUnderlying x enum = .ok a) {env : Env} {u : Value} (hu : a.eval env = .ok u) :
        (∃ v, x.eval env = .ok v) ∧ ∃ v, x.eval env = .ok v := by
      rw [and_self]
      exact exists_eval_of_toUnderlying ha hu
    exact ⟨a₂, ha₂, hx.of_operands hx h (both ha₁) (both ha₂)⟩
  unfold unifyEnums
  rw [hl.type.asEnum?, hr.type.asEnum?]
  split
  · exact ⟨hl, hr⟩
  · exact (number hl hlc _).bind fun a₁ a₂ ha => (number hr hrc _).bind fun b₁ b₂ hb => ⟨ha, hb⟩

/-! ### Negations -/

theorem not_tracks (h : Expr.Tracks V S strict e₁ e₂) :
    (unaryOperation .not e₁).Alike (Expr.Tracks V S strict) (unaryOperation .not e₂) := by
  have negated {x₁ x₂ : Expr} (hx : Expr.Tracks V S strict x₁ x₂) (ht : x₂.type.isBool = true) :
      Expr.Tracks V S strict (.mkUnary .not x₁) (.mkUnary .not x₂) := by
    refine ⟨hx.type, rfl, nofun, fun env henv => (hx.eval env henv).bind fun v hv => ?_⟩
    have hnull := hv.null
    obtain ⟨τ, rfl⟩ := hv.exists_truth ht
    have hkind : x₂.type.nonNullable = .bool := of_decide_eq_true ht
    rw [show UnaryOp.not.apply τ.toValue = .ok τ.not.toValue by cases τ <;> rfl]
    refine .ok ?_
    cases τ with
    | unknown => exact .of_null (hnull rfl)
    | true | false => exact .of_isInstanceOf (by rw [Expr.mkUnary, Expr.type, hkind]; rfl)
  unfold unaryOperation
  dsimp only
  rw [h.type.isBool, h.type.isObject]
  split_ifs with hbool
  · exact negated h hbool
  · exact negated (h.convert _) rfl
  · trivial

end Bind

namespace Context

variable {V S : Env → Prop} {strict : Prop} {c₁ c₂ : Context} {l₁ l₂ r₁ r₂ e₁ e₂ : Expr}

/-- **A conjunction or disjunction.** Where the first side looks at both operands, the second may look at one. -/
theorem logical_tracks [External] {op : QueryOp} (hop : op.isLogical = true)
    (hl : Expr.Tracks V S strict l₁ l₂)
    (hr : Expr.Tracks V S strict r₁ r₂) (hlc : l₁.constValue? = l₂.constValue?)
    (hrc : r₁.constValue? = r₂.constValue?) :
    (c₁.binary op l₁ r₁).Alike (Expr.Tracks V S False) (c₂.binary op l₂ r₂) := by
  obtain ⟨b, hb, hlogical⟩ : ∃ b, op.binaryOp? = some b ∧ b.isLogical = true := by
    cases op <;> first | exact ⟨_, rfl, rfl⟩ | cases hop
  unfold binary
  rw [hb]
  refine (Bind.unifyEnums_tracks hl hr hlc hrc).bind fun p q hpq => ?_
  obtain ⟨ha, hb⟩ := Bind.unifyNulls_tracks hpq.1 hpq.2
  dsimp only
  rw [if_pos hlogical, if_pos hlogical]
  exact Bind.logical_tracks hlogical ha hb

/-! ## Predicates -/

section Predicates

theorem normalizePredicate_of_settings (h : c₁.settings = c₂.settings) (e : Expr) :
    c₁.normalizePredicate e = c₂.normalizePredicate e := by
  simp only [normalizePredicate, foldNull, h]

theorem normalizePredicate_of_type {e : Expr} (htype : e.type = .bool) : c₂.normalizePredicate e = .ok e := by
  unfold normalizePredicate
  rw [htype]

theorem normalizePredicate_of_isNullable {e : Expr} (hbool : e.type.isBool = true)
    (hnull : e.type.isNullableValueType = true) : c₂.normalizePredicate e = .ok (c₂.foldNull e) := by
  have htype : e.type = HostType.bool.toNullable := by
    rw [HostType.eq_nullable hnull, show e.type.nonNullable = .bool from of_decide_eq_true hbool]
    rfl
  unfold normalizePredicate
  rw [htype]
  rfl

theorem normalizePredicate_of_not_isBool {e : Expr} (hbool : e.type.isBool = false) :
    c₂.normalizePredicate e = if e.type.isObject then .ok (c₂.foldNull (.convert e HostType.bool.toNullable))
      else .error (.typeMismatch HostType.bool.text e.type.text) := by
  unfold normalizePredicate
  split
  next htype =>
    rw [htype] at hbool
    cases hbool
  next htype =>
    rw [htype]
    rfl
  next hobject =>
    rw [if_neg (by simp [hbool]), if_neg (by simpa [HostType.isObject] using hobject)]

variable (hsettings : c₁.settings = c₂.settings) (hpropagation : c₂.settings.nullPropagation = true)
include hpropagation

/-- A predicate has a value where it has a truth. -/
theorem exists_eval_of_normalizePredicate [External] {e p : Expr} (hp : c₂.normalizePredicate e = .ok p)
    {env : Env} {τ : Truth} (he : e.eval env = .ok τ.toValue) : ∃ u, p.eval env = .ok u := by
  have folded {x : Expr} (hx : x.eval env = .ok τ.toValue) : ∃ u, (c₂.foldNull x).eval env = .ok u := by
    rw [eval_foldNull hpropagation, hx]
    cases τ <;> exact ⟨_, rfl⟩
  obtain ⟨-, rfl⟩ | ⟨-, rfl⟩ | ⟨-, rfl⟩ := normalizePredicate_eq_ok hp
  · exact ⟨_, he⟩
  · refine folded ?_
    rw [Expr.eval, he]
    exact Expr.convert_toValue τ
  · exact folded he

/-- Null made false on both sides. -/
theorem foldNull_tracks [External] (h : Expr.Tracks V S strict e₁ e₂) (hbool : e₂.type.isBool = true)
    {env : Env}
    (henv : V env) : ((c₂.foldNull e₁).eval env).Tracks (S env) strict Value.IsBool ((c₂.foldNull e₂).eval env) := by
  have hcompare (τ : Truth) : BinaryOp.equal.compareValues τ.toValue (.bool true) false = .ok (.bool (τ = .true)) := by
    cases τ <;> rfl
  rw [eval_foldNull hpropagation, eval_foldNull hpropagation]
  refine (h.eval env henv).bind fun v hv => ?_
  obtain ⟨τ, rfl⟩ := hv.exists_truth hbool
  rw [hcompare]
  exact .ok ⟨_, rfl⟩

/-- Where the second side is a boolean, it is the same as null made false on the first side. -/
theorem foldNull_tracks_left [External] {env : Env}
    (h : (e₁.eval env).Tracks (S env) strict Value.IsBool (e₂.eval env)) :
    ((c₂.foldNull e₁).eval env).Tracks (S env) strict Value.IsBool (e₂.eval env) := by
  rw [eval_foldNull hpropagation, show e₂.eval env = e₂.eval env >>= .ok by cases e₂.eval env <;> rfl]
  refine h.bind fun v hv => ?_
  obtain ⟨x, rfl⟩ := hv
  cases x <;> exact .ok ⟨_, rfl⟩

include hsettings

/-- **A predicate that is never null.** -/
theorem normalizePredicate_tracks [External] (h : Expr.Tracks V S strict e₁ e₂) :
    (c₁.normalizePredicate e₁).Alike (fun p q => p.type = .bool ∧ q.type = .bool ∧
      ∀ env, V env → (p.eval env).Tracks (S env) strict Value.IsBool (q.eval env)) (c₂.normalizePredicate e₂) := by
  rw [normalizePredicate_of_settings hsettings]
  cases hbool : e₂.type.isBool with
  | false =>
    rw [normalizePredicate_of_not_isBool hbool, normalizePredicate_of_not_isBool (h.type.isBool.trans hbool),
      h.type.isObject]
    split_ifs
    · exact ⟨type_foldNull _, type_foldNull _, fun env => foldNull_tracks hpropagation (h.convert _) rfl⟩
    · trivial
  | true =>
    have hbool₁ : e₁.type.isBool = true := h.type.isBool.trans hbool
    cases hnull₂ : e₂.type.isNullableValueType with
    | true =>
      have hnull₁ : e₁.type.isNullableValueType = true := by rw [h.type.isNullableValueType hnull₂, hnull₂]
      rw [normalizePredicate_of_isNullable hbool₁ hnull₁, normalizePredicate_of_isNullable hbool hnull₂]
      exact ⟨type_foldNull _, type_foldNull _, fun env => foldNull_tracks hpropagation h hbool⟩
    | false =>
      have ht₂ := Bind.type_of_isBool hbool hnull₂
      have heval (env : Env) (henv : V env) :
          (e₁.eval env).Tracks (S env) strict Value.IsBool (e₂.eval env) :=
        (h.eval env henv).mono id fun v hv => Value.Suits.exists_bool (ht₂ ▸ hv)
      rw [normalizePredicate_of_type ht₂]
      cases hnull₁ : e₁.type.isNullableValueType with
      | false =>
        have ht₁ := Bind.type_of_isBool hbool₁ hnull₁
        rw [normalizePredicate_of_type ht₁]
        exact ⟨ht₁, ht₂, heval⟩
      | true =>
        rw [normalizePredicate_of_isNullable hbool₁ hnull₁]
        exact ⟨type_foldNull _, ht₂, fun env henv => foldNull_tracks_left hpropagation (heval env henv)⟩

end Predicates

end Context

end TypedQuery
