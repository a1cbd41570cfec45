import TypedQuery.Proofs.Lockstep

/-!
# Binding in two contexts

Two runs of binding whose contexts stand in a relation that does not look at counters. Such a relation
holds again after every computation that keeps its context, so the counters of the two runs may grow
apart.

* `BindM.Simulates`: a computation follows another one.
* `Simulation`: a relation between contexts with one between their expressions.
* `Simulation.rules`: the rules of binding run alike; `Simulation.binary`, `Simulation.call`, …: what
  this says of each rule.
-/

namespace TypedQuery

/-! ## Computations -/

/-- Two contexts that are two given ones but for the counters. -/
def Context.Frames (d₁ d₂ c₁ c₂ : Context) : Prop := d₁.Frame c₁ ∧ d₂.Frame c₂

namespace BindM

variable {α β γ δ : Type} {K : Context → Context → Prop} {E : Error → Prop} {R : α → β → Prop}
  {S : γ → δ → Prop}

/-- In contexts that `K` relates, the second computation follows the first: it gives a related
result, both leaving their contexts as they were but for the counters, and it repeats an error for
which `E` holds. -/
structure Simulates (K : Context → Context → Prop) (E : Error → Prop) (R : α → β → Prop)
    (x : BindM α) (y : BindM β) : Prop where
  ok : ∀ {c₁ c₂ a c₁'}, K c₁ c₂ → x c₁ = (.ok a, c₁') →
    ∃ b c₂', y c₂ = (.ok b, c₂') ∧ R a b ∧ c₁.Frame c₁' ∧ c₂.Frame c₂'
  error : ∀ {c₁ c₂ e c₁'}, K c₁ c₂ → x c₁ = (.error e, c₁') → E e → ∃ c₂', y c₂ = (.error e, c₂')

/-- A relation between contexts that does not look at their counters. -/
def Stable (K : Context → Context → Prop) : Prop :=
  ∀ {c₁ c₂ c₁' c₂' : Context}, K c₁ c₂ → c₁.Frame c₁' → c₂.Frame c₂' → K c₁' c₂'

namespace Simulates

theorem reads {f : Context → Outcome α} {g : Context → Outcome β}
    (h : ∀ {c₁ c₂}, K c₁ c₂ → Follows E R (f c₁) (g c₂)) :
    Simulates K E R (BindM.reads f) (BindM.reads g) where
  ok {c₁ c₂ a c₁'} hK hx := by
    obtain ⟨hf, rfl⟩ := Prod.mk.inj hx
    have hfg := h hK
    rw [hf] at hfg
    obtain ⟨b, hb, hab⟩ := hfg.exists_ok
    exact ⟨b, c₂, Prod.ext hb rfl, hab, Context.Frame.refl _, Context.Frame.refl _⟩
  error {c₁ c₂ e c₁'} hK hx he := by
    obtain ⟨hf, -⟩ := Prod.mk.inj hx
    have hfg := h hK
    rw [hf] at hfg
    exact ⟨c₂, Prod.ext (hfg he) rfl⟩

theorem ofOutcome {o₁ : Outcome α} {o₂ : Outcome β} (h : Follows E R o₁ o₂) :
    Simulates K E R (BindM.ofOutcome o₁) (BindM.ofOutcome o₂) := reads fun _ => h

theorem pure {a : α} {b : β} (h : R a b) :
    Simulates K E R (Pure.pure a : BindM α) (Pure.pure b : BindM β) :=
  ofOutcome (show Follows E R (.ok a) (.ok b) from h)

theorem fail (e : Error) : Simulates K E R (BindM.fail e) (BindM.fail e) :=
  ofOutcome (Follows.error e)

theorem context : Simulates K E K BindM.context BindM.context :=
  reads (f := .ok) (g := .ok) fun hK => hK

theorem bind (hK : Stable K) {x : BindM α} {y : BindM β} {f : α → BindM γ} {g : β → BindM δ}
    (hx : Simulates K E R x y) (hf : ∀ a b, R a b → Simulates K E S (f a) (g b)) :
    Simulates K E S (x >>= f) (y >>= g) where
  ok {c₁ c₂ z c₁'} hc h := by
    rcases hr : x c₁ with ⟨e | a, d₁⟩
    · rw [bind_of_error hr] at h
      cases h
    · rw [bind_of_ok hr] at h
      obtain ⟨b, d₂, hy, hab, hf₁, hf₂⟩ := hx.ok hc hr
      obtain ⟨w, c₂', hg, hzw, hg₁, hg₂⟩ := (hf a b hab).ok (hK hc hf₁ hf₂) h
      exact ⟨w, c₂', (bind_of_ok hy).trans hg, hzw, hf₁.trans hg₁, hf₂.trans hg₂⟩
  error {c₁ c₂ e c₁'} hc h he := by
    rcases hr : x c₁ with ⟨e' | a, d₁⟩
    · rw [bind_of_error hr] at h
      cases h
      obtain ⟨d₂, hy⟩ := hx.error hc hr he
      exact ⟨d₂, bind_of_error hy⟩
    · rw [bind_of_ok hr] at h
      obtain ⟨b, d₂, hy, hab, hf₁, hf₂⟩ := hx.ok hc hr
      obtain ⟨c₂', hg⟩ := (hf a b hab).error (hK hc hf₁ hf₂) h he
      exact ⟨c₂', (bind_of_ok hy).trans hg⟩

theorem fresh (name₁ name₂ : String) (type₁ type₂ : HostType) :
    Simulates K E (fun _ _ => True) (BindM.fresh name₁ type₁) (BindM.fresh name₂ type₂) where
  ok {c₁ c₂ p c₁'} _ hx := by
    have hf₁ := Keeps.fresh name₁ type₁ c₁
    rw [hx] at hf₁
    exact ⟨_, _, rfl, trivial, hf₁, Keeps.fresh name₂ type₂ c₂⟩
  error _ hx _ := by cases hx

theorem mono {R' : α → β → Prop} {x : BindM α} {y : BindM β} (h : Simulates K E R x y)
    (hR : ∀ a b, R a b → R' a b) : Simulates K E R' x y where
  ok hc hx := by
    obtain ⟨b, c₂', hy, hab, hf⟩ := h.ok hc hx
    exact ⟨b, c₂', hy, hR _ _ hab, hf⟩
  error := h.error

/-- A result, with the context that it came from. -/
theorem traced {x : BindM α} {y : BindM β} (h : Simulates K E R x y) :
    Simulates K E (fun a b => R a b ∧ ∃ c₁ c₂ c₁', K c₁ c₂ ∧ x c₁ = (.ok a, c₁')) x y where
  ok hc hx := by
    obtain ⟨b, c₂', hy, hab, hframes⟩ := h.ok hc hx
    exact ⟨b, c₂', hy, ⟨hab, _, _, _, hc, hx⟩, hframes⟩
  error := h.error

theorem forResults {E' : Error → Prop} {x : BindM α} {y : BindM β} (h : Simulates K E R x y)
    (hE : ∀ e, E' e → E e) : Simulates K E' R x y where
  ok := h.ok
  error hc hx he := h.error hc hx (hE _ he)

/-- A simulation is two runs that stay in the frames of the contexts they begin in. -/
theorem of_relates {x : BindM α} {y : BindM β}
    (h : ∀ {d₁ d₂}, K d₁ d₂ → Relates (d₁.Frames d₂) E Eq R x y) : Simulates K E R x y where
  ok {c₁ c₂ a c₁'} hc hx := by
    obtain ⟨b, c₂', hy, hab, hf⟩ := (h hc).ok ⟨.refl c₁, .refl c₂⟩ hx
    exact ⟨b, c₂', hy, hab, hf⟩
  error {c₁ c₂ e c₁'} hc hx he := by
    obtain ⟨_, c₂', hy, rfl⟩ := (h hc).error ⟨.refl c₁, .refl c₂⟩ hx he
    exact ⟨c₂', hy⟩

theorem relates (hK : Stable K) {x : BindM α} {y : BindM β} (h : Simulates K E R x y)
    {d₁ d₂ : Context} (hd : K d₁ d₂) : Relates (d₁.Frames d₂) E Eq R x y where
  ok hc hx := by
    obtain ⟨b, c₂', hy, hab, hf₁, hf₂⟩ := h.ok (hK hd hc.1 hc.2) hx
    exact ⟨b, c₂', hy, hab, hc.1.trans hf₁, hc.2.trans hf₂⟩
  error hc hx he := by
    obtain ⟨c₂', hy⟩ := h.error (hK hd hc.1 hc.2) hx he
    exact ⟨_, c₂', hy, rfl⟩

end Simulates

end BindM

/-! ## Levels -/

theorem Context.Frame.shallower {ctx after : Context} (h : ctx.deeper.Frame after) :
    ctx.Frame after.shallower :=
  { h with depth := by simp only [Context.shallower, h.depth, Context.deeper, Nat.add_sub_cancel] }

namespace BindM.Simulates

variable {α β : Type} {K : Context → Context → Prop} {E : Error → Prop} {R : α → β → Prop}

/-- A computation one level deeper follows another one, if the levels are the same. -/
theorem descend {x : BindM α} {y : BindM β} (h : Simulates K E R x y)
    (hdepth : ∀ {c₁ c₂}, K c₁ c₂ → c₁.depth = c₂.depth)
    (hlimit : ∀ {c₁ c₂}, K c₁ c₂ → c₁.settings.maxDepth = c₂.settings.maxDepth)
    (hdeeper : ∀ {c₁ c₂}, K c₁ c₂ → K c₁.deeper c₂.deeper) :
    Simulates K E R (BindM.descend x) (BindM.descend y) where
  ok {c₁ c₂ a c₁'} hc hx := by
    obtain ⟨hlt, _, hrun, rfl⟩ | ⟨-, hno, -⟩ := descend_cases hx
    · obtain ⟨b, c₂', hy, hab, hf₁, hf₂⟩ := h.ok (hdeeper hc) hrun
      rw [hdepth hc, hlimit hc] at hlt
      rw [descend_of_lt hlt, hy]
      exact ⟨b, _, rfl, hab, hf₁.shallower, hf₂.shallower⟩
    · cases hno
  error {c₁ c₂ e c₁'} hc hx he := by
    obtain ⟨hlt, _, hrun, -⟩ | ⟨hle, hno, -⟩ := descend_cases hx
    · obtain ⟨c₂', hy⟩ := h.error (hdeeper hc) hrun he
      rw [hdepth hc, hlimit hc] at hlt
      rw [descend_of_lt hlt, hy]
      exact ⟨_, rfl⟩
    · cases hno
      rw [hdepth hc, hlimit hc] at hle ⊢
      exact ⟨c₂, descend_of_le hle⟩

end BindM.Simulates

/-! ## Simulations -/

open BindM (Simulates)

/-- A relation between contexts, with the relations between the expressions and between the
predicates that are bound in them. -/
structure Simulation (K : Context → Context → Prop) (E : Error → Prop) (R : Expr → Expr → Prop)
    (L : Lambda → Lambda → Prop) : Prop where
  stable : BindM.Stable K
  congruence : ∀ {c₁ c₂}, K c₁ c₂ → Congruence c₁ c₂ R
  computed : ∀ {c₁ c₂}, K c₁ c₂ → c₁.computed = c₂.computed
  resolve : ∀ {c₁ c₂} v, K c₁ c₂ → Follows E R (c₁.resolve v) (c₂.resolve v)
  constant : ∀ {v} t, v.WellFormed → Simulates K E R (BindM.constant v t) (BindM.constant v t)
  any : ∀ {s₁ s₂ l₁ l₂}, R s₁ s₂ → L l₁ l₂ →
    R (.mkCollection .any [s₁, l₁.toExpr]) (.mkCollection .any [s₂, l₂.toExpr])
  all : ∀ {s₁ s₂ l₁ l₂}, R s₁ s₂ → L l₁ l₂ →
    R (.mkCollection .all [s₁, l₁.toExpr]) (.mkCollection .all [s₂, l₂.toExpr])
  countWhere : ∀ {s₁ s₂ l₁ l₂}, R s₁ s₂ → L l₁ l₂ →
    R (.mkCollection .longCount [.mkCollection .filter [s₁, l₁.toExpr]])
      (.mkCollection .longCount [.mkCollection .filter [s₂, l₂.toExpr]])

namespace Simulation

variable {K : Context → Context → Prop} {E : Error → Prop} {R : Expr → Expr → Prop}
  {L : Lambda → Lambda → Prop} (h : Simulation K E R L) {sub₁ sub₂ : Node → BindM Expr}

/-- The bindings of a node by two functions follow each other. -/
abbrev Sub (K : Context → Context → Prop) (E : Error → Prop) (R : Expr → Expr → Prop)
    (sub₁ sub₂ : Node → BindM Expr) (node : Node) : Prop :=
  Simulates K E R (sub₁ node) (sub₂ node)

include h

/-- What the rules of binding need to run alike in the contexts after two given ones. -/
theorem rules {d₁ d₂ : Context} (hd : K d₁ d₂) : Rules (d₁.Frames d₂) E Eq R R L where
  errors _ := rfl
  congruence hc := (h.congruence (h.stable hd hc.1 hc.2)).toNodeCongruence
  unguarded := id
  guard hc _ hsources hcall :=
    have hcongruence := h.congruence (h.stable hd hc.1 hc.2)
    hcongruence.guardCall (hcongruence.filter_needsGuard hsources) hcall
  resolve v hc := h.resolve v (h.stable hd hc.1 hc.2)
  constant hv _ := (h.constant _ hv).relates h.stable hd
  any _ := h.any
  all _ := h.all
  countWhere _ := h.countWhere

theorem literal (l : Literal) (type : Option LogicalType) :
    Simulates K E R (Bind.constant l type) (Bind.constant l type) :=
  .of_relates fun hd => (h.rules hd).literal l type

theorem collectionConstant (literals : List Literal) (type : LogicalType) :
    Simulates K E R (Bind.collectionConstant literals type) (Bind.collectionConstant literals type) :=
  .of_relates fun hd => (h.rules hd).collectionConstant literals type

/-- A property that flattening has put nothing in place of. -/
theorem property {node source : Node} (name : String)
    (hreads : ∀ {c₁ c₂}, K c₁ c₂ → c₁.flattenedRead? node = none ∧ c₂.flattenedRead? node = none)
    (hs : Sub K E R sub₁ sub₂ source) :
    Simulates K E R (Bind.property sub₁ node source name) (Bind.property sub₂ node source name) := by
  refine .of_relates fun hd => (h.rules hd).property name (fun hc => ?_) (hs.relates h.stable hd)
  obtain ⟨h₁, h₂⟩ := hreads (h.stable hd hc.1 hc.2)
  rw [h₁, h₂]
  exact .none

theorem openProperty {source : Node} (name : String) (hs : Sub K E R sub₁ sub₂ source)
    (hdefinition : ∀ {c₁ c₂ definition}, K c₁ c₂ → Bind.computed? c₁ source name = some definition →
      Sub K E R sub₁ sub₂ definition) :
    Simulates K E R (Bind.openProperty sub₁ source name) (Bind.openProperty sub₂ source name) :=
  .of_relates fun hd => (h.rules hd).openProperty name
    (fun hc => by simp only [Bind.computed?, h.computed (h.stable hd hc.1 hc.2)])
    (hs.relates h.stable hd) fun hc hdef =>
      (hdefinition (h.stable hd hc.1 hc.2) hdef).relates h.stable hd

theorem binary (op : QueryOp) {left right : Node} (hl : Sub K E R sub₁ sub₂ left)
    (hr : Sub K E R sub₁ sub₂ right) :
    Simulates K E R (Bind.binary sub₁ op left right) (Bind.binary sub₂ op left right) :=
  .of_relates fun hd =>
    (h.rules hd).binary op (hl.relates h.stable hd) (hr.relates h.stable hd)

theorem unary (op : QueryUnaryOp) {operand : Node} (hs : Sub K E R sub₁ sub₂ operand) :
    Simulates K E R (Bind.unary sub₁ op operand) (Bind.unary sub₂ op operand) :=
  .of_relates fun hd => (h.rules hd).unary op (hs.relates h.stable hd)

theorem convert {source : Node} (type : LogicalType) (hs : Sub K E R sub₁ sub₂ source) :
    Simulates K E R (Bind.convert sub₁ source type) (Bind.convert sub₂ source type) :=
  .of_relates fun hd => (h.rules hd).convert type (hs.relates h.stable hd)

theorem resourceCast {source : Node} (type : LogicalType) (hs : Sub K E R sub₁ sub₂ source) :
    Simulates K E R (Bind.resourceCast sub₁ source type) (Bind.resourceCast sub₂ source type) :=
  .of_relates fun hd => (h.rules hd).resourceCast type (hs.relates h.stable hd)

theorem call (name : String) {args : List Node} (hargs : ∀ arg ∈ args, Sub K E R sub₁ sub₂ arg) :
    Simulates K E R (Bind.call sub₁ name args) (Bind.call sub₂ name args) :=
  .of_relates fun hd => (h.rules hd).call name fun arg ha => (hargs arg ha).relates h.stable hd

theorem itemType {s₁ s₂ : Expr} (hs : R s₁ s₂) :
    Simulates K E Eq (BindM.ofOutcome (Bind.itemType s₁)) (BindM.ofOutcome (Bind.itemType s₂)) :=
  .of_relates fun hd => (h.rules hd).itemType hs

theorem guarded {s₁ s₂ : Expr} {op : CollectionOperator} (hop : op.isQueryOperator = true)
    {args₁ args₂ : List Expr} (hs : R s₁ s₂)
    (he : ∀ {c₁ c₂}, K c₁ c₂ → R (.mkCollection op args₁) (.mkCollection op args₂)) :
    Simulates K E R (Bind.guarded s₁ (.mkCollection op args₁))
      (Bind.guarded s₂ (.mkCollection op args₂)) :=
  .of_relates fun hd => (h.rules hd).guarded hop hs fun hc => he (h.stable hd hc.1 hc.2)

theorem anyItem {source : Node} (hs : Sub K E R sub₁ sub₂ source) (v : RangeVariable)
    (body : Option Node)
    (hbody : ∀ b, body = some b → ∀ element, Simulates K E L
      (BindM.withRangeVariable v.name element fun p => Bind.predicate sub₁ b p)
      (BindM.withRangeVariable v.name element fun p => Bind.predicate sub₂ b p)) :
    Simulates K E R (Bind.any sub₁ source v body) (Bind.any sub₂ source v body) :=
  .of_relates fun hd => (h.rules hd).anyItem (hs.relates h.stable hd) v body fun b hb element =>
    (hbody b hb element).relates h.stable hd

theorem allItems {source : Node} (hs : Sub K E R sub₁ sub₂ source) (v : RangeVariable) (body : Node)
    (hbody : ∀ element, Simulates K E L
      (BindM.withRangeVariable v.name element fun p => Bind.predicate sub₁ body p)
      (BindM.withRangeVariable v.name element fun p => Bind.predicate sub₂ body p)) :
    Simulates K E R (Bind.all sub₁ source v body) (Bind.all sub₂ source v body) :=
  .of_relates fun hd => (h.rules hd).allItems (hs.relates h.stable hd) v body fun element =>
    (hbody element).relates h.stable hd

theorem isIn {probe items : Node} (hp : Sub K E R sub₁ sub₂ probe)
    (hs : Sub K E R sub₁ sub₂ items) :
    Simulates K E R (Bind.isIn sub₁ probe items) (Bind.isIn sub₂ probe items) :=
  .of_relates fun hd => (h.rules hd).isIn (hp.relates h.stable hd) (hs.relates h.stable hd)

theorem count {source : Node} (hs : Sub K E R sub₁ sub₂ source) :
    Simulates K E R (Bind.count sub₁ source) (Bind.count sub₂ source) :=
  .of_relates fun hd => (h.rules hd).count (hs.relates h.stable hd)

theorem countFiltered {source : Node} (hs : Sub K E R sub₁ sub₂ source) (body : Node)
    (hbody : ∀ element, Simulates K E L (BindM.inChild element (Bind.filterLambda sub₁ body))
      (BindM.inChild element (Bind.filterLambda sub₂ body))) :
    Simulates K E R (Bind.countWhere sub₁ source body) (Bind.countWhere sub₂ source body) :=
  .of_relates fun hd => (h.rules hd).countFiltered (hs.relates h.stable hd) body fun element =>
    (hbody element).relates h.stable hd

theorem collectionCast {source : Node} (type : LogicalType) (hs : Sub K E R sub₁ sub₂ source) :
    Simulates K E R (Bind.collectionCast sub₁ source type) (Bind.collectionCast sub₂ source type) :=
  .of_relates fun hd => (h.rules hd).collectionCast type (hs.relates h.stable hd)

end Simulation

end TypedQuery
