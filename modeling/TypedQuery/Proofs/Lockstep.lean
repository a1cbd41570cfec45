import TypedQuery.Proofs.Congruence
import TypedQuery.Proofs.Frame

/-!
# Two runs of binding

Two runs of binding, in contexts that stand in a relation, give expressions that stand in a relation.
The relation between expressions is a congruence; what is left to see for a pair of contexts is how
variables and literals are bound in them, how calls are guarded, and what a nested scope does.

* `BindM.descend_cases`: a computation one level deeper.
* `BindM.Relates`: a computation runs like another one and keeps a relation between their contexts;
  one lemma for each way to build a computation.
* `Rules`: a relation between contexts with the relations between their expressions.
* `Rules.binary`, `Rules.call`, …: one lemma for each rule of binding.
* `Node.children`, `Node.alias?`: the nodes inside a node, and the computed column that it may name.
* **`Rules.inside`**: one kind of node, if the nodes inside run alike; `Rules.step`: if all nodes do.
* `Context.Aligned`, `Rules.alignedStep`: contexts that number their parameters alike.
-/

namespace TypedQuery

/-! ## Computations -/

/-- Two values that are there together. -/
theorem eq_none_or_some_of_isSome {α β : Type} {a : Option α} {b : Option β} (h : a.isSome = b.isSome) :
    a = none ∧ b = none ∨ ∃ x y, a = some x ∧ b = some y := by
  cases a <;> cases b <;> simp_all

namespace BindM

variable {α β γ δ : Type}

theorem bind_of_ok {x : BindM α} {f : α → BindM γ} {c c' : Context} {a : α}
    (h : x c = (.ok a, c')) : (x >>= f) c = f a c' := by
  change BindM.bind x f c = _
  unfold BindM.bind
  rw [h]

theorem bind_of_error {x : BindM α} {f : α → BindM γ} {c c' : Context} {e : Error}
    (h : x c = (.error e, c')) : (x >>= f) c = (.error e, c') := by
  change BindM.bind x f c = _
  unfold BindM.bind
  rw [h]

theorem exists_of_bind_eq_ok {x : BindM α} {f : α → BindM γ} {c c' : Context} {b : γ}
    (h : (x >>= f) c = (.ok b, c')) : ∃ a c₁, x c = (.ok a, c₁) ∧ f a c₁ = (.ok b, c') := by
  rcases hx : x c with ⟨e | a, c₁⟩
  · rw [bind_of_error hx] at h
    cases h
  · rw [bind_of_ok hx] at h
    exact ⟨a, c₁, rfl, h⟩

theorem exists_of_isSome {x : BindM α} {c : Context} (h : (x c).1.toOption.isSome = true) :
    ∃ a c', x c = (.ok a, c') := by
  rcases hx : x c with ⟨e | a, c'⟩
  · rw [hx] at h
    cases h
  · exact ⟨a, c', rfl⟩

theorem exists_of_inChild_eq_ok {x : BindM α} {element : HostType} {c c' : Context} {a : α}
    (h : inChild element x c = (.ok a, c')) : ∃ k, x (c.derive element) = (.ok a, k) :=
  ⟨_, Prod.ext (Prod.mk.inj h).1 rfl⟩

/-- From contexts that `K` relates, the second computation runs like the first: it gives a related
result in contexts that are related again, and where the first fails with an error of `E`, it fails
with an error that `Y` relates to it. -/
structure Relates (K : Context → Context → Prop) (E : Error → Prop) (Y : Error → Error → Prop)
    (R : α → β → Prop) (x : BindM α) (y : BindM β) : Prop where
  ok : ∀ {c₁ c₂ a c₁'}, K c₁ c₂ → x c₁ = (.ok a, c₁') →
    ∃ b c₂', y c₂ = (.ok b, c₂') ∧ R a b ∧ K c₁' c₂'
  error : ∀ {c₁ c₂ e c₁'}, K c₁ c₂ → x c₁ = (.error e, c₁') → E e →
    ∃ e' c₂', y c₂ = (.error e', c₂') ∧ Y e e'

namespace Relates

variable {K J : Context → Context → Prop} {E : Error → Prop} {Y : Error → Error → Prop}
  {R : α → β → Prop} {S : γ → δ → Prop}

theorem reads (hY : ∀ e, Y e e) {f : Context → Outcome α} {g : Context → Outcome β}
    (h : ∀ {c₁ c₂}, K c₁ c₂ → Follows E R (f c₁) (g c₂)) :
    Relates K E Y R (BindM.reads f) (BindM.reads g) where
  ok {c₁ c₂ a c₁'} hK hx := by
    obtain ⟨hf, rfl⟩ := Prod.mk.inj hx
    have hfg := h hK
    rw [hf] at hfg
    obtain ⟨b, hb, hab⟩ := hfg.exists_ok
    exact ⟨b, c₂, Prod.ext hb rfl, hab, hK⟩
  error {c₁ c₂ e c₁'} hK hx he := by
    obtain ⟨hf, -⟩ := Prod.mk.inj hx
    have hfg := h hK
    rw [hf] at hfg
    exact ⟨e, c₂, Prod.ext (hfg he) rfl, hY e⟩

theorem ofOutcome (hY : ∀ e, Y e e) {o₁ : Outcome α} {o₂ : Outcome β} (h : Follows E R o₁ o₂) :
    Relates K E Y R (BindM.ofOutcome o₁) (BindM.ofOutcome o₂) := reads hY fun _ => h

theorem result {a : α} {b : β} (h : ∀ {c₁ c₂}, K c₁ c₂ → R a b) :
    Relates K E Y R (Pure.pure a : BindM α) (Pure.pure b : BindM β) where
  ok {_ c₂ _ _} hK hx := by
    cases hx
    exact ⟨b, c₂, rfl, h hK, hK⟩
  error _ hx _ := by cases hx

theorem pure {a : α} {b : β} (h : R a b) :
    Relates K E Y R (Pure.pure a : BindM α) (Pure.pure b : BindM β) := result fun _ => h

theorem fail {e₁ e₂ : Error} (h : Y e₁ e₂) :
    Relates K E Y R (BindM.fail e₁ : BindM α) (BindM.fail e₂ : BindM β) where
  ok _ hx := by cases hx
  error {_ c₂ _ _} _ hx _ := by
    cases hx
    exact ⟨e₂, c₂, rfl, h⟩

theorem context : Relates K E Y K BindM.context BindM.context where
  ok {_ c₂ _ _} hK hx := by
    cases hx
    exact ⟨c₂, c₂, rfl, hK, hK⟩
  error _ hx _ := by cases hx

theorem modify {f g : Context → Context} (h : ∀ {c₁ c₂}, K c₁ c₂ → K (f c₁) (g c₂)) :
    Relates K E Y (fun _ _ => True) (BindM.modify f) (BindM.modify g) where
  ok hK hx := by
    cases hx
    exact ⟨(), _, rfl, trivial, h hK⟩
  error _ hx _ := by cases hx

/-- What is undone when it fails. -/
theorem allOrNothing {x : BindM α} {y : BindM β} (h : Relates K E Y R x y) :
    Relates K E Y R (BindM.allOrNothing x) (BindM.allOrNothing y) where
  ok {c₁ c₂ a c₁'} hK hx := by
    unfold BindM.allOrNothing at hx ⊢
    rcases hr : x c₁ with ⟨e | a', d₁⟩
    · rw [hr] at hx
      cases hx
    · rw [hr] at hx
      cases hx
      obtain ⟨b, c₂', hy, hab, hK'⟩ := h.ok hK hr
      rw [hy]
      exact ⟨b, c₂', rfl, hab, hK'⟩
  error {c₁ c₂ e c₁'} hK hx he := by
    unfold BindM.allOrNothing at hx ⊢
    rcases hr : x c₁ with ⟨e' | a, d₁⟩
    · rw [hr] at hx
      cases hx
      obtain ⟨e', c₂', hy, hee⟩ := h.error hK hr he
      rw [hy]
      exact ⟨e', _, rfl, hee⟩
    · rw [hr] at hx
      cases hx

/-- A computation in contexts that are related closer by the time it is reached. -/
theorem of_context {x : BindM α} {y : BindM β}
    (h : ∀ {c₁ c₂}, K c₁ c₂ → ∃ J, J c₁ c₂ ∧ Relates J E Y R x y ∧ ∀ {a b}, J a b → K a b) :
    Relates K E Y R x y where
  ok hK hx := by
    obtain ⟨J, hJ, hxy, hback⟩ := h hK
    obtain ⟨b, c₂', hy, hab, hJ'⟩ := hxy.ok hJ hx
    exact ⟨b, c₂', hy, hab, hback hJ'⟩
  error hK hx he := by
    obtain ⟨J, hJ, hxy, -⟩ := h hK
    exact hxy.error hJ hx he

theorem bind {x : BindM α} {y : BindM β} {f : α → BindM γ} {g : β → BindM δ}
    (hx : Relates K E Y R x y) (hf : ∀ a b, R a b → Relates K E Y S (f a) (g b)) :
    Relates K E Y S (x >>= f) (y >>= g) where
  ok {c₁ c₂ z c₁'} hc h := by
    obtain ⟨a, d₁, hr, h⟩ := exists_of_bind_eq_ok h
    obtain ⟨b, d₂, hy, hab, hd⟩ := hx.ok hc hr
    obtain ⟨w, c₂', hg, hzw, hc'⟩ := (hf a b hab).ok hd h
    exact ⟨w, c₂', (bind_of_ok hy).trans hg, hzw, hc'⟩
  error {c₁ c₂ e c₁'} hc h he := by
    rcases hr : x c₁ with ⟨e' | a, d₁⟩
    · rw [bind_of_error hr] at h
      cases h
      obtain ⟨e', d₂, hy, hee⟩ := hx.error hc hr he
      exact ⟨e', d₂, bind_of_error hy, hee⟩
    · rw [bind_of_ok hr] at h
      obtain ⟨b, d₂, hy, hab, hd⟩ := hx.ok hc hr
      obtain ⟨e', c₂', hg, hee⟩ := (hf a b hab).error hd h he
      exact ⟨e', c₂', (bind_of_ok hy).trans hg, hee⟩

theorem mono {R' : α → β → Prop} {Y' : Error → Error → Prop} {x : BindM α} {y : BindM β}
    (h : Relates K E Y R x y) (hR : ∀ a b, R a b → R' a b) (hY : ∀ e e', Y e e' → Y' e e') :
    Relates K E Y' R' x y where
  ok hc hx := by
    obtain ⟨b, c₂', hy, hab, hc'⟩ := h.ok hc hx
    exact ⟨b, c₂', hy, hR _ _ hab, hc'⟩
  error hc hx he := by
    obtain ⟨e', c₂', hy, hee⟩ := h.error hc hx he
    exact ⟨e', c₂', hy, hY _ _ hee⟩

/-- Other results of related results. -/
theorem weaken {R' : α → β → Prop} {x : BindM α} {y : BindM β} (h : Relates K E Y R x y)
    (hR : ∀ a b, R a b → R' a b) : Relates K E Y R' x y := h.mono hR fun _ _ => id

end Relates

end BindM

/-! ## Levels -/

/-- The context one level deeper. -/
def Context.deeper (ctx : Context) : Context := { ctx with depth := ctx.depth + 1 }

/-- The context one level up. -/
def Context.shallower (ctx : Context) : Context := { ctx with depth := ctx.depth - 1 }

/-- The context with a variable out of scope. -/
def Context.pop (ctx : Context) (name : String) : Context :=
  { ctx with scope := Entries.erase ctx.scope name }

namespace BindM

variable {α β : Type} {x : BindM α} {ctx c c' : Context}

theorem descend_of_lt (h : ctx.depth < ctx.settings.maxDepth) :
    descend x ctx = ((x ctx.deeper).1, (x ctx.deeper).2.shallower) := by
  unfold descend
  rw [if_neg (Nat.not_le_of_lt h)]
  rfl

theorem descend_of_le (h : ctx.settings.maxDepth ≤ ctx.depth) :
    descend x ctx =
      (.error (.nestingTooDeep (ctx.depth + 1) ctx.settings.maxDepth), ctx) := by
  unfold descend
  rw [if_pos h]

/-- A computation one level deeper runs there, or there is no level left for it. -/
theorem descend_cases {o : Outcome α} (h : descend x c = (o, c')) :
    (c.depth < c.settings.maxDepth ∧ ∃ c₁, x c.deeper = (o, c₁) ∧ c' = c₁.shallower) ∨
      (c.settings.maxDepth ≤ c.depth ∧ o = .error (.nestingTooDeep (c.depth + 1) c.settings.maxDepth) ∧ c' = c) := by
  by_cases hlt : c.depth < c.settings.maxDepth
  · rw [descend_of_lt hlt] at h
    obtain ⟨ho, rfl⟩ := Prod.mk.inj h
    exact .inl ⟨hlt, _, Prod.ext ho rfl, rfl⟩
  · rw [descend_of_le (Nat.le_of_not_lt hlt)] at h
    obtain ⟨rfl, rfl⟩ := Prod.mk.inj h
    exact .inr ⟨Nat.le_of_not_lt hlt, rfl, rfl⟩

theorem exists_of_descend_eq_ok {a : α} (h : descend x c = (.ok a, c')) :
    ∃ c₁, x c.deeper = (.ok a, c₁) := by
  obtain ⟨-, c₁, hx, -⟩ | ⟨-, hno, -⟩ := descend_cases h
  · exact ⟨c₁, hx⟩
  · cases hno

end BindM

namespace Node

variable {ctx : Context}

/-- The nodes inside a node are bound one level deeper. -/
theorem bind_eq_of_lt (n : Node) (h : ctx.depth < ctx.settings.maxDepth) :
    n.bind ctx = ((Bind.step (bindWithin ctx.deeper.levelsLeft) n ctx.deeper).1,
      (Bind.step (bindWithin ctx.deeper.levelsLeft) n ctx.deeper).2.shallower) := by
  have hlevels : ctx.levelsLeft = ctx.deeper.levelsLeft + 1 := by
    simp only [Context.levelsLeft, Context.deeper]
    omega
  rw [Node.bind, hlevels, bindWithin, BindM.descend_of_lt h]

theorem bind_of_lt (n : Node) (h : ctx.depth < ctx.settings.maxDepth) :
    (n.bind ctx).1 = (Bind.step (bindWithin ctx.deeper.levelsLeft) n ctx.deeper).1 := by
  rw [bind_eq_of_lt n h]

/-- Where no level is left, nothing is bound. -/
theorem bind_eq_of_le (h : ctx.settings.maxDepth ≤ ctx.depth) (n : Node) :
    n.bind ctx = (.error (.nestingTooDeep (ctx.depth + 1) ctx.settings.maxDepth), ctx) := by
  have hlevels : ctx.levelsLeft = 0 := Nat.sub_eq_zero_of_le h
  rw [Node.bind, hlevels]
  rfl

theorem bind_of_le (h : ctx.settings.maxDepth ≤ ctx.depth) (n : Node) :
    (n.bind ctx).1 = .error (.nestingTooDeep (ctx.depth + 1) ctx.settings.maxDepth) := by
  rw [bind_eq_of_le h]

theorem lt_of_bind_eq_ok {n : Node} {e : Expr} (h : (n.bind ctx).1 = .ok e) :
    ctx.depth < ctx.settings.maxDepth := by
  by_contra hle
  rw [bind_of_le (Nat.le_of_not_lt hle)] at h
  cases h

theorem bindWithin_after (n m : Node) :
    m.bindWithin ctx.levelsLeft (n.bind ctx).2 = m.bind (n.bind ctx).2 := by
  have hframe := Node.bind_keeps n ctx
  have hlevels : (n.bind ctx).2.levelsLeft = ctx.levelsLeft := by
    rw [Context.levelsLeft, hframe.settings, hframe.depth, Context.levelsLeft]
  rw [← hlevels]
  rfl

end Node

namespace BindM

variable {α β : Type} {x : BindM α} {ctx c c' : Context}

namespace Relates

variable {K : Context → Context → Prop} {E : Error → Prop} {Y : Error → Error → Prop}
  {R : α → β → Prop} {y : BindM β}

/-- A computation one level deeper runs like another one, if the levels are the same. -/
theorem descend (hY : ∀ e, Y e e) (h : Relates K E Y R x y)
    (hdepth : ∀ {c₁ c₂}, K c₁ c₂ → c₁.depth = c₂.depth)
    (hlimit : ∀ {c₁ c₂}, K c₁ c₂ → c₁.settings.maxDepth = c₂.settings.maxDepth)
    (hdeeper : ∀ {c₁ c₂}, K c₁ c₂ → K c₁.deeper c₂.deeper)
    (hshallower : ∀ {c₁ c₂}, K c₁ c₂ → K c₁.shallower c₂.shallower) :
    Relates K E Y R (BindM.descend x) (BindM.descend y) where
  ok {c₁ c₂ a c₁'} hc hx := by
    obtain ⟨hlt, _, hrun, rfl⟩ | ⟨-, hno, -⟩ := descend_cases hx
    · obtain ⟨b, c₂', hy, hab, hc'⟩ := h.ok (hdeeper hc) hrun
      rw [hdepth hc, hlimit hc] at hlt
      rw [descend_of_lt hlt, hy]
      exact ⟨b, _, rfl, hab, hshallower hc'⟩
    · cases hno
  error {c₁ c₂ e c₁'} hc hx he := by
    obtain ⟨hlt, _, hrun, -⟩ | ⟨hle, hno, -⟩ := descend_cases hx
    · obtain ⟨e', c₂', hy, hee⟩ := h.error (hdeeper hc) hrun he
      rw [hdepth hc, hlimit hc] at hlt
      rw [descend_of_lt hlt, hy]
      exact ⟨e', _, rfl, hee⟩
    · cases hno
      rw [hdepth hc, hlimit hc] at hle ⊢
      exact ⟨_, c₂, descend_of_le hle, hY _⟩

/-- A computation one level deeper runs like another one that has room wherever the first has, if
failures for want of levels do not count. -/
theorem descend_of_room {J : Context → Context → Prop} (h : Relates J E Y R x y)
    (hE : ∀ depth limit, ¬ E (.nestingTooDeep depth limit))
    (hroom : ∀ {c₁ c₂}, K c₁ c₂ → c₁.depth < c₁.settings.maxDepth → c₂.depth < c₂.settings.maxDepth)
    (hdeeper : ∀ {c₁ c₂}, K c₁ c₂ → J c₁.deeper c₂.deeper)
    (hshallower : ∀ {c₁ c₂}, J c₁ c₂ → K c₁.shallower c₂.shallower) :
    Relates K E Y R (BindM.descend x) (BindM.descend y) where
  ok {c₁ c₂ a c₁'} hc hx := by
    obtain ⟨hlt, _, hrun, rfl⟩ | ⟨-, hno, -⟩ := descend_cases hx
    · obtain ⟨b, c₂', hy, hab, hc'⟩ := h.ok (hdeeper hc) hrun
      rw [descend_of_lt (hroom hc hlt), hy]
      exact ⟨b, _, rfl, hab, hshallower hc'⟩
    · cases hno
  error {c₁ c₂ e c₁'} hc hx he := by
    obtain ⟨hlt, _, hrun, -⟩ | ⟨-, hno, -⟩ := descend_cases hx
    · obtain ⟨e', c₂', hy, hee⟩ := h.error (hdeeper hc) hrun he
      rw [descend_of_lt (hroom hc hlt), hy]
      exact ⟨e', _, rfl, hee⟩
    · cases hno
      exact absurd he (hE _ _)

/-- A computation with a variable in scope, if that has a name that is known in both contexts or in
neither. -/
theorem withRangeVariable {f : Param → BindM α} {g : Param → BindM β} (name : String) (type : HostType)
    (hscope : ∀ {c₁ c₂}, K c₁ c₂ →
      (Entries.get? c₁.scope name).isSome = (Entries.get? c₂.scope name).isSome)
    (hold : ∀ {c₁ c₂ p₁ p₂}, K c₁ c₂ → Entries.get? c₁.scope name = some p₁ →
      Entries.get? c₂.scope name = some p₂ →
      ∃ J, J c₁ c₂ ∧ Relates J E Y R (f p₁) (g p₂) ∧ ∀ {a b}, J a b → K a b)
    (hnew : ∀ {c₁ c₂}, K c₁ c₂ → Entries.get? c₁.scope name = none →
      Entries.get? c₂.scope name = none → ∃ J, J (c₁.push name type) (c₂.push name type) ∧
        Relates J E Y R (f (c₁.newParam name type)) (g (c₂.newParam name type)) ∧
        ∀ {a b}, J a b → K (a.pop name) (b.pop name)) :
    Relates K E Y R (BindM.withRangeVariable name type f)
      (BindM.withRangeVariable name type g) where
  ok {c₁ c₂ a c₁'} hc hx := by
    rcases eq_none_or_some_of_isSome (hscope hc) with ⟨h₁, h₂⟩ | ⟨p₁, p₂, h₁, h₂⟩
    · obtain ⟨J, hJ, hrel, hback⟩ := hnew hc h₁ h₂
      rw [withRangeVariable_of_none h₁] at hx
      obtain ⟨ha, rfl⟩ := Prod.mk.inj hx
      obtain ⟨b, c₂', hy, hab, hJ'⟩ := hrel.ok hJ (Prod.ext ha rfl)
      rw [withRangeVariable_of_none h₂, hy]
      exact ⟨b, _, rfl, hab, hback hJ'⟩
    · obtain ⟨J, hJ, hrel, hback⟩ := hold hc h₁ h₂
      rw [withRangeVariable_of_some h₁] at hx
      obtain ⟨b, c₂', hy, hab, hJ'⟩ := hrel.ok hJ hx
      exact ⟨b, c₂', (withRangeVariable_of_some h₂).trans hy, hab, hback hJ'⟩
  error {c₁ c₂ e c₁'} hc hx he := by
    rcases eq_none_or_some_of_isSome (hscope hc) with ⟨h₁, h₂⟩ | ⟨p₁, p₂, h₁, h₂⟩
    · obtain ⟨J, hJ, hrel, -⟩ := hnew hc h₁ h₂
      rw [withRangeVariable_of_none h₁] at hx
      obtain ⟨e', c₂', hy, hee⟩ := hrel.error hJ (Prod.ext (Prod.mk.inj hx).1 rfl) he
      rw [withRangeVariable_of_none h₂, hy]
      exact ⟨e', _, rfl, hee⟩
    · obtain ⟨J, hJ, hrel, -⟩ := hold hc h₁ h₂
      rw [withRangeVariable_of_some h₁] at hx
      rw [withRangeVariable_of_some h₂]
      exact hrel.error hJ hx he

/-- A computation in the context of a nested clause. -/
theorem inChild (element₁ element₂ : HostType)
    (h : ∀ {c₁ c₂}, K c₁ c₂ → ∃ J, J (c₁.derive element₁) (c₂.derive element₂) ∧
      Relates J E Y R x y ∧ ∀ {a b}, J a b → K (c₁.absorb a) (c₂.absorb b)) :
    Relates K E Y R (BindM.inChild element₁ x) (BindM.inChild element₂ y) where
  ok {c₁ c₂ a c₁'} hc hx := by
    obtain ⟨J, hJ, hrel, hback⟩ := h hc
    unfold BindM.inChild at hx ⊢
    obtain ⟨ha, rfl⟩ := Prod.mk.inj hx
    obtain ⟨b, c₂', hy, hab, hJ'⟩ := hrel.ok hJ (Prod.ext ha rfl)
    rw [hy]
    exact ⟨b, _, rfl, hab, hback hJ'⟩
  error {c₁ c₂ e c₁'} hc hx he := by
    obtain ⟨J, hJ, hrel, -⟩ := h hc
    unfold BindM.inChild at hx ⊢
    obtain ⟨e', c₂', hy, hee⟩ := hrel.error hJ (Prod.ext (Prod.mk.inj hx).1 rfl) he
    rw [hy]
    exact ⟨e', _, rfl, hee⟩

/-- The binding of a node with as many levels as the contexts leave. -/
theorem node {S : Expr → Expr → Prop} {node : Node}
    (hlevels : ∀ {c₁ c₂}, K c₁ c₂ → c₁.levelsLeft = c₂.levelsLeft)
    (h : ∀ levels, Relates K E Y S (node.bindWithin levels) (node.bindWithin levels)) :
    Relates K E Y S node.bind node.bind where
  ok hc hx := by
    unfold Node.bind at hx ⊢
    rw [← hlevels hc]
    exact (h _).ok hc hx
  error hc hx he := by
    unfold Node.bind at hx ⊢
    rw [← hlevels hc]
    exact (h _).error hc hx he

end Relates

end BindM

/-! ## Nodes inside a node -/

namespace Node

/-- The nodes inside a node that are bound in its clause; the predicate of a filtered count is not. -/
def parts : Node → List Node
  | .property source .. | .openProperty source _ | .openCollection source _ | .unary _ source
  | .convert source _ | .count source | .countWhere source .. | .collectionCast source _
  | .resourceCast source _ => [source]
  | .binary _ left right | .isIn left right | .all left _ right => [left, right]
  | .any source _ body => source :: body.toList
  | .call _ args | .resourceCall _ args => args
  | _ => []

/-- The nodes inside a node. -/
def children : Node → List Node
  | .countWhere source predicate _ => [source, predicate]
  | .keyLookup source _ => [source]
  | node => node.parts

/-- The name of the computed column that a node stands for, where there is one of that name. -/
def alias? : Node → Option String
  | .openProperty (.rangeVariable _) name | .openCollection (.rangeVariable _) name => some name
  | _ => none

end Node

theorem Bind.computed?_eq (ctx : Context) (source : Node) (name : String) :
    Bind.computed? ctx source name =
      (Node.openProperty source name).alias?.bind (Entries.get? ctx.computed) := by
  cases source <;> rfl

/-- Contexts that are related have the same records, variables, reads and columns, number their
parameters alike, and stay related in every scope. -/
structure Context.Aligned (K : Context → Context → Prop) : Prop where
  current : ∀ {c₁ c₂}, K c₁ c₂ → c₁.current = c₂.current
  scope : ∀ {c₁ c₂}, K c₁ c₂ → c₁.scope = c₂.scope
  nextId : ∀ {c₁ c₂}, K c₁ c₂ → c₁.nextId = c₂.nextId
  flattened : ∀ {c₁ c₂}, K c₁ c₂ → c₁.flattened = c₂.flattened
  computed : ∀ {c₁ c₂}, K c₁ c₂ → c₁.computed = c₂.computed
  deeper : ∀ {c₁ c₂}, K c₁ c₂ → K c₁.deeper c₂.deeper
  shallower : ∀ {c₁ c₂}, K c₁ c₂ → K c₁.shallower c₂.shallower
  push : ∀ {c₁ c₂} name type, K c₁ c₂ → K (c₁.push name type) (c₂.push name type)
  pop : ∀ {c₁ c₂} name, K c₁ c₂ → K (c₁.pop name) (c₂.pop name)
  derive : ∀ {c₁ c₂} element, K c₁ c₂ → K (c₁.derive element) (c₂.derive element)
  absorb : ∀ {c₁ c₂ a b}, K c₁ c₂ → K a b → K (c₁.absorb a) (c₂.absorb b)

/-- Contexts that differ in their settings, as these determine, and in how many literals were captured. -/
theorem Context.Aligned.of_settings {K : Context → Context → Prop} (P : Settings → Prop) (change : Settings → Settings)
    (hK : ∀ c₁ c₂, K c₁ c₂ ↔
      P c₁.settings ∧ c₂ = { c₁ with settings := change c₁.settings, captures := c₂.captures }) :
    Context.Aligned K where
  current h := by rw [((hK _ _).mp h).2]
  scope h := by rw [((hK _ _).mp h).2]
  nextId h := by rw [((hK _ _).mp h).2]
  flattened h := by rw [((hK _ _).mp h).2]
  computed h := by rw [((hK _ _).mp h).2]
  deeper h := (hK _ _).mpr ⟨((hK _ _).mp h).1, by rw [((hK _ _).mp h).2]; rfl⟩
  shallower h := (hK _ _).mpr ⟨((hK _ _).mp h).1, by rw [((hK _ _).mp h).2]; rfl⟩
  push _ _ h := (hK _ _).mpr ⟨((hK _ _).mp h).1, by rw [((hK _ _).mp h).2]; rfl⟩
  pop _ h := (hK _ _).mpr ⟨((hK _ _).mp h).1, by rw [((hK _ _).mp h).2]; rfl⟩
  derive _ h := (hK _ _).mpr ⟨((hK _ _).mp h).1, by rw [((hK _ _).mp h).2]; rfl⟩
  absorb h ha := (hK _ _).mpr ⟨((hK _ _).mp h).1, by rw [((hK _ _).mp h).2, ((hK _ _).mp ha).2]; rfl⟩

/-! ## Rules of binding -/

open BindM (Relates)

/-- A guard of one source is a guard of a call. -/
theorem Context.guardIfNeeded_eq (ctx : Context) (source result : Expr) :
    ctx.guardIfNeeded source result = Bind.guardCall ([source].filter ctx.needsGuard) result := by
  unfold Context.guardIfNeeded
  rw [List.filter_singleton]
  cases ctx.needsGuard source <;> rfl

/-- The types of literals: of records there are none, and none is a nullable value type. -/
def HostType.isLiteral (t : HostType) : Bool := t.recordName?.isNone && !t.isNullableValueType

/-- The operators on collections that queries have. -/
def CollectionOperator.isQueryOperator : CollectionOperator → Bool
  | .any | .all | .contains | .longCount | .cast _ => true
  | _ => false

/-- The calls of queries, with the expressions that they are guarded by: a function is guarded by its
arguments, and an operator by its collection. -/
inductive Bind.GuardedCall : List Expr → Method → List Expr → Prop
  | scalar {b : Builtin} {args : List Expr} (hb : b ∈ Builtin.all)
    (hlength : args.length ≤ b.args.length) : GuardedCall args (.scalar b.function) args
  | collection {op : CollectionOperator} (hop : op.isQueryOperator = true) (source : Expr)
    (args : List Expr) : GuardedCall [source] (.collection op) args

/-- A relation between contexts, with the relations between the expressions, the guarded expressions
and the predicates that are bound in them. -/
structure Rules (K : Context → Context → Prop) (E : Error → Prop) (Y : Error → Error → Prop)
    (R G : Expr → Expr → Prop) (L : Lambda → Lambda → Prop) : Prop where
  errors : ∀ e, Y e e
  congruence : ∀ {c₁ c₂}, K c₁ c₂ → NodeCongruence c₁ c₂ R
  unguarded : ∀ {e₁ e₂}, R e₁ e₂ → G e₁ e₂
  guard : ∀ {c₁ c₂ sources₁ sources₂ m args₁ args₂}, K c₁ c₂ → Bind.GuardedCall sources₁ m args₁ →
    List.Forall₂ R sources₁ sources₂ → R (.mkCall m args₁) (.mkCall m args₂) →
    G (Bind.guardCall (sources₁.filter c₁.needsGuard) (.mkCall m args₁))
      (Bind.guardCall (sources₂.filter c₂.needsGuard) (.mkCall m args₂))
  resolve : ∀ {c₁ c₂} v, K c₁ c₂ → Follows E R (c₁.resolve v) (c₂.resolve v)
  constant : ∀ {v t}, v.WellFormed → t.isLiteral →
    Relates K E Y R (BindM.constant v t) (BindM.constant v t)
  any : ∀ {c₁ c₂ s₁ s₂ l₁ l₂}, K c₁ c₂ → R s₁ s₂ → L l₁ l₂ →
    R (.mkCollection .any [s₁, l₁.toExpr]) (.mkCollection .any [s₂, l₂.toExpr])
  all : ∀ {c₁ c₂ s₁ s₂ l₁ l₂}, K c₁ c₂ → R s₁ s₂ → L l₁ l₂ →
    R (.mkCollection .all [s₁, l₁.toExpr]) (.mkCollection .all [s₂, l₂.toExpr])
  countWhere : ∀ {c₁ c₂ s₁ s₂ l₁ l₂}, K c₁ c₂ → R s₁ s₂ → L l₁ l₂ →
    R (.mkCollection .longCount [.mkCollection .filter [s₁, l₁.toExpr]])
      (.mkCollection .longCount [.mkCollection .filter [s₂, l₂.toExpr]])

namespace Rules

variable {K : Context → Context → Prop} {E : Error → Prop} {Y : Error → Error → Prop}
  {R G : Expr → Expr → Prop} {L : Lambda → Lambda → Prop} (h : Rules K E Y R G L)
  {sub₁ sub₂ : Node → BindM Expr}

/-- The bindings of a node by two functions run alike. -/
abbrev Sub (K : Context → Context → Prop) (E : Error → Prop) (Y : Error → Error → Prop)
    (R : Expr → Expr → Prop) (sub₁ sub₂ : Node → BindM Expr) (node : Node) : Prop :=
  Relates K E Y R (sub₁ node) (sub₂ node)

include h

theorem hostType (t : LogicalType) :
    Relates K E Y Eq (BindM.reads fun ctx => ctx.hostType t)
      (BindM.reads fun ctx => ctx.hostType t) :=
  Relates.reads h.errors fun hK => by
    unfold Context.hostType
    rw [(h.congruence hK).schema]
    exact Follows.eq_refl _

/-! ### Literals -/

omit h in
theorem isScalar_of_value? {l : Literal} {v : Value} (h : l.value? = some v) : v.isScalar = true := by
  cases l <;> cases h <;> rfl

omit h in
theorem literalItem_wellFormed (element : HostType) (l : Literal) :
    (Bind.literalItem element l).Gives Value.WellFormed := by
  unfold Bind.literalItem
  split
  next enum _ =>
    unfold Bind.enumItem
    dsimp only
    split
    next s =>
      cases enum.parse? s with
      | none => trivial
      | some value => exact .scalar rfl
    next s =>
      cases enum.parse? s with
      | none => trivial
      | some value => exact .scalar rfl
    next => exact .scalar rfl
    next => trivial
  next =>
    dsimp only
    cases hv : l.value? with
    | none => trivial
    | some v =>
      have hconvert := v.convert_wellFormed (.scalar (isScalar_of_value? hv)) element.toNullable
      dsimp only
      cases hw : v.convert element.toNullable with
      | error e => trivial
      | ok w =>
        rw [hw] at hconvert
        exact hconvert

omit h in
theorem isLiteral_of_value? {l : Literal} {v : Value} (h : l.value? = some v) :
    (v.hostType?.getD .object).isLiteral := by
  cases l <;> cases h <;> rfl

omit h in
theorem enumType_isLiteral (ctx : Context) (name : String) :
    (ctx.hostType (.enum name false)).Gives fun t => t.isLiteral := by
  unfold Context.hostType Schema.hostType?
  cases ctx.schema.enum? name with
  | none => trivial
  | some enum => exact rfl

theorem enumConstant (typeName spelling : String) :
    Relates K E Y R (Bind.enumConstant typeName spelling) (Bind.enumConstant typeName spelling) := by
  have hhost : Relates K E Y (fun s t => s = t ∧ s.isLiteral)
      (BindM.reads fun ctx => ctx.hostType (.enum typeName false))
      (BindM.reads fun ctx => ctx.hostType (.enum typeName false)) :=
    Relates.reads h.errors fun {c₁ c₂} hK => by
      have heq : c₂.hostType (.enum typeName false) = c₁.hostType (.enum typeName false) := by
        unfold Context.hostType
        rw [(h.congruence hK).schema]
      rw [heq]
      exact Follows.eq_of_gives (enumType_isLiteral c₁ typeName)
  refine Relates.bind hhost fun host _ hhost => ?_
  obtain ⟨rfl, hliteral⟩ := hhost
  cases host.asEnum? with
  | none => exact Relates.fail (h.errors _)
  | some enum =>
    dsimp only
    cases enum.parse? spelling with
    | none => exact Relates.fail (h.errors _)
    | some value => exact h.constant (.scalar rfl) hliteral

theorem collectionConstant (literals : List Literal) (type : LogicalType) :
    Relates K E Y R (Bind.collectionConstant literals type) (Bind.collectionConstant literals type) := by
  refine Relates.bind (h.hostType _) fun element _ he => ?_
  subst he
  have hitems : (literals.mapM (Bind.literalItem element)).Gives fun items => ∀ v ∈ items, v.WellFormed :=
    .mapM fun l _ => literalItem_wellFormed element l
  refine Relates.bind (Relates.ofOutcome h.errors (Follows.eq_of_gives hitems)) fun items _ hi => ?_
  obtain ⟨rfl, hi⟩ := hi
  exact h.constant (.collection hi) rfl

theorem literal (l : Literal) (type : Option LogicalType) :
    Relates K E Y R (Bind.constant l type) (Bind.constant l type) := by
  refine Relates.bind (R := Eq) (Relates.reads h.errors fun hK => ?_) fun declared _ hd => ?_
  · have htypes := (h.congruence hK).schema
    cases type with
    | none => exact rfl
    | some t =>
      simp only [Option.mapM_some]
      unfold Context.hostType
      rw [htypes]
      exact Follows.eq_refl _
  · subst hd
    split
    · exact h.enumConstant _ _
    · split
      next => exact Relates.fail (h.errors _)
      next => exact Relates.result fun hK => (h.congruence hK).mkNull _
      next hv => exact h.constant (.scalar (isScalar_of_value? hv)) (isLiteral_of_value? hv)

/-! ### Properties -/

theorem property {node source : Node} (name : String)
    (hreads : ∀ {c₁ c₂}, K c₁ c₂ → Option.Rel R (c₁.flattenedRead? node) (c₂.flattenedRead? node))
    (hs : Sub K E Y R sub₁ sub₂ source) :
    Relates K E Y R (Bind.property sub₁ node source name) (Bind.property sub₂ node source name) := by
  refine Relates.bind Relates.context fun c₁ c₂ hc => ?_
  have hread := hreads hc
  revert hread
  cases c₁.flattenedRead? node <;> cases c₂.flattenedRead? node <;> intro hread <;> cases hread
  · exact Relates.bind hs fun _ _ he => Relates.reads h.errors fun hK =>
      (h.congruence hK).memberAccess name he
  · exact Relates.pure (by assumption)

theorem openProperty {source : Node} (name : String)
    (hcomputed : ∀ {c₁ c₂}, K c₁ c₂ → Bind.computed? c₁ source name = Bind.computed? c₂ source name)
    (hs : Sub K E Y R sub₁ sub₂ source)
    (hdefinition : ∀ {c₁ c₂ definition}, K c₁ c₂ → Bind.computed? c₁ source name = some definition →
      Sub K E Y R sub₁ sub₂ definition) :
    Relates K E Y R (Bind.openProperty sub₁ source name) (Bind.openProperty sub₂ source name) := by
  refine Relates.bind Relates.context fun c₁ c₂ hc => ?_
  rw [← hcomputed hc]
  cases hd : Bind.computed? c₁ source name with
  | some definition => exact hdefinition hc hd
  | none =>
    exact Relates.bind hs fun _ _ he => Relates.reads h.errors fun hK =>
      (h.congruence hK).openAccess name he

/-! ### Operators and conversions -/

theorem binary (op : QueryOp) {left right : Node} (hl : Sub K E Y R sub₁ sub₂ left)
    (hr : Sub K E Y R sub₁ sub₂ right) :
    Relates K E Y R (Bind.binary sub₁ op left right) (Bind.binary sub₂ op left right) :=
  Relates.bind hl fun _ _ hl => Relates.bind hr fun _ _ hr =>
    Relates.reads h.errors fun hK => (h.congruence hK).binaryOperation op hl hr

theorem unary (op : QueryUnaryOp) {operand : Node} (hs : Sub K E Y R sub₁ sub₂ operand) :
    Relates K E Y R (Bind.unary sub₁ op operand) (Bind.unary sub₂ op operand) :=
  Relates.bind hs fun _ _ he => Relates.reads h.errors fun hK =>
    (h.congruence hK).unaryOperation op he

theorem convert {source : Node} (type : LogicalType) (hs : Sub K E Y R sub₁ sub₂ source) :
    Relates K E Y R (Bind.convert sub₁ source type) (Bind.convert sub₂ source type) := by
  refine Relates.bind hs fun _ _ he => Relates.bind (h.hostType _) fun target _ ht => ?_
  subst ht
  exact Relates.reads h.errors fun hK => (h.congruence hK).convertTo _ he

theorem resourceCast {source : Node} (type : LogicalType) (hs : Sub K E Y R sub₁ sub₂ source) :
    Relates K E Y R (Bind.resourceCast sub₁ source type) (Bind.resourceCast sub₂ source type) := by
  refine Relates.bind hs fun _ _ he => Relates.bind (h.hostType _) fun target _ ht => ?_
  subst ht
  exact Relates.result fun hK => (h.congruence hK).mkTypeAs _ he

/-! ### Calls -/

theorem typeArgument (function : String) (arg : Node) :
    Relates K E Y Eq (BindM.reads (Bind.typeArgument function arg))
      (BindM.reads (Bind.typeArgument function arg)) :=
  Relates.reads h.errors fun hK => by
    unfold Bind.typeArgument Bind.namedType
    rw [(h.congruence hK).schema]
    exact Follows.eq_refl _

theorem typeFunction (function : String) {args : List Node}
    (hargs : ∀ arg ∈ args, Sub K E Y R sub₁ sub₂ arg) :
    Relates K E Y R (Bind.typeFunction sub₁ function args) (Bind.typeFunction sub₂ function args) := by
  have finish {e₁ e₂ : Expr} (target : HostType) (he : R e₁ e₂) :
      Relates K E Y R
        (pure (if function = "isof" then Bind.isOf e₁ target else Bind.cast e₁ target) : BindM Expr)
        (pure (if function = "isof" then Bind.isOf e₂ target else Bind.cast e₂ target) : BindM Expr) := by
    refine Relates.result fun hK => ?_
    split
    · exact (h.congruence hK).isOf target he
    · exact (h.congruence hK).cast target he
  rcases args with _ | ⟨a, _ | ⟨b, _ | ⟨c, rest⟩⟩⟩
  · exact Relates.fail (h.errors _)
  · refine Relates.bind (h.typeArgument _ _) fun target _ ht => ?_
    subst ht
    exact Relates.bind (Relates.reads h.errors fun hK => h.resolve _ hK) fun _ _ he =>
      finish target he
  · refine Relates.bind (h.typeArgument _ _) fun target _ ht => ?_
    subst ht
    exact Relates.bind (hargs a (by simp)) fun _ _ he => finish target he
  · exact Relates.fail (h.errors _)

theorem arguments (function : String) {args : List Node}
    (hargs : ∀ arg ∈ args, Sub K E Y R sub₁ sub₂ arg) (kinds : List ArgKind) :
    Relates K E Y (fun as bs => List.Forall₂ R as bs ∧ as.length ≤ kinds.length)
      (Bind.arguments sub₁ function args kinds) (Bind.arguments sub₂ function args kinds) := by
  induction args generalizing kinds with
  | nil => exact Relates.pure ⟨.nil, Nat.zero_le _⟩
  | cons arg args ih =>
    cases kinds with
    | nil => exact Relates.pure ⟨.nil, Nat.le_refl _⟩
    | cons k ks =>
      refine Relates.bind (hargs arg (by simp)) fun _ _ he => ?_
      refine Relates.bind (R := R) (Relates.reads h.errors fun hK =>
        (h.congruence hK).coerce function k he) fun _ _ he => ?_
      refine Relates.bind (ih (fun a ha => hargs a (by simp [ha])) ks) fun _ _ hrest => ?_
      exact Relates.pure ⟨.cons he hrest.1, Nat.succ_le_succ hrest.2⟩

theorem builtinCall {b : Builtin} (hb : b ∈ Builtin.all) (name : String) {args : List Node}
    (hargs : ∀ arg ∈ args, Sub K E Y R sub₁ sub₂ arg) :
    Relates K E Y G (Bind.builtinCall sub₁ b name args) (Bind.builtinCall sub₂ b name args) := by
  unfold Bind.builtinCall
  split
  · refine Relates.bind (h.arguments name hargs b.args) fun as bs hbound => ?_
    refine Relates.bind Relates.context fun c₁ c₂ hc => Relates.pure ?_
    have hcall {as bs : List Expr} (hbound : List.Forall₂ R as bs) (hlength : as.length ≤ b.args.length) :
        G (Bind.guardCall (as.filter c₁.needsGuard) (.mkScalar b.function as))
          (Bind.guardCall (bs.filter c₂.needsGuard) (.mkScalar b.function bs)) :=
      h.guard hc (.scalar hb hlength) hbound ((h.congruence hc).mkScalar b.function hbound)
    split
    · exact hcall ((h.congruence hc).map_integralToDouble hbound.1) (by simpa using hbound.2)
    · exact hcall hbound.1 hbound.2
  · exact Relates.fail (h.errors _)

theorem call (name : String) {args : List Node} (hargs : ∀ arg ∈ args, Sub K E Y R sub₁ sub₂ arg) :
    Relates K E Y G (Bind.call sub₁ name args) (Bind.call sub₂ name args) := by
  unfold Bind.call
  dsimp only
  split
  · exact (h.typeFunction _ hargs).weaken fun _ _ => h.unguarded
  · split
    next hname => exact h.builtinCall (List.mem_of_find?_eq_some hname) name hargs
    next => exact Relates.fail (h.errors _)

/-! ### Collections -/

theorem itemType {s₁ s₂ : Expr} (hs : R s₁ s₂) :
    Relates K E Y Eq (BindM.ofOutcome (Bind.itemType s₁)) (BindM.ofOutcome (Bind.itemType s₂)) :=
  Relates.reads h.errors fun hK => by
    rw [(h.congruence hK).itemType hs]
    exact Follows.eq_refl _

theorem guarded {s₁ s₂ : Expr} {op : CollectionOperator} (hop : op.isQueryOperator = true)
    {args₁ args₂ : List Expr} (hs : R s₁ s₂)
    (he : ∀ {c₁ c₂}, K c₁ c₂ → R (.mkCollection op args₁) (.mkCollection op args₂)) :
    Relates K E Y G (Bind.guarded s₁ (.mkCollection op args₁))
      (Bind.guarded s₂ (.mkCollection op args₂)) :=
  Relates.bind Relates.context fun c₁ c₂ hc => Relates.pure <| by
    rw [c₁.guardIfNeeded_eq, c₂.guardIfNeeded_eq]
    exact h.guard hc (.collection hop s₁ args₁) (.cons hs .nil) (he hc)

/-- The source of a collection operator with the type of its items. -/
theorem overItems {source : Node} {f g : Expr → HostType → BindM Expr}
    (hs : Sub K E Y R sub₁ sub₂ source)
    (hf : ∀ s₁ s₂ element, R s₁ s₂ → Relates K E Y G (f s₁ element) (g s₂ element)) :
    Relates K E Y G (sub₁ source >>= fun s => BindM.ofOutcome (Bind.itemType s) >>= f s)
      (sub₂ source >>= fun s => BindM.ofOutcome (Bind.itemType s) >>= g s) := by
  refine Relates.bind hs fun s₁ s₂ hs => ?_
  refine Relates.bind (h.itemType hs) fun element _ he => ?_
  subst he
  exact hf s₁ s₂ element hs

theorem anyItem {source : Node} (hs : Sub K E Y R sub₁ sub₂ source) (v : RangeVariable)
    (body : Option Node)
    (hbody : ∀ b, body = some b → ∀ element, Relates K E Y L
      (BindM.withRangeVariable v.name element fun p => Bind.predicate sub₁ b p)
      (BindM.withRangeVariable v.name element fun p => Bind.predicate sub₂ b p)) :
    Relates K E Y G (Bind.any sub₁ source v body) (Bind.any sub₂ source v body) := by
  refine h.overItems hs fun s₁ s₂ element hs => ?_
  have bare : Relates K E Y G (Bind.guarded s₁ (.mkCollection .any [s₁]))
      (Bind.guarded s₂ (.mkCollection .any [s₂])) :=
    h.guarded rfl hs fun hK => (h.congruence hK).mkCollection _ (.cons hs .nil)
  split
  · exact bare
  · exact bare
  · exact Relates.result fun hK => h.unguarded ((h.congruence hK).mkBool _)
  · exact Relates.bind (hbody _ rfl element) fun _ _ hl => h.guarded rfl hs fun hK => h.any hK hs hl

theorem allItems {source : Node} (hs : Sub K E Y R sub₁ sub₂ source) (v : RangeVariable) (body : Node)
    (hbody : ∀ element, Relates K E Y L
      (BindM.withRangeVariable v.name element fun p => Bind.predicate sub₁ body p)
      (BindM.withRangeVariable v.name element fun p => Bind.predicate sub₂ body p)) :
    Relates K E Y G (Bind.all sub₁ source v body) (Bind.all sub₂ source v body) :=
  h.overItems hs fun _ _ element hs => Relates.bind (hbody element) fun _ _ hl =>
    h.guarded rfl hs fun hK => h.all hK hs hl

theorem isIn {probe items : Node} (hp : Sub K E Y R sub₁ sub₂ probe)
    (hs : Sub K E Y R sub₁ sub₂ items) :
    Relates K E Y G (Bind.isIn sub₁ probe items) (Bind.isIn sub₂ probe items) := by
  refine Relates.bind hp fun p₁ p₂ hp => h.overItems hs fun s₁ s₂ element hs => ?_
  refine h.guarded rfl hs fun hK => ?_
  have hc := h.congruence hK
  rw [hc.isNullConst hp]
  -- the null that is looked for has the type of the items
  have contained {q₁ q₂ : Expr} (hq : R q₁ q₂) :
      R (.mkCollection .contains
          [if q₁.type = element then s₁ else .mkCollection (.cast q₁.type) [s₁], q₁])
        (.mkCollection .contains
          [if q₂.type = element then s₂ else .mkCollection (.cast q₂.type) [s₂], q₂]) := by
    rw [hc.type hq]
    refine hc.mkCollection _ (.cons ?_ (.cons hq .nil))
    split
    · exact hs
    · exact hc.mkCollection _ (.cons hs .nil)
  split
  · exact contained (hc.mkNull _)
  · exact contained hp

theorem count {source : Node} (hs : Sub K E Y R sub₁ sub₂ source) :
    Relates K E Y G (Bind.count sub₁ source) (Bind.count sub₂ source) :=
  h.overItems hs fun _ _ _ hs => h.guarded rfl hs fun hK =>
    (h.congruence hK).mkCollection _ (.cons hs .nil)

theorem countFiltered {source : Node} (hs : Sub K E Y R sub₁ sub₂ source) (body : Node)
    (hbody : ∀ element, Relates K E Y L (BindM.inChild element (Bind.filterLambda sub₁ body))
      (BindM.inChild element (Bind.filterLambda sub₂ body))) :
    Relates K E Y G (Bind.countWhere sub₁ source body) (Bind.countWhere sub₂ source body) :=
  h.overItems hs fun _ _ element hs => Relates.bind (hbody element) fun _ _ hl =>
    h.guarded rfl hs fun hK => h.countWhere hK hs hl

theorem collectionCast {source : Node} (type : LogicalType) (hs : Sub K E Y R sub₁ sub₂ source) :
    Relates K E Y G (Bind.collectionCast sub₁ source type) (Bind.collectionCast sub₂ source type) := by
  refine h.overItems hs fun s₁ s₂ _ hs => Relates.bind (h.hostType _) fun target _ ht => ?_
  subst ht
  exact h.guarded rfl hs fun hK => (h.congruence hK).mkCollection _ (.cons hs .nil)

/-! ### Predicates -/

theorem predicate {body : Node} (hs : Sub K E Y R sub₁ sub₂ body) (p₁ p₂ : Param) :
    Relates K E Y (fun l₁ l₂ => l₁.param = p₁ ∧ l₂.param = p₂ ∧ R l₁.body l₂.body)
      (Bind.predicate sub₁ body p₁) (Bind.predicate sub₂ body p₂) :=
  Relates.bind hs fun _ _ he => Relates.bind (R := R)
    (Relates.reads h.errors fun hK => (h.congruence hK).normalizePredicate he) fun _ _ he =>
      Relates.pure ⟨rfl, rfl, he⟩

theorem filterLambda {body : Node} (hs : Sub K E Y R sub₁ sub₂ body) :
    Relates K E Y (fun l₁ l₂ => (∃ c₁ c₂, K c₁ c₂ ∧ l₁.param = c₁.current ∧ l₂.param = c₂.current)
        ∧ R l₁.body l₂.body)
      (Bind.filterLambda sub₁ body) (Bind.filterLambda sub₂ body) := by
  refine Relates.bind hs fun _ _ he => Relates.bind
    (R := fun e₁ e₂ => R e₁ e₂ ∧ e₁.type = e₂.type) ?_ fun e₁ e₂ he => ?_
  · refine Relates.reads h.errors fun hK => ?_
    have hfollows := (h.congruence hK).normalizePredicate (E := E) he
    exact hfollows.mono fun _ _ he => ⟨he, (h.congruence hK).type he⟩
  · rw [he.2]
    split_ifs
    · exact Relates.bind Relates.context fun c₁ c₂ hc =>
        Relates.pure ⟨⟨c₁, c₂, hc, rfl, rfl⟩, he.1⟩
    · exact Relates.fail (h.errors _)

/-! ### Nodes -/

/-- **Every rule of binding runs alike in two contexts**, if the bindings of the nodes inside do, and
those of the definition of a computed column that the node names. -/
theorem inside (node : Node)
    (hreads : ∀ {c₁ c₂}, K c₁ c₂ → Option.Rel R (c₁.flattenedRead? node) (c₂.flattenedRead? node))
    (hcomputed : ∀ {c₁ c₂ name}, node.alias? = some name → K c₁ c₂ →
      Entries.get? c₁.computed name = Entries.get? c₂.computed name)
    (hdefinition : ∀ {c₁ c₂ name definition}, node.alias? = some name → K c₁ c₂ →
      Entries.get? c₁.computed name = some definition → Sub K E Y R sub₁ sub₂ definition)
    (hsub : ∀ child ∈ node.children, Sub K E Y R sub₁ sub₂ child)
    (hquantified : ∀ name element, ∀ body ∈ node.children, Relates K E Y L
      (BindM.withRangeVariable name element fun p => Bind.predicate sub₁ body p)
      (BindM.withRangeVariable name element fun p => Bind.predicate sub₂ body p))
    (hnested : ∀ element, ∀ body ∈ node.children, Relates K E Y L
      (BindM.inChild element (Bind.filterLambda sub₁ body))
      (BindM.inChild element (Bind.filterLambda sub₂ body))) :
    Relates K E Y G (Bind.step sub₁ node) (Bind.step sub₂ node) := by
  have plain {x y : BindM Expr} (hxy : Relates K E Y R x y) : Relates K E Y G x y :=
    hxy.weaken fun _ _ => h.unguarded
  have column (source : Node) (name : String)
      (halias : node.alias? = (Node.openProperty source name).alias?)
      (hs : Sub K E Y R sub₁ sub₂ source) :
      Relates K E Y R (Bind.openProperty sub₁ source name) (Bind.openProperty sub₂ source name) := by
    refine h.openProperty name (fun hc => ?_) hs fun {c₁ c₂ definition} hc hd => ?_
    · rw [Bind.computed?_eq, Bind.computed?_eq, ← halias]
      cases ha : node.alias? with
      | none => rfl
      | some a => exact hcomputed ha hc
    · rw [Bind.computed?_eq, ← halias] at hd
      obtain ⟨a, ha, hget⟩ := Option.bind_eq_some_iff.mp hd
      exact hdefinition ha hc hget
  cases node with
  | constant l type => exact plain (h.literal l type)
  | rangeVariable v => exact plain (Relates.reads h.errors fun hc => h.resolve v hc)
  | property source name kind =>
    exact plain (h.property name (fun hc => hreads hc) (hsub _ List.mem_cons_self))
  | openProperty source name => exact plain (column source name rfl (hsub _ List.mem_cons_self))
  | openCollection source name =>
    exact plain (column source name (by cases source <;> rfl) (hsub _ List.mem_cons_self))
  | binary op left right =>
    exact plain (h.binary op (hsub left (by simp [Node.children, Node.parts]))
      (hsub right (by simp [Node.children, Node.parts])))
  | unary op operand => exact plain (h.unary op (hsub _ List.mem_cons_self))
  | convert source type => exact plain (h.convert type (hsub _ List.mem_cons_self))
  | call name args | resourceCall name args => exact h.call name hsub
  | any source v body =>
    exact h.anyItem (hsub _ List.mem_cons_self) v body fun b hb element =>
      hquantified v.name element b (by simp [Node.children, Node.parts, hb])
  | all source v body =>
    exact h.allItems (hsub _ List.mem_cons_self) v body fun element =>
      hquantified v.name element body (by simp [Node.children, Node.parts])
  | isIn probe items =>
    exact h.isIn (hsub probe (by simp [Node.children, Node.parts]))
      (hsub items (by simp [Node.children, Node.parts]))
  | count source => exact h.count (hsub _ List.mem_cons_self)
  | countWhere source predicate =>
    exact h.countFiltered (hsub _ List.mem_cons_self) predicate fun element =>
      hnested element predicate (by simp [Node.children])
  | collectionCast source type => exact h.collectionCast type (hsub _ List.mem_cons_self)
  | resourceCast source type => exact plain (h.resourceCast type (hsub _ List.mem_cons_self))
  | collectionConstant literals element => exact plain (h.collectionConstant literals element)
  | namedParameter | parameterAlias | entitySet | keyLookup | searchTerm =>
    exact Relates.fail (h.errors _)

/-- Every rule of binding runs alike in two contexts with the same columns, if the bindings of all
nodes do. -/
theorem step
    (hcomputed : ∀ {c₁ c₂}, K c₁ c₂ → c₁.computed = c₂.computed)
    (hreads : ∀ {c₁ c₂} node, K c₁ c₂ →
      Option.Rel R (c₁.flattenedRead? node) (c₂.flattenedRead? node))
    (hsub : ∀ node, Sub K E Y R sub₁ sub₂ node)
    (hquantified : ∀ name element body, Relates K E Y L
      (BindM.withRangeVariable name element fun p => Bind.predicate sub₁ body p)
      (BindM.withRangeVariable name element fun p => Bind.predicate sub₂ body p))
    (hnested : ∀ element body, Relates K E Y L
      (BindM.inChild element (Bind.filterLambda sub₁ body))
      (BindM.inChild element (Bind.filterLambda sub₂ body)))
    (node : Node) : Relates K E Y G (Bind.step sub₁ node) (Bind.step sub₂ node) :=
  h.inside node (fun hc => hreads node hc) (fun _ hc => by rw [hcomputed hc])
    (fun _ _ _ => hsub _) (fun child _ => hsub child)
    (fun name element body _ => hquantified name element body) fun element body _ => hnested element body

/-- Every rule of binding runs alike in contexts that number their parameters alike, if the bindings
of all nodes do. -/
theorem alignedStep (hK : Context.Aligned K) (hrefl : ∀ e, R e e)
    (hL : ∀ {l₁ l₂ : Lambda}, l₁.param = l₂.param → R l₁.body l₂.body → L l₁ l₂)
    (hsub : ∀ node, Sub K E Y R sub₁ sub₂ node) (node : Node) :
    Relates K E Y G (Bind.step sub₁ node) (Bind.step sub₂ node) := by
  refine h.step hK.computed (fun node hc => ?_) hsub (fun name element body => ?_)
    (fun element body => ?_) node
  · unfold Context.flattenedRead?
    rw [hK.flattened hc]
    cases node.path?.bind fun path => Entries.get? _ (Node.pathKey path) with
    | none => exact .none
    | some read => exact .some (hrefl read)
  · have predicate (p : Param) :
        Relates K E Y L (Bind.predicate sub₁ body p) (Bind.predicate sub₂ body p) :=
      (h.predicate (hsub body) p p).weaken fun l₁ l₂ hl => hL (hl.1.trans hl.2.1.symm) hl.2.2
    refine Relates.withRangeVariable name element (fun hc => by rw [hK.scope hc]) ?_ ?_
    · intro c₁ c₂ p₁ p₂ hc h₁ h₂
      rw [hK.scope hc, h₂] at h₁
      cases h₁
      exact ⟨K, hc, predicate p₁, id⟩
    · intro c₁ c₂ hc _ _
      refine ⟨K, hK.push name element hc, ?_, hK.pop name⟩
      rw [show c₁.newParam name element = c₂.newParam name element by
        simp only [Context.newParam, hK.nextId hc]]
      exact predicate _
  · refine Relates.inChild element element fun hc => ⟨K, hK.derive element hc, ?_, hK.absorb hc⟩
    refine (h.filterLambda (hsub body)).weaken fun l₁ l₂ hl => ?_
    obtain ⟨⟨a₁, a₂, ha, h₁, h₂⟩, hbody⟩ := hl
    exact hL (by rw [h₁, h₂, hK.current ha]) hbody

end Rules

/-! ## One run -/

/-- A run beside itself, in contexts of a kind. -/
def Context.Beside (Q : Context → Prop) (c₁ c₂ : Context) : Prop := c₁ = c₂ ∧ Q c₁

/-- A hereditary property of what variables stand for is one of what is bound, the predicates of
nested scopes given. -/
theorem Expr.Hereditary.rules {P : Expr → Prop} (h : Expr.Hereditary P) {Q : Context → Prop}
    {E : Error → Prop} {Y : Error → Error → Prop} (hY : ∀ e, Y e e)
    (hframe : ∀ {c c'}, Q c → c.Frame c' → Q c') (hresolve : ∀ {c} v, Q c → (c.resolve v).Gives P) :
    Rules (Context.Beside Q) E Y (fun a b => a = b ∧ P a) (fun a b => a = b ∧ P a)
      (fun l₁ l₂ => l₁ = l₂ ∧ P l₁.toExpr) where
  errors := hY
  congruence := fun {c₁ _} ⟨heq, _⟩ => heq ▸ (h.toInherited.congruence c₁).toNodeCongruence
  unguarded := id
  guard := fun {c₁ _ _ _ _ _ _} ⟨heq, _⟩ _ hsources hcall => by
    subst heq
    have hcongruence := h.toInherited.congruence c₁
    exact hcongruence.guardCall (hcongruence.filter_needsGuard hsources) hcall
  resolve := fun v ⟨heq, hQ⟩ => heq ▸ Follows.eq_of_gives (hresolve v hQ)
  constant {v t} _ _ :=
    { ok := fun {c₁ c₂ a c₁'} ⟨heq, hQ⟩ hx => by
        subst heq
        have hkeeps := BindM.Keeps.constant v t c₁
        rw [hx] at hkeeps
        refine ⟨a, c₁', hx, ⟨rfl, ?_⟩, rfl, hframe hQ hkeeps⟩
        obtain ⟨-, -, h₁⟩ | h₁ := BindM.constant_cases v t c₁
        · cases hx.symm.trans h₁
          exact h.captured _ v t
        · cases hx.symm.trans h₁
          exact h.const v t
      error := fun {c₁ c₂ e c₁'} ⟨heq, _⟩ hx _ => ⟨e, c₁', heq ▸ hx, hY e⟩ }
  any := fun _ ⟨hs, ps⟩ ⟨hl, pl⟩ => ⟨by rw [hs, hl], h.call _ _ (by simp [ps, pl])⟩
  all := fun _ ⟨hs, ps⟩ ⟨hl, pl⟩ => ⟨by rw [hs, hl], h.call _ _ (by simp [ps, pl])⟩
  countWhere := fun _ ⟨hs, ps⟩ ⟨hl, pl⟩ => by
    refine ⟨by rw [hs, hl], h.call _ _ ?_⟩
    simp only [List.forall_mem_cons]
    exact ⟨h.call _ _ (by simp [ps, pl]), by simp⟩

end TypedQuery
