import TypedQuery.Proofs.ScopeFree

/-!
# What a bound node depends on

A bound node depends on the values of the parameters that its context knows, and on nothing else: not
on the numbers of those parameters, not on the numbers that are given to the parameters of nested
scopes, and not on what else the environment holds.

* `Context.Paired`: parameters of two contexts that have the same place.
* `Context.Alike`: contexts that differ in the numbers of their parameters.
* `Context.EnvAlike`: environments in which paired parameters have the same values.
* **`Context.Alike.simulates`**: binding in alike contexts gives expressions with the same values in
  alike environments.
* `Context.Fresh.bind_of_frame`: what a node means in the context of a top-level clause, it means
  wherever it stands in the clause; `Context.Fresh.bind_sound`: its values are well-formed.
-/

namespace TypedQuery

open BindM (Simulates)

namespace BindM

variable {α β : Type}

/-- A computation with a variable in scope, if that has a name that is known in both contexts or in
neither. -/
theorem Simulates.withRangeVariable {K : Context → Context → Prop} {E : Error → Prop}
    {R : α → β → Prop} {f : Param → BindM α} {g : Param → BindM β} (name : String) (type : HostType)
    (hf : ∀ p, Keeps (f p)) (hg : ∀ p, Keeps (g p))
    (hscope : ∀ {c₁ c₂}, K c₁ c₂ →
      (Entries.get? c₁.scope name).isSome = (Entries.get? c₂.scope name).isSome)
    (hold : ∀ {c₁ c₂ p₁ p₂}, K c₁ c₂ → Entries.get? c₁.scope name = some p₁ →
      Entries.get? c₂.scope name = some p₂ → ∃ J, J c₁ c₂ ∧ Simulates J E R (f p₁) (g p₂))
    (hnew : ∀ {c₁ c₂}, K c₁ c₂ → Entries.get? c₁.scope name = none →
      Entries.get? c₂.scope name = none → ∃ J, J (c₁.push name type) (c₂.push name type) ∧
        Simulates J E R (f (c₁.newParam name type)) (g (c₂.newParam name type))) :
    Simulates K E R (BindM.withRangeVariable name type f) (BindM.withRangeVariable name type g) where
  ok {c₁ c₂ a c₁'} hc hx := by
    have hf₁ := (Keeps.withRangeVariable name type hf).frame hx
    have hf₂ := Keeps.withRangeVariable name type hg c₂
    rcases eq_none_or_some_of_isSome (hscope hc) with ⟨h₁, h₂⟩ | ⟨p₁, p₂, h₁, h₂⟩
    · obtain ⟨J, hJ, hsim⟩ := hnew hc h₁ h₂
      rw [withRangeVariable_of_none h₁] at hx
      obtain ⟨b, c₂', hy, hab, -, -⟩ := hsim.ok hJ (Prod.ext (Prod.mk.inj hx).1 rfl)
      rw [withRangeVariable_of_none h₂, hy] at hf₂ ⊢
      exact ⟨b, _, rfl, hab, hf₁, hf₂⟩
    · obtain ⟨J, hJ, hsim⟩ := hold hc h₁ h₂
      rw [withRangeVariable_of_some h₁] at hx
      obtain ⟨b, c₂', hy, hab, -, -⟩ := hsim.ok hJ hx
      rw [withRangeVariable_of_some h₂, hy] at hf₂ ⊢
      exact ⟨b, c₂', rfl, hab, hf₁, hf₂⟩
  error {c₁ c₂ e c₁'} hc hx he := by
    rcases eq_none_or_some_of_isSome (hscope hc) with ⟨h₁, h₂⟩ | ⟨p₁, p₂, h₁, h₂⟩
    · obtain ⟨J, hJ, hsim⟩ := hnew hc h₁ h₂
      rw [withRangeVariable_of_none h₁] at hx
      obtain ⟨c₂', hy⟩ := hsim.error hJ (Prod.ext (Prod.mk.inj hx).1 rfl) he
      rw [withRangeVariable_of_none h₂, hy]
      exact ⟨_, rfl⟩
    · obtain ⟨J, hJ, hsim⟩ := hold hc h₁ h₂
      rw [withRangeVariable_of_some h₁] at hx
      rw [withRangeVariable_of_some h₂]
      exact hsim.error hJ hx he

/-- A computation in the context of a nested clause. -/
theorem Simulates.inChild {K : Context → Context → Prop} {E : Error → Prop} {R : α → β → Prop}
    {x : BindM α} {y : BindM β} (element : HostType)
    (h : ∀ {c₁ c₂}, K c₁ c₂ → ∃ J, J (c₁.derive element) (c₂.derive element) ∧ Simulates J E R x y) :
    Simulates K E R (BindM.inChild element x) (BindM.inChild element y) where
  ok {c₁ c₂ a c₁'} hc hx := by
    obtain ⟨J, hJ, hsim⟩ := h hc
    have hf₁ := Keeps.inChild element x c₁
    have hf₂ := Keeps.inChild element y c₂
    rw [hx] at hf₁
    unfold BindM.inChild at hx hf₂ ⊢
    obtain ⟨b, c₂', hy, hab, -, -⟩ := hsim.ok hJ (Prod.ext (Prod.mk.inj hx).1 rfl)
    rw [hy] at hf₂ ⊢
    exact ⟨b, _, rfl, hab, hf₁, hf₂⟩
  error {c₁ c₂ e c₁'} hc hx he := by
    obtain ⟨J, hJ, hsim⟩ := h hc
    unfold BindM.inChild at hx ⊢
    obtain ⟨c₂', hy⟩ := hsim.error hJ (Prod.ext (Prod.mk.inj hx).1 rfl) he
    rw [hy]
    exact ⟨_, rfl⟩

end BindM

namespace Simulation

variable {K : Context → Context → Prop} {E : Error → Prop} {R : Expr → Expr → Prop}
  {L : Lambda → Lambda → Prop} (h : Simulation K E R L) {sub₁ sub₂ : Node → BindM Expr}
include h

theorem predicate {body : Node} (hs : Sub K E R sub₁ sub₂ body) (p₁ p₂ : Param) :
    Simulates K E (fun l₁ l₂ => l₁.param = p₁ ∧ l₂.param = p₂ ∧ R l₁.body l₂.body)
      (Bind.predicate sub₁ body p₁) (Bind.predicate sub₂ body p₂) :=
  Simulates.bind h.stable hs fun _ _ he => Simulates.bind h.stable (R := R)
    (Simulates.reads fun hK => (h.congruence hK).normalizePredicate he) fun _ _ he =>
      Simulates.pure ⟨rfl, rfl, he⟩

theorem filterLambda (htype : ∀ {e₁ e₂}, R e₁ e₂ → e₁.type = e₂.type) {body : Node}
    (hs : Sub K E R sub₁ sub₂ body) :
    Simulates K E (fun l₁ l₂ => (∃ c₁ c₂, K c₁ c₂ ∧ l₁.param = c₁.current ∧ l₂.param = c₂.current)
        ∧ R l₁.body l₂.body)
      (Bind.filterLambda sub₁ body) (Bind.filterLambda sub₂ body) := by
  refine Simulates.bind h.stable hs fun _ _ he => Simulates.bind h.stable (R := R)
    (Simulates.reads fun hK => (h.congruence hK).normalizePredicate he) fun e₁ e₂ he => ?_
  rw [htype he]
  split_ifs
  · exact Simulates.bind h.stable Simulates.context fun c₁ c₂ hc =>
      Simulates.pure ⟨⟨c₁, c₂, hc, rfl, rfl⟩, he⟩
  · exact Simulates.fail _

end Simulation

namespace Context

/-! ## Alike contexts -/

/-- The parameters have the same place in two contexts: the current record, the root record, or the
variable of a name. -/
inductive Paired (d₁ d₂ : Context) : Param → Param → Prop
  | current : Paired d₁ d₂ d₁.current d₂.current
  | root : Paired d₁ d₂ d₁.root d₂.root
  | scope {name : String} {p₁ p₂ : Param} (h₁ : Entries.get? d₁.scope name = some p₁)
    (h₂ : Entries.get? d₂.scope name = some p₂) : Paired d₁ d₂ p₁ p₂

/-- Parameters in pairs, which differ at most in their numbers; the numbers tell the pairs apart, and
are below two bounds. -/
structure Matching (P : Param → Param → Prop) (n₁ n₂ : Nat) : Prop where
  type : ∀ {p₁ p₂}, P p₁ p₂ → p₁.type = p₂.type
  name : ∀ {p₁ p₂}, P p₁ p₂ → p₁.name = p₂.name
  left_lt : ∀ {p₁ p₂}, P p₁ p₂ → p₁.id < n₁
  right_lt : ∀ {p₁ p₂}, P p₁ p₂ → p₂.id < n₂
  unique : ∀ {p₁ p₂ q₁ q₂}, P p₁ p₂ → P q₁ q₂ → p₁.id = q₁.id ∨ p₂.id = q₂.id → p₁ = q₁ ∧ p₂ = q₂

/-- The contexts are unflattened and differ only in the numbers of their parameters. -/
structure Alike (d₁ d₂ : Context) : Prop where
  schema : d₁.schema = d₂.schema
  settings : d₁.settings = d₂.settings
  computed : d₁.computed = d₂.computed
  left_flattened : d₁.flattened = []
  right_flattened : d₂.flattened = []
  left_source : d₁.flatteningSource = none
  right_source : d₂.flatteningSource = none
  scope : ∀ name, (Entries.get? d₁.scope name).isSome = (Entries.get? d₂.scope name).isSome
  params : Matching (Paired d₁ d₂) d₁.nextId d₂.nextId

/-- Paired parameters have the same values. -/
def EnvAlike (d₁ d₂ : Context) (env₁ env₂ : Env) : Prop :=
  ∀ p₁ p₂, Paired d₁ d₂ p₁ p₂ → env₁.lookup p₁.id = env₂.lookup p₂.id

theorem lookup_cons (id : Nat) (v : Value) (env : Env) (key : Nat) :
    List.lookup key ((id, v) :: env) = if key = id then some v else List.lookup key env := by
  rw [List.lookup_cons]
  by_cases h : key = id
  · simp [h]
  · simp [h, beq_eq_false_iff_ne.mpr h]

/-- A matching with a new pair. -/
theorem Matching.extend {P Q : Param → Param → Prop} {n₁ n₂ : Nat} (h : Matching P n₁ n₂)
    (name : String) (type : HostType)
    (hQ : ∀ {p₁ p₂}, Q p₁ p₂ → P p₁ p₂ ∨ p₁ = ⟨n₁, name, type⟩ ∧ p₂ = ⟨n₂, name, type⟩) :
    Matching Q (n₁ + 1) (n₂ + 1) := by
  refine ⟨fun hp => ?_, fun hp => ?_, fun hp => ?_, fun hp => ?_, fun hp hq heq => ?_⟩
  · rcases hQ hp with hp | ⟨rfl, rfl⟩
    · exact h.type hp
    · rfl
  · rcases hQ hp with hp | ⟨rfl, rfl⟩
    · exact h.name hp
    · rfl
  · rcases hQ hp with hp | ⟨rfl, rfl⟩
    · exact Nat.lt_succ_of_lt (h.left_lt hp)
    · exact Nat.lt_succ_self n₁
  · rcases hQ hp with hp | ⟨rfl, rfl⟩
    · exact Nat.lt_succ_of_lt (h.right_lt hp)
    · exact Nat.lt_succ_self n₂
  · rcases hQ hp with hp | ⟨rfl, rfl⟩ <;> rcases hQ hq with hq | ⟨rfl, rfl⟩
    · exact h.unique hp hq heq
    -- the numbers of the new pair are not used yet
    · have h₁ := h.left_lt hp
      have h₂ := h.right_lt hp
      simp only at heq
      omega
    · have h₁ := h.left_lt hq
      have h₂ := h.right_lt hq
      simp only at heq
      omega
    · exact ⟨rfl, rfl⟩

/-- A pair that gets the same value. -/
theorem EnvAlike.cons {c₁ c₂ d₁ d₂ : Context} {n₁ n₂ : Nat} {q₁ q₂ : Param} {env₁ env₂ : Env}
    (hV : EnvAlike d₁ d₂ env₁ env₂) (hc : Matching (Paired c₁ c₂) n₁ n₂) (hq : Paired c₁ c₂ q₁ q₂)
    (hold : ∀ {p₁ p₂}, Paired c₁ c₂ p₁ p₂ → Paired d₁ d₂ p₁ p₂ ∨ p₁ = q₁ ∧ p₂ = q₂) (v : Value) :
    EnvAlike c₁ c₂ ((q₁.id, v) :: env₁) ((q₂.id, v) :: env₂) := by
  intro p₁ p₂ hp
  rw [lookup_cons, lookup_cons]
  by_cases heq : p₁ = q₁ ∧ p₂ = q₂
  · rw [heq.1, heq.2, if_pos rfl, if_pos rfl]
  · rw [if_neg fun h => heq (hc.unique hp hq (.inl h)),
      if_neg fun h => heq (hc.unique hp hq (.inr h))]
    exact hV _ _ ((hold hp).resolve_right heq)

theorem Within.refl {d₁ d₂ : Context} (h : d₁.depth = d₂.depth) : d₁.Within d₂ d₁ d₂ :=
  ⟨.refl d₁, .refl d₂, h⟩

/-- Pairs depend on the records and the variables of the contexts only. -/
theorem Paired.of_eq {d₁ d₂ c₁ c₂ : Context} {p₁ p₂ : Param} (hp : Paired c₁ c₂ p₁ p₂)
    (hc₁ : c₁.current = d₁.current) (hc₂ : c₂.current = d₂.current) (hr₁ : c₁.root = d₁.root)
    (hr₂ : c₂.root = d₂.root) (hs₁ : c₁.scope = d₁.scope) (hs₂ : c₂.scope = d₂.scope) :
    Paired d₁ d₂ p₁ p₂ := by
  cases hp with
  | current =>
    rw [hc₁, hc₂]
    exact .current
  | root =>
    rw [hr₁, hr₂]
    exact .root
  | scope hp₁ hp₂ =>
    rw [hs₁] at hp₁
    rw [hs₂] at hp₂
    exact .scope hp₁ hp₂

/-- Pairs depend on the clauses only. -/
theorem SameClause.paired {d₁ d₂ c₁ c₂ : Context} (h₁ : d₁.SameClause c₁) (h₂ : d₂.SameClause c₂)
    {p₁ p₂ : Param} : Paired c₁ c₂ p₁ p₂ ↔ Paired d₁ d₂ p₁ p₂ :=
  ⟨fun hp => hp.of_eq h₁.current h₂.current h₁.root h₂.root h₁.scope h₂.scope,
    fun hp => hp.of_eq h₁.current.symm h₂.current.symm h₁.root.symm h₂.root.symm h₁.scope.symm
      h₂.scope.symm⟩

namespace Alike

variable {d₁ d₂ : Context} (h : Alike d₁ d₂)
include h

/-- Alike contexts stay alike as their counters grow. -/
theorem sameClause {c₁ c₂ : Context} (h₁ : d₁.SameClause c₁) (h₂ : d₂.SameClause c₂) :
    Alike c₁ c₂ where
  schema := by rw [h₁.schema, h₂.schema, h.schema]
  settings := by rw [h₁.settings, h₂.settings, h.settings]
  computed := by rw [h₁.computed, h₂.computed, h.computed]
  left_flattened := h₁.flattened.trans h.left_flattened
  right_flattened := h₂.flattened.trans h.right_flattened
  left_source := h₁.flatteningSource.trans h.left_source
  right_source := h₂.flatteningSource.trans h.right_source
  scope name := by rw [h₁.scope, h₂.scope, h.scope]
  params :=
    have hp {p₁ p₂ : Param} : Paired c₁ c₂ p₁ p₂ ↔ Paired d₁ d₂ p₁ p₂ := h₁.paired h₂
    { type := fun hq => h.params.type (hp.mp hq)
      name := fun hq => h.params.name (hp.mp hq)
      left_lt := fun hq => Nat.lt_of_lt_of_le (h.params.left_lt (hp.mp hq)) h₁.nextId
      right_lt := fun hq => Nat.lt_of_lt_of_le (h.params.right_lt (hp.mp hq)) h₂.nextId
      unique := fun hq hr => h.params.unique (hp.mp hq) (hp.mp hr) }

omit h in
/-- The pairs of contexts with a new variable. -/
theorem paired_push {name : String} {type : HostType} {p₁ p₂ : Param}
    (hp : Paired (d₁.push name type) (d₂.push name type) p₁ p₂) :
    Paired d₁ d₂ p₁ p₂ ∨ p₁ = d₁.newParam name type ∧ p₂ = d₂.newParam name type := by
  cases hp with
  | current => exact .inl .current
  | root => exact .inl .root
  | @scope key _ _ hp₁ hp₂ =>
    simp only [push, Entries.get?_insert] at hp₁ hp₂
    split_ifs at hp₁ hp₂
    · exact .inr ⟨(Option.some.inj hp₁).symm, (Option.some.inj hp₂).symm⟩
    · exact .inl (.scope hp₁ hp₂)

/-- Contexts with a new variable. -/
theorem push (name : String) (type : HostType) :
    Alike (d₁.push name type) (d₂.push name type) :=
  { h with
    scope := fun key => by
      simp only [Context.push, Entries.get?_insert]
      split_ifs
      · rfl
      · exact h.scope key
    params := h.params.extend name type paired_push }

omit h in
/-- The pairs of the contexts of nested clauses. -/
theorem paired_derive {element : HostType} {p₁ p₂ : Param}
    (hp : Paired (d₁.derive element) (d₂.derive element) p₁ p₂) :
    Paired d₁ d₂ p₁ p₂ ∨ p₁ = (d₁.derive element).current ∧ p₂ = (d₂.derive element).current := by
  cases hp with
  | current => exact .inr ⟨rfl, rfl⟩
  | root => exact .inl .root
  | scope hp₁ hp₂ => exact .inl (.scope hp₁ hp₂)

/-- The contexts of nested clauses. -/
theorem derive (element : HostType) : Alike (d₁.derive element) (d₂.derive element) :=
  { h with
    left_flattened := rfl
    right_flattened := rfl
    left_source := rfl
    right_source := rfl
    params := h.params.extend _ element paired_derive }

/-- Paired parameters agree as expressions. -/
theorem agree_param [External] {p₁ p₂ : Param} (hp : Paired d₁ d₂ p₁ p₂) :
    Expr.Agree d₁ d₂ (EnvAlike d₁ d₂) (.param p₁) (.param p₂) := by
  have hcurrent : p₁ = d₁.current ↔ p₂ = d₂.current :=
    ⟨fun heq => (h.params.unique hp .current (.inl (by rw [heq]))).2,
      fun heq => (h.params.unique hp .current (.inr (by rw [heq]))).1⟩
  have hleft : d₁.isFlattened = false := by simp [Context.isFlattened, h.left_source]
  have hright : d₂.isFlattened = false := by simp [Context.isFlattened, h.right_source]
  refine ⟨h.params.type hp, rfl, rfl, rfl, ?_, rfl, rfl, fun hf => ?_, fun hf => ?_, fun hV => ?_,
    .param p₁⟩
  · exact decide_eq_decide.mpr hcurrent
  · rw [hleft] at hf
    cases hf
  · rw [hright] at hf
    cases hf
  · simp only [Expr.eval, hV _ _ hp, h.params.name hp]

theorem corresponds [External] : Corresponds (fun _ => True) (EnvAlike d₁ d₂) d₁ d₂ := by
  refine ⟨h.schema, h.settings, h.computed, fun v => ?_⟩
  have hroot : d₁.root = d₁.current ↔ d₂.root = d₂.current :=
    ⟨fun heq => (h.params.unique .root .current (.inl (by rw [heq]))).2,
      fun heq => (h.params.unique .root .current (.inr (by rw [heq]))).1⟩
  unfold Context.resolve
  rw [currentExpr_of_none h.left_source, currentExpr_of_none h.right_source]
  simp only [Context.isFlattened, h.left_source, h.right_source, hroot, h.params.type .current,
    h.schema]
  split_ifs
  · exact h.agree_param .current
  · exact h.agree_param .current
  · exact h.agree_param .root
  · rcases eq_none_or_some_of_isSome (h.scope v.name) with ⟨h₁, h₂⟩ | ⟨p₁, p₂, h₁, h₂⟩
    · rw [h₁, h₂]
      exact Follows.error _
    · rw [h₁, h₂]
      exact h.agree_param (.scope h₁ h₂)

/-! ## Nodes in alike contexts -/

/-- The predicate of a quantifier, if its body agrees in all alike contexts. -/
theorem quantified [External] {sub : Node → BindM Expr} {body : Node} (hkeeps : ∀ n, BindM.Keeps (sub n))
    (hbody : ∀ {c₁ c₂}, Alike c₁ c₂ → Simulates (c₁.Within c₂) (fun _ => True)
      (Expr.Agree c₁ c₂ (EnvAlike c₁ c₂)) (sub body) (sub body))
    (name : String) (element : HostType) :
    Simulates (d₁.Within d₂) (fun _ => True) (Lambda.Agree (EnvAlike d₁ d₂))
      (BindM.withRangeVariable name element fun p => Bind.predicate sub body p)
      (BindM.withRangeVariable name element fun p => Bind.predicate sub body p) := by
  refine Simulates.withRangeVariable name element (fun p => Bind.predicate_keeps hkeeps body p)
    (fun p => Bind.predicate_keeps hkeeps body p) (fun hc => ?_) (fun {c₁ c₂ p₁ p₂} hc h₁ h₂ => ?_)
    fun {c₁ c₂} hc _ _ => ?_
  · rw [hc.left.scope, hc.right.scope, h.scope]
  · refine ⟨d₁.Within d₂, hc, ?_⟩
    refine (h.corresponds.simulation.predicate (hbody h) p₁ p₂).mono fun l₁ l₂ hl => ?_
    obtain ⟨rfl, rfl, he⟩ := hl
    rw [hc.left.scope] at h₁
    rw [hc.right.scope] at h₂
    exact ⟨he.type, fun v hV => he.eval (hV.cons h.params (.scope h₁ h₂) .inl v), he.sound⟩
  · have hpush := (h.sameClause hc.left hc.right).push name element
    refine ⟨_, Within.refl hc.depth, ?_⟩
    refine (hpush.corresponds.simulation.predicate (hbody hpush) _ _).mono fun l₁ l₂ hl => ?_
    obtain ⟨hp₁, hp₂, he⟩ := hl
    refine ⟨he.type, fun v hV => he.eval ?_, he.sound⟩
    rw [hp₁, hp₂]
    have hnew (c : Context) :
        Entries.get? (c.push name element).scope name = some (c.newParam name element) := by
      simp only [Context.push, Entries.get?_insert, if_true]
    refine EnvAlike.cons hV hpush.params (.scope (hnew c₁) (hnew c₂)) (fun hp => ?_) v
    rw [← hc.left.paired hc.right]
    exact paired_push hp

/-- The predicate of a nested clause, if its body agrees in all alike contexts. -/
theorem nested [External] {sub : Node → BindM Expr} {body : Node}
    (hbody : ∀ {c₁ c₂}, Alike c₁ c₂ → Simulates (c₁.Within c₂) (fun _ => True)
      (Expr.Agree c₁ c₂ (EnvAlike c₁ c₂)) (sub body) (sub body)) (element : HostType) :
    Simulates (d₁.Within d₂) (fun _ => True) (Lambda.Agree (EnvAlike d₁ d₂))
      (BindM.inChild element (Bind.filterLambda sub body))
      (BindM.inChild element (Bind.filterLambda sub body)) := by
  refine Simulates.inChild element fun {c₁ c₂} hc => ?_
  have hchild := (h.sameClause hc.left hc.right).derive element
  refine ⟨_, Within.refl hc.depth, ?_⟩
  refine (hchild.corresponds.simulation.filterLambda (fun he => he.type) (hbody hchild)).mono
    fun l₁ l₂ hl => ?_
  obtain ⟨⟨a₁, a₂, ha, hp₁, hp₂⟩, he⟩ := hl
  refine ⟨he.type, fun v hV => he.eval ?_, he.sound⟩
  rw [hp₁, hp₂, ha.left.current, ha.right.current]
  refine EnvAlike.cons hV hchild.params .current (fun hp => ?_) v
  rw [← hc.left.paired hc.right]
  exact paired_derive hp

omit h in
/-- **In alike contexts, nodes agree.** -/
theorem simulates [External] {d₁ d₂ : Context} (h : Alike d₁ d₂) (node : Node) (levels : Nat) :
    Simulates (d₁.Within d₂) (fun _ => True) (Expr.Agree d₁ d₂ (EnvAlike d₁ d₂))
      (node.bindWithin levels) (node.bindWithin levels) := by
  induction levels generalizing node d₁ d₂ with
  | zero => exact h.corresponds.noLevels node
  | succ levels ih =>
    have hsim := h.corresponds.simulation
    have hkeeps := Node.bindWithin_keeps levels
    refine h.corresponds.descend ?_
    cases node with
    | constant l type => exact hsim.literal l type
    | rangeVariable v => exact Simulates.reads fun hc => hsim.resolve v hc
    | property source name kind =>
      refine hsim.property name (fun hc => ?_) (ih h source)
      rw [hc.left.flattenedRead, hc.right.flattenedRead]
      unfold flattenedRead?
      rw [h.left_flattened, h.right_flattened]
      cases (Node.property source name kind).path? <;> exact ⟨rfl, rfl⟩
    | openProperty source name | openCollection source name =>
      exact hsim.openProperty name (ih h source) fun _ _ => ih h _
    | binary op left right => exact hsim.binary op (ih h left) (ih h right)
    | unary op operand => exact hsim.unary op (ih h operand)
    | convert source type => exact hsim.convert type (ih h source)
    | call name args | resourceCall name args => exact hsim.call name fun arg _ => ih h arg
    | any source v body =>
      exact hsim.anyItem (ih h source) v body fun b _ => h.quantified hkeeps (fun hc => ih hc b) _
    | all source v body =>
      exact hsim.allItems (ih h source) v body (h.quantified hkeeps (fun hc => ih hc body) _)
    | isIn probe items => exact hsim.isIn (ih h probe) (ih h items)
    | count source => exact hsim.count (ih h source)
    | countWhere source predicate =>
      exact hsim.countFiltered (ih h source) predicate (h.nested fun hc => ih hc predicate)
    | collectionCast source type => exact hsim.collectionCast type (ih h source)
    | resourceCast source type => exact hsim.resourceCast type (ih h source)
    | collectionConstant literals element => exact hsim.collectionConstant literals element
    | namedParameter | parameterAlias | entitySet | keyLookup | searchTerm => exact Simulates.fail _

end Alike

/-! ## Nodes of a top-level clause -/

namespace Fresh

variable {ctx : Context} (h : ctx.Fresh) (hid : ctx.current.id < ctx.nextId)
include h

theorem paired {p₁ p₂ : Param} (hp : Paired ctx ctx p₁ p₂) : p₁ = ctx.current ∧ p₂ = ctx.current := by
  cases hp with
  | current => exact ⟨rfl, rfl⟩
  | root => exact ⟨h.root, h.root⟩
  | scope h₁ _ =>
    rw [h.scope] at h₁
    cases h₁

include hid in
theorem alike : Alike ctx ctx where
  schema := rfl
  settings := rfl
  computed := rfl
  left_flattened := h.flattened
  right_flattened := h.flattened
  left_source := h.flatteningSource
  right_source := h.flatteningSource
  scope _ := rfl
  params :=
    { type := fun hp => by rw [(h.paired hp).1, (h.paired hp).2]
      name := fun hp => by rw [(h.paired hp).1, (h.paired hp).2]
      left_lt := fun hp => by rwa [(h.paired hp).1]
      right_lt := fun hp => by rwa [(h.paired hp).2]
      unique := fun hp hq _ =>
        ⟨(h.paired hp).1.trans (h.paired hq).1.symm, (h.paired hp).2.trans (h.paired hq).2.symm⟩ }

include hid in
theorem bind_agree [External] {node : Node} {c c' : Context} {e : Expr} (hc : ctx.Frame c)
    (he : node.bind c = (.ok e, c')) :
    ∃ e₀ c₀, node.bind ctx = (.ok e₀, c₀) ∧ Expr.Agree ctx ctx (EnvAlike ctx ctx) e e₀ := by
  have halike := h.alike hid
  have hwithin : ctx.Within ctx c ctx := ⟨hc.sameClause, .refl ctx, hc.depth⟩
  obtain ⟨e₀, c₀, he₀, hagree, -, -⟩ :=
    (Node.bind_simulates halike.settings (halike.simulates node)).ok hwithin he
  exact ⟨e₀, c₀, he₀, hagree⟩

include hid in
/-- **Wherever it stands in the clause, a node means what it means at its beginning**: it is bound
there, to an expression of the same type, with the same value whatever else the environment holds. -/
theorem bind_of_frame [External] {node : Node} {c c' : Context} {e : Expr} (hc : ctx.Frame c)
    (he : node.bind c = (.ok e, c')) :
    ∃ e₀, (node.bind ctx).1 = .ok e₀ ∧ e₀.type = e.type ∧
      ∀ v env, e.eval ((ctx.current.id, v) :: env) = e₀.eval [(ctx.current.id, v)] := by
  obtain ⟨e₀, c₀, he₀, hagree⟩ := h.bind_agree hid hc he
  refine ⟨e₀, by rw [he₀], hagree.type.symm, fun v env => hagree.eval fun _ _ hp => ?_⟩
  rw [(h.paired hp).1, (h.paired hp).2, lookup_cons, lookup_cons, if_pos rfl, if_pos rfl]

include hid in
theorem bind_sound [External] {node : Node} {e : Expr} (he : (node.bind ctx).1 = .ok e) : e.Sound := by
  obtain ⟨_, _, _, hagree⟩ := h.bind_agree hid (Frame.refl ctx) (Prod.ext he rfl)
  exact hagree.sound

end Fresh

end Context

end TypedQuery
