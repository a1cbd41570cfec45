import TypedQuery.Proofs.FreeParameters
import TypedQuery.Proofs.NestedClauses

/-!
# Bound expressions are well scoped

What a node is bound to mentions the current record, the root record and the variables in scope, and
no other parameter: the parameters of nested scopes are bound by the lambdas that stand for these
scopes. The lambdas of a top-level clause are closed, and never fail for want of a parameter.

* `Context.Knows`: the parameters that a context knows.
* `Context.ReadsCurrent`: what stands for flattened paths mentions the current record only.
* **`Context.ReadsCurrent.bindWithin`**: nodes are bound to expressions over the parameters that the
  context knows.
* **`bound_expressions_are_well_scoped`**: the same for nodes and for the lambdas of clauses.
-/

namespace TypedQuery

open BindM (Relates)

namespace Context

/-- The parameters that a context knows: its current record, its root record and the variables in
scope. -/
def Knows (ctx : Context) (p : Param) : Prop :=
  p = ctx.current ∨ p = ctx.root ∨ ∃ name, Entries.get? ctx.scope name = some p

/-- What stands for flattened paths mentions the current record only. -/
def ReadsCurrent (ctx : Context) : Prop :=
  ∀ key read, Entries.get? ctx.flattened key = some read → read.UsesOnly (· = ctx.current)

variable {d c c' : Context}

theorem SameClause.knows (h : d.SameClause c) {p : Param} : c.Knows p ↔ d.Knows p := by
  unfold Knows
  rw [h.current, h.root, h.scope]

theorem SameClause.readsCurrent (h : d.SameClause c) (hd : d.ReadsCurrent) : c.ReadsCurrent := by
  unfold ReadsCurrent
  rw [h.flattened, h.current]
  exact hd

/-- A variable new to the scope. -/
theorem knows_push {name : String} {type : HostType} {p : Param} (h : (c.push name type).Knows p) :
    p = c.newParam name type ∨ c.Knows p := by
  rcases h with rfl | rfl | ⟨key, hp⟩
  · exact .inr (.inl rfl)
  · exact .inr (.inr (.inl rfl))
  · rw [push, Entries.get?_insert] at hp
    split_ifs at hp with hkey
    · exact .inl (Option.some.inj hp).symm
    · exact .inr (.inr (.inr ⟨key, hp⟩))

/-- The record of a nested clause takes the place of the current one. -/
theorem knows_derive {element : HostType} {p : Param} (h : (c.derive element).Knows p) :
    p = (c.derive element).current ∨ c.Knows p := by
  rcases h with rfl | rfl | hscope
  · exact .inl rfl
  · exact .inr (.inr (.inl rfl))
  · exact .inr (.inr (.inr hscope))

theorem currentExpr_usesOnly (ctx : Context) : ctx.currentExpr.UsesOnly ctx.Knows := by
  unfold currentExpr
  split
  · exact (Expr.usesOnly_param _).mpr (.inl rfl)
  · exact (Expr.usesOnly_param _).mpr (.inl rfl)

theorem resolve_usesOnly (ctx : Context) (v : RangeVariable) :
    (ctx.resolve v).Gives fun e => e.UsesOnly ctx.Knows := by
  cases h : ctx.resolve v with
  | error e => trivial
  | ok e =>
    obtain rfl | rfl | ⟨p, hp, rfl⟩ := resolve_cases h
    · exact ctx.currentExpr_usesOnly
    · exact (Expr.usesOnly_param _).mpr (.inr (.inl rfl))
    · exact (Expr.usesOnly_param _).mpr (.inr (.inr ⟨_, hp⟩))

end Context

/-! ## Nodes -/

theorem Expr.usesOnly_hereditary (P : Param → Prop) : Expr.Hereditary (Expr.UsesOnly P) := by
  refine ⟨?_, fun name v t => Expr.usesOnly_captured name v t⟩
  constructor <;> intros <;> simp_all

namespace Context

/-- Runs in the clause of a context. -/
abbrev Along (d : Context) : Context → Context → Prop := Beside d.SameClause

/-- An expression over the parameters that a context knows. -/
abbrev Scoped (d : Context) (a b : Expr) : Prop := a = b ∧ a.UsesOnly d.Knows

/-- A function over the parameters that a context knows. -/
abbrev ScopedLambda (d : Context) (l₁ l₂ : Lambda) : Prop := l₁ = l₂ ∧ l₁.toExpr.UsesOnly d.Knows

theorem scopedRules (d : Context) :
    Rules d.Along (fun _ => False) Eq d.Scoped d.Scoped d.ScopedLambda :=
  (Expr.usesOnly_hereditary d.Knows).rules (fun _ => rfl) (fun hc hframe => hc.frame hframe)
    fun {c} v hc => by
      rw [hc.resolve]
      exact d.resolve_usesOnly v

variable {d : Context}

/-- A lambda over a body is well scoped where its parameter is the only one that is not known. -/
theorem ScopedLambda.mk {l₁ l₂ : Lambda} {P : Param → Prop} (hparam : l₁.param = l₂.param)
    (hbody : l₁.body = l₂.body ∧ l₁.body.UsesOnly P) (hP : ∀ q, P q → q = l₁.param ∨ d.Knows q) :
    d.ScopedLambda l₁ l₂ := by
  obtain ⟨p, body⟩ := l₁
  obtain ⟨rfl, huses⟩ := hbody
  subst hparam
  exact ⟨rfl, (Expr.usesOnly_mkLambda _).mpr (huses.mono hP)⟩

/-- The predicate of a quantifier, if its body is well scoped in every context. -/
theorem quantified_scoped {sub : Node → BindM Expr}
    (hsub : ∀ {d : Context} node, d.ReadsCurrent →
      Relates d.Along (fun _ => False) Eq d.Scoped (sub node) (sub node))
    (hd : d.ReadsCurrent) (name : String) (element : HostType) (body : Node) :
    Relates d.Along (fun _ => False) Eq d.ScopedLambda
      (BindM.withRangeVariable name element fun p => Bind.predicate sub body p)
      (BindM.withRangeVariable name element fun p => Bind.predicate sub body p) := by
  refine Relates.withRangeVariable name element (fun hc => by rw [hc.1]) ?_ ?_
  · rintro c _ p q ⟨rfl, hc⟩ hp hq
    obtain rfl := Option.some.inj (hp.symm.trans hq)
    refine ⟨d.Along, ⟨rfl, hc⟩, ?_, id⟩
    refine (d.scopedRules.predicate (hsub body hd) p p).weaken fun l₁ l₂ ⟨h₁, h₂, hbody⟩ => ?_
    exact .mk (h₁.trans h₂.symm) hbody fun q => .inr
  · rintro c _ ⟨rfl, hc⟩ hnone -
    have hpush : (c.push name element).ReadsCurrent := hc.readsCurrent hd
    refine ⟨(c.push name element).Along, ⟨rfl, .refl _⟩, ?_, ?_⟩
    · refine ((scopedRules _).predicate (hsub body hpush) _ _).weaken fun l₁ l₂ ⟨h₁, h₂, hbody⟩ => ?_
      refine .mk (h₁.trans h₂.symm) hbody fun q hq => ?_
      rw [h₁, ← hc.knows]
      exact knows_push hq
    · rintro a _ ⟨rfl, ha⟩
      exact ⟨rfl, hc.pop hnone ha⟩

theorem derive_readsCurrent (c : Context) (element : HostType) : (c.derive element).ReadsCurrent :=
  nofun

/-- The predicate of a nested clause, if its body is well scoped in every context. -/
theorem nested_scoped {sub : Node → BindM Expr}
    (hsub : ∀ {d : Context} node, d.ReadsCurrent →
      Relates d.Along (fun _ => False) Eq d.Scoped (sub node) (sub node))
    (element : HostType) (body : Node) :
    Relates d.Along (fun _ => False) Eq d.ScopedLambda
      (BindM.inChild element (Bind.filterLambda sub body))
      (BindM.inChild element (Bind.filterLambda sub body)) := by
  refine Relates.inChild element element ?_
  rintro c _ ⟨rfl, hc⟩
  refine ⟨(c.derive element).Along, ⟨rfl, .refl _⟩, ?_, ?_⟩
  · refine ((scopedRules _).filterLambda (hsub body (c.derive_readsCurrent element))).weaken
      fun l₁ l₂ hl => ?_
    obtain ⟨⟨a, _, ⟨rfl, ha⟩, h₁, h₂⟩, hbody⟩ := hl
    refine .mk (h₁.trans h₂.symm) hbody fun q hq => ?_
    rw [h₁, ha.current, ← hc.knows]
    exact knows_derive hq
  · rintro a _ ⟨rfl, -⟩
    exact ⟨rfl, hc.frame (c.frame_absorb a)⟩

/-- What stands for a flattened path is known. -/
theorem ReadsCurrent.flattenedRead (hd : d.ReadsCurrent) {c₁ c₂ : Context} (node : Node)
    (hc : d.Along c₁ c₂) : Option.Rel d.Scoped (c₁.flattenedRead? node) (c₂.flattenedRead? node) := by
  obtain ⟨rfl, hc⟩ := hc
  rw [hc.flattenedRead]
  cases hread : d.flattenedRead? node with
  | none => exact .none
  | some read =>
    obtain ⟨path, _, hget⟩ := Option.bind_eq_some_iff.mp hread
    exact .some ⟨rfl, (hd _ _ hget).mono fun p hp => .inl hp⟩

/-- **Nodes are bound to expressions over the parameters that the context knows.** -/
theorem ReadsCurrent.bindWithin (hd : d.ReadsCurrent) (node : Node) (levels : Nat) :
    Relates d.Along (fun _ => False) Eq d.Scoped (node.bindWithin levels) (node.bindWithin levels) := by
  induction levels generalizing node d with
  | zero => exact Relates.reads (fun _ => rfl) fun _ => nofun
  | succ levels ih =>
    refine Relates.descend (fun _ => rfl) ?_ (fun hc => by rw [hc.1]) (fun hc => by rw [hc.1])
      (fun hc => ⟨by rw [hc.1], { hc.2 with }⟩) (fun hc => ⟨by rw [hc.1], { hc.2 with }⟩)
    exact d.scopedRules.step (fun hc => by rw [hc.1]) (fun node hc => hd.flattenedRead node hc)
      (fun node => ih hd node)
      (quantified_scoped (fun node hd => ih hd node) hd) (nested_scoped fun node hd => ih hd node) node

theorem ReadsCurrent.node (hd : d.ReadsCurrent) (node : Node) :
    Relates d.Along (fun _ => False) Eq d.Scoped node.bind node.bind :=
  Relates.node (fun hc => by rw [hc.1]) (hd.bindWithin node)

theorem ReadsCurrent.bind (hd : d.ReadsCurrent) {node : Node} {e : Expr}
    (h : (node.bind d).1 = .ok e) : e.UsesOnly d.Knows := by
  obtain ⟨_, _, -, ⟨-, huses⟩, -⟩ := (hd.node node).ok ⟨rfl, .refl d⟩ (Prod.ext h rfl)
  exact huses

end Context

/-! ## Clauses -/

/-- The function mentions no parameter but its own, and fails at no value for want of one. -/
def Lambda.Closed [External] (l : Lambda) : Prop :=
  l.toExpr.free = [] ∧ ∀ v name, l.invoke v ≠ .error (.evaluation (.unboundParameter name))

theorem Lambda.closed_of_usesOnly [External] {l : Lambda} (h : l.body.UsesOnly (· = l.param)) : l.Closed := by
  refine ⟨Expr.usesOnly_false_iff.mp ?_, fun v => ?_⟩
  · exact (Expr.usesOnly_mkLambda _).mpr (h.mono fun p => .inl)
  · exact (l.body.eval_bound _ (h.mono fun p hp => Env.has_cons v (.inl hp))).ne_unboundParameter

namespace Context

/-- A function of the record of a clause, over the parameters that the context knows. -/
structure OfClause (d : Context) (l : Lambda) : Prop where
  param : l.param = d.current
  body : l.body.UsesOnly d.Knows

variable {d : Context}

/-- In a top-level clause, nothing but its record is known. -/
theorem OfClause.closed [External] {l : Lambda} (h : d.OfClause l) (hroot : d.root = d.current)
    (hscope : d.scope = []) : l.Closed := by
  refine Lambda.closed_of_usesOnly (h.body.mono fun p hp => ?_)
  rw [h.param]
  rcases hp with hp | hp | ⟨name, hp⟩
  · exact hp
  · exact hp.trans hroot
  · rw [hscope] at hp
    cases hp

namespace ReadsCurrent

variable (hd : d.ReadsCurrent)
include hd

theorem filter (clause : FilterClause) {l : Lambda} (h : (clause.bind d).1 = .ok l) : d.OfClause l := by
  have hfilter := d.scopedRules.filterLambda (hd.node clause.predicate)
  obtain ⟨_, _, -, ⟨⟨c, _, ⟨-, hc⟩, hparam, -⟩, -, hbody⟩, -⟩ :=
    hfilter.ok ⟨rfl, .refl d⟩ (Prod.ext h rfl : clause.bind d = (.ok l, (clause.bind d).2))
  exact ⟨hparam.trans hc.current, hbody⟩

theorem orderKey (key : OrderKey) :
    Relates d.Along (fun _ => False) Eq (fun k₁ k₂ => k₁ = k₂ ∧ d.OfClause k₁.lambda)
      key.bind key.bind := by
  refine Relates.bind (hd.node key.expression) fun e _ ⟨heq, he⟩ => ?_
  subst heq
  split
  · exact Relates.fail rfl
  · refine Relates.bind Relates.context fun c _ hc => ?_
    obtain ⟨rfl, hc⟩ := hc
    exact Relates.pure ⟨rfl, hc.current, he⟩

theorem ordering (keys : List OrderKey) :
    Relates d.Along (fun _ => False) Eq (fun ks₁ ks₂ => ks₁ = ks₂ ∧ ∀ k ∈ ks₁, d.OfClause k.lambda)
      (OrderKey.bindAll keys) (OrderKey.bindAll keys) := by
  induction keys with
  | nil => exact Relates.pure ⟨rfl, nofun⟩
  | cons key rest ih =>
    refine Relates.bind (hd.orderKey key) fun k _ ⟨heq, hk⟩ => ?_
    refine Relates.bind ih fun ks _ ⟨heqs, hks⟩ => ?_
    exact Relates.pure ⟨by rw [heq, heqs], List.forall_mem_cons.mpr ⟨hk, hks⟩⟩

/-- Columns are bound in contexts that differ in the columns before them only. -/
theorem columns {columns : List Column} {slots : List (String × Expr)} {after : Context}
    (h : Column.bindSlots columns d = (.ok slots, after)) : ∀ s ∈ slots, s.2.UsesOnly d.Knows := by
  induction columns generalizing d slots with
  | nil =>
    cases h
    nofun
  | cons column rest ih =>
    obtain ⟨e, c₁, tail, he, htail, rfl⟩ := Column.exists_of_bindSlots_cons h
    have hc := (BindM.Keeps.frame column.expression.bind_keeps he).sameClause
    have hdefined : ({ c₁ with computed := Entries.insert c₁.computed column.name column.expression } :
        Context).ReadsCurrent := hc.readsCurrent hd
    refine List.forall_mem_cons.mpr ⟨hd.bind (by rw [he]), fun s hs => ?_⟩
    exact (ih hdefined htail s hs).mono fun p hp => hc.knows.mp hp

theorem compute (columns : List Column) {l : Lambda} (h : (Column.bindAll columns d).1 = .ok l) :
    d.OfClause l := by
  obtain ⟨slots, c₁, hslots, h⟩ := BindM.exists_of_bind_eq_ok
    (Prod.ext h rfl : Column.bindAll columns d = (.ok l, (Column.bindAll columns d).2))
  obtain ⟨_, _, hcontext, h⟩ := BindM.exists_of_bind_eq_ok h
  cases hcontext
  cases h
  have hslots := BindM.eq_of_allOrNothing_eq_ok hslots
  have hframe := Column.bindSlots_step hslots
  refine ⟨hframe.current, Expr.usesOnly_wrapper.mpr fun m e he => ?_⟩
  cases m with
  | inst =>
    cases he
    rw [hframe.sameClause.currentExpr]
    exact d.currentExpr_usesOnly
  | model =>
    cases he
    exact Expr.usesOnly_captured _ _ _
  | container => exact Expr.usesOnly_mkContainer? (hd.columns hslots) he
  | groupByContainer => cases he
  | source => cases he

end ReadsCurrent

end Context

/-- **Bound expressions are well scoped.** In a context where what stands for flattened paths mentions
the current record only, whatever a node is bound to mentions the current record, the root record and
the variables in scope, and no other parameter. The lambdas of filters, orderings and computed columns
of a top-level clause are closed, and never fail for want of a parameter. -/
theorem bound_expressions_are_well_scoped [External] {ctx : Context} (hreads : ctx.ReadsCurrent) :
    (∀ (node : Node) (e : Expr), (node.bind ctx).1 = .ok e → ∀ p ∈ e.free,
      p = ctx.current ∨ p = ctx.root ∨ ∃ name, Entries.get? ctx.scope name = some p) ∧
      (ctx.root = ctx.current → ctx.scope = [] →
        (∀ (clause : FilterClause) (l : Lambda), (clause.bind ctx).1 = .ok l → l.Closed) ∧
        (∀ (keys : List OrderKey) (bound : List BoundKey), (OrderKey.bindAll keys ctx).1 = .ok bound →
          ∀ key ∈ bound, key.lambda.Closed) ∧
        ∀ (columns : List Column) (l : Lambda), (Column.bindAll columns ctx).1 = .ok l → l.Closed) := by
  refine ⟨fun node e he => hreads.bind he, fun hroot hscope => ⟨?_, ?_, ?_⟩⟩
  · exact fun clause l hl => (hreads.filter clause hl).closed hroot hscope
  · intro keys bound hbound key hkey
    obtain ⟨_, _, -, ⟨-, hkeys⟩, -⟩ :=
      (hreads.ordering keys).ok ⟨rfl, .refl ctx⟩ (Prod.ext hbound rfl)
    exact (hkeys key hkey).closed hroot hscope
  · exact fun columns l hl => (hreads.compute columns hl).closed hroot hscope

/-- The sales with a line above their limit. -/
def overLimit : FilterClause := ⟨.binary .gt linesAboveLimit (.constant (.int32 0) none), lineVariable⟩

/-- The lines above the limit of a sale are counted in a clause of their own, which mentions the
sale. -/
theorem bound_expressions_are_well_scoped_over_lines :
    ∃ e l, (linesAboveLimit.bind lineContext).1 = .ok e ∧ (∀ p ∈ e.free, p = lineContext.current) ∧
      (overLimit.bind lineContext).1 = .ok l ∧ l.Closed := by
  have hnode : (linesAboveLimit.bind lineContext).1.toOption.isSome = true := by decide +kernel
  have hfilter : (overLimit.bind lineContext).1.toOption.isSome = true := by decide +kernel
  obtain ⟨e, he⟩ := Option.isSome_iff_exists.mp hnode
  obtain ⟨l, hl⟩ := Option.isSome_iff_exists.mp hfilter
  have he := Outcome.toOption_eq_some.mp he
  have hl := Outcome.toOption_eq_some.mp hl
  have hreads : lineContext.ReadsCurrent := nofun
  have hscoped := bound_expressions_are_well_scoped hreads
  refine ⟨e, l, he, fun p hp => ?_, hl, (hscoped.2 rfl rfl).1 _ l hl⟩
  rcases hscoped.1 _ e he p hp with hcurrent | hroot | ⟨_, hnone⟩
  · exact hcurrent
  · exact hroot
  · cases hnone

end TypedQuery
