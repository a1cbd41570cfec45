import TypedQuery.Proofs.Simulation

/-!
# Clauses are bound as a whole

Flattening and computed columns change the clause of a context on the way: the current record, what
stands for a path, the columns. If a later part of the clause cannot be bound, all of that is undone.
What undoing does not cover, the levels and the variables in scope, is restored where it was opened.

* `Context.Around`: what no clause changes, also while it is being bound.
* `BindM.Atomic`: a computation that makes a step, or fails and leaves the context as it was.
* `BindM.atomic_allOrNothing`: computations that are undone when they fail.
* `Transformation.flatten_cases`: what flattening can do.
* `Column.bindSlots_step`, `Transformation.flatten_step`: the steps of columns and of flattening.
* **`clauses_are_atomic`**: columns and aggregations.
-/

namespace TypedQuery

/-! ## What surrounds a clause -/

/-- The contexts may differ in their clauses, but not in what surrounds them; counters may have
grown. -/
structure Context.Around (before after : Context) : Prop where
  schema : after.schema = before.schema
  settings : after.settings = before.settings
  scope : after.scope = before.scope
  depth : after.depth = before.depth
  captures : before.captures ≤ after.captures
  nextId : before.nextId ≤ after.nextId

namespace Context

theorem Frame.around {a b : Context} (h : a.Frame b) : a.Around b := { h with }

theorem Around.trans {a b c : Context} (h₁ : a.Around b) (h₂ : b.Around c) : a.Around c where
  schema := h₂.schema.trans h₁.schema
  settings := h₂.settings.trans h₁.settings
  scope := h₂.scope.trans h₁.scope
  depth := h₂.depth.trans h₁.depth
  captures := Nat.le_trans h₁.captures h₂.captures
  nextId := Nat.le_trans h₁.nextId h₂.nextId

/-- With its clause restored, the context is what it was. -/
theorem Around.restoreClause {before after : Context} (h : before.Around after) :
    before.Frame (after.restoreClause before) :=
  { h with current := rfl, root := rfl, flattened := rfl, flatteningSource := rfl, computed := rfl }

/-- The context with the definitions of columns, in turn. -/
def withColumns (ctx : Context) (columns : List Column) : Context :=
  { ctx with
    computed := columns.foldl (fun es c => Entries.insert es c.name c.expression) ctx.computed }

/-- A context that has grown has grown with its columns. -/
theorem Frame.withColumns {before after : Context} (h : before.Frame after) (columns : List Column) :
    (before.withColumns columns).Frame (after.withColumns columns) :=
  { h with computed := by simp only [Context.withColumns, h.computed] }

/-- A context that has grown is flattened to one that has grown. -/
theorem Frame.enterFlattening {before after : Context} (h : before.Frame after) (p : Param)
    (reads : Entries Expr) :
    (before.enterFlattening p reads).Frame (after.enterFlattening p reads) where
  schema := h.schema
  settings := h.settings
  current := rfl
  root := by simp only [Context.enterFlattening, h.root, h.current]
  scope := h.scope
  flattened := rfl
  flatteningSource := by simp only [Context.enterFlattening, h.current]
  computed := h.computed
  depth := h.depth
  captures := h.captures
  nextId := h.nextId

end Context

/-! ## Atomic computations -/

namespace BindM

variable {α β : Type}

/-- A computation changes nothing but the clause, whether it fails or not. -/
def KeepsAround (x : BindM α) : Prop := ∀ ctx : Context, ctx.Around (x ctx).2

namespace KeepsAround

theorem of_keeps {x : BindM α} (h : Keeps x) : KeepsAround x := fun ctx => (h ctx).around

theorem modify {f : Context → Context} (h : ∀ ctx : Context, ctx.Around (f ctx)) :
    KeepsAround (BindM.modify f) := h

theorem bind {x : BindM α} {f : α → BindM β} (hx : KeepsAround x) (hf : ∀ a, KeepsAround (f a)) :
    KeepsAround (x >>= f) := by
  intro ctx
  have h := hx ctx
  rcases hr : x ctx with ⟨e | a, after⟩
  · rw [hr] at h
    rw [bind_of_error hr]
    exact h
  · rw [hr] at h
    rw [bind_of_ok hr]
    exact h.trans (hf a after)

end KeepsAround

/-- Where the computation gives a result, the context has made a step; where it fails, the context is
as it was, except that counters may have grown. -/
def Atomic (step : Context → Context → Prop) (x : BindM α) : Prop :=
  ∀ ctx : Context,
    match x ctx with
    | (.ok _, after) => step ctx after
    | (.error _, after) => ctx.Frame after

variable {step : Context → Context → Prop}

theorem Atomic.frame {x : BindM α} (h : Atomic step x) {c c' : Context} {e : Error}
    (hx : x c = (.error e, c')) : c.Frame c' := by
  have hframe := h c
  rwa [hx] at hframe

/-- What holds after a step and where nothing has changed holds afterwards. -/
theorem Atomic.after {x : BindM α} (h : Atomic step x) {P : Context → Prop} {ctx : Context}
    (hstep : ∀ {after}, step ctx after → P after) (hframe : ∀ {after}, ctx.Frame after → P after) :
    P (x ctx).2 := by
  have hx := h ctx
  revert hx
  rcases x ctx with ⟨e | a, after⟩
  · exact hframe
  · exact hstep

theorem eq_of_allOrNothing_eq_ok {x : BindM α} {c c' : Context} {a : α}
    (h : allOrNothing x c = (.ok a, c')) : x c = (.ok a, c') := by
  unfold allOrNothing at h
  rcases hx : x c with ⟨e | b, d⟩
  · rw [hx] at h
    cases h
  · rw [hx] at h
    exact h

/-- **What is undone when it fails is atomic**, if it leaves alone what undoing does not cover. -/
theorem atomic_allOrNothing {x : BindM α} (haround : KeepsAround x)
    (hstep : ∀ {ctx a after}, x ctx = (.ok a, after) → step ctx after) :
    Atomic step (allOrNothing x) := by
  intro ctx
  have h := haround ctx
  unfold allOrNothing
  rcases hr : x ctx with ⟨e | a, after⟩
  · rw [hr] at h
    exact h.restoreClause
  · exact hstep hr

/-- A result that is computed from the context at the end. -/
theorem Atomic.reads {x : BindM α} (h : Atomic step x) (f : α → Context → β) :
    Atomic step (do return f (← x) (← context)) := by
  intro ctx
  have hx := h ctx
  rcases hr : x ctx with ⟨e | a, after⟩
  · rw [hr] at hx
    rw [bind_of_error hr]
    exact hx
  · rw [hr] at hx
    rw [bind_of_ok hr]
    exact hx

end BindM

open BindM (Keeps KeepsAround Atomic)

/-! ## Computed columns -/

namespace Column

theorem bindSlots_keepsAround (columns : List Column) : KeepsAround (bindSlots columns) := by
  induction columns with
  | nil => exact .of_keeps (Keeps.pure _)
  | cons column rest ih =>
    refine .bind (.of_keeps (Node.bind_keeps _)) fun e => ?_
    refine .bind (.modify fun ctx => { (Context.Frame.refl ctx).around with }) fun _ => ?_
    exact .bind ih fun _ => .of_keeps (Keeps.pure _)

/-- The first column is bound, and defined before the others are bound. -/
theorem exists_of_bindSlots_cons {column : Column} {rest : List Column} {ctx after : Context}
    {slots : List (String × Expr)} (h : bindSlots (column :: rest) ctx = (.ok slots, after)) :
    ∃ e c tail, column.expression.bind ctx = (.ok e, c) ∧
      bindSlots rest { c with computed := Entries.insert c.computed column.name column.expression } =
        (.ok tail, after) ∧ slots = (column.name, e) :: tail := by
  obtain ⟨e, c, he, h⟩ := BindM.exists_of_bind_eq_ok h
  obtain ⟨_, _, hdefine, h⟩ := BindM.exists_of_bind_eq_ok h
  obtain ⟨tail, _, htail, h⟩ := BindM.exists_of_bind_eq_ok h
  cases h
  cases hdefine
  exact ⟨e, c, tail, he, htail, rfl⟩

/-- Columns that are bound are defined in turn, and nothing else is changed. -/
theorem bindSlots_step {columns : List Column} {ctx after : Context} {slots : List (String × Expr)}
    (h : bindSlots columns ctx = (.ok slots, after)) : (ctx.withColumns columns).Frame after := by
  induction columns generalizing ctx slots with
  | nil =>
    cases h
    exact Context.Frame.refl _
  | cons column rest ih =>
    obtain ⟨e, c, tail, he, htail, -⟩ := exists_of_bindSlots_cons h
    have hframe := column.expression.bind_keeps ctx
    rw [he] at hframe
    exact (hframe.withColumns (column :: rest)).trans (ih htail)

theorem bindAll_atomic (columns : List Column) :
    Atomic (fun ctx after => (ctx.withColumns columns).Frame after) (bindAll columns) :=
  (BindM.atomic_allOrNothing (bindSlots_keepsAround columns) bindSlots_step).reads _

end Column

/-! ## Flattening -/

namespace Flattening

theorem bindPaths_keeps (ps : Entries Node) : Keeps (bindPaths ps) := by
  induction ps with
  | nil => exact Keeps.pure _
  | cons p rest ih =>
    exact Keeps.bind p.2.bind_keeps fun _ => Keeps.bind ih fun _ => Keeps.pure _

end Flattening

namespace Transformation

/-- Whether applying a transformation in a context flattens its records. -/
def flattensIn (t : Transformation) (ctx : Context) : Bool :=
  t.mayFlatten ctx && !(Flattening.paths t.aggregates).isEmpty

/-- The context after a transformation was applied: it is over flattened records if they had to be
flattened, and else as it was. -/
def Step (t : Transformation) (ctx after : Context) : Prop :=
  if t.flattensIn ctx then
    ∃ p reads, ctx.nextId ≤ p.id ∧ p.id < after.nextId ∧ p.type = .wrapper .flattening ∧
      (ctx.enterFlattening p reads).Frame after
  else ctx.Frame after

theorem Step.trans {t : Transformation} {a b c : Context} (h : t.Step a b) (hf : b.Frame c) :
    t.Step a c := by
  unfold Step at h ⊢
  split_ifs at h ⊢ with hflat
  · obtain ⟨p, reads, hid, hlt, htype, hframe⟩ := h
    exact ⟨p, reads, hid, Nat.lt_of_lt_of_le hlt hf.nextId, htype, hframe.trans hf⟩
  · exact h.trans hf

theorem flatten_keepsAround (t : Transformation) (source : Expr) : KeepsAround (t.flatten source) := by
  refine .bind (.of_keeps Keeps.context) fun ctx => ?_
  dsimp only
  split
  · exact .of_keeps (Keeps.pure _)
  · refine .bind (.of_keeps (Flattening.bindPaths_keeps _)) fun _ => ?_
    refine .bind (.of_keeps Keeps.context) fun _ => ?_
    refine .bind (.of_keeps (Keeps.fresh _ _)) fun p => ?_
    refine .bind (.modify fun ctx => ?_) fun _ => .of_keeps (Keeps.pure _)
    exact { (Context.Frame.refl ctx).around with }

/-- What flattening can do: nothing, or bind the paths of the aggregates and enter one flattened clause. -/
theorem flatten_cases {t : Transformation} {source : Expr} {ctx after : Context}
    {f : Option Flattening} (h : t.flatten source ctx = (.ok f, after)) :
    t.flattensIn ctx = false ∧ f = none ∧ after = ctx ∨
      t.flattensIn ctx = true ∧ ∃ bound c p,
        Flattening.bindPaths (Flattening.paths t.aggregates) ctx = (.ok bound, c) ∧
        p = c.newParam RangeVariable.itName (.wrapper .flattening) ∧
        after = ({ c with nextId := c.nextId + 1 } : Context).enterFlattening p
          (Flattening.slotReads p (Flattening.named bound)) ∧
        ∃ l, l = ⟨c.current, .wrapper
            (.flattening c.currentExpr (Flattening.chain (Flattening.named bound)))⟩ ∧
          f = some ⟨.mkCollection .select [source, l.toExpr], l,
            Flattening.slotReads p (Flattening.named bound), p⟩ := by
  unfold flatten at h
  obtain ⟨_, _, hcontext, h⟩ := BindM.exists_of_bind_eq_ok h
  cases hcontext
  unfold flattensIn
  cases hflat : !t.mayFlatten ctx || (Flattening.paths t.aggregates).isEmpty with
  | true =>
    simp only [hflat, if_true] at h
    cases h
    exact .inl ⟨by simpa [imp_iff_not_or] using hflat, rfl, rfl⟩
  | false =>
    simp only [hflat, Bool.false_eq_true, if_false] at h
    obtain ⟨bound, c, hpaths, h⟩ := BindM.exists_of_bind_eq_ok h
    obtain ⟨_, _, hcontext, h⟩ := BindM.exists_of_bind_eq_ok h
    cases hcontext
    obtain ⟨p, c', hfresh, h⟩ := BindM.exists_of_bind_eq_ok h
    cases hfresh
    cases h
    exact .inr ⟨by simpa using hflat, bound, c, _, hpaths, rfl, rfl, _, rfl, rfl⟩

/-- Flattening that succeeds has entered one flattened clause, if it had to. -/
theorem flatten_step {t : Transformation} {source : Expr} {ctx after : Context}
    {f : Option Flattening} (h : t.flatten source ctx = (.ok f, after)) : t.Step ctx after := by
  unfold Step
  obtain ⟨hflat, -, rfl⟩ | ⟨hflat, bound, c, p, hpaths, rfl, rfl, -⟩ := flatten_cases h
  · rw [if_neg (Bool.eq_false_iff.mp hflat)]
    exact Context.Frame.refl _
  · rw [if_pos hflat]
    have hframe := Flattening.bindPaths_keeps (Flattening.paths t.aggregates) ctx
    rw [hpaths] at hframe
    have hnext := Keeps.fresh RangeVariable.itName (.wrapper .flattening) c
    exact ⟨_, _, hframe.nextId, Nat.lt_succ_self _, rfl, (hframe.trans hnext).enterFlattening _ _⟩

theorem applyTo_atomic [External] (t : Transformation) (source : Expr) : Atomic t.Step
    (t.applyTo source) := by
  refine BindM.atomic_allOrNothing ?_ fun {ctx e after} h => ?_
  · exact .bind (t.flatten_keepsAround source) fun _ =>
      .bind (.of_keeps t.bindAggregation_keeps) fun _ => .of_keeps (Keeps.pure _)
  · obtain ⟨f, c₁, hflatten, h⟩ := BindM.exists_of_bind_eq_ok h
    obtain ⟨bound, c₂, hbound, h⟩ := BindM.exists_of_bind_eq_ok h
    cases h
    exact (flatten_step hflatten).trans (t.bindAggregation_keeps.frame hbound)

end Transformation

end TypedQuery
