import TypedQuery.Proofs.NestedClauses
import TypedQuery.Proofs.Relabeling

/-!
# Failures on a second run

A clause that cannot be bound leaves its context as it was, except for the counters. A second run in
that context fails for the same reason. The counters show in one place: an error that quotes an
expression quotes the names that references got, which are counted on.

* `BindM.RunsAgain`: a computation beside its second run; one lemma for each kind of clause.
* `Context.Numbered.after`: binding keeps what a second run needs.
* `BindM.FailsAgain`: a computation that fails again if it fails.
* **`failures_repeat`**: filters, orderings, computed columns and aggregations.
* **`renamed_references_show`**: an error that differs on the second run.
-/

namespace TypedQuery

open BindM (Relates Keeps)

/-! ## Clauses -/

/-- The outcomes are both results, or both errors that repeat. -/
def Outcome.Repeats {α : Type} (f : String → String) : Outcome α → Outcome α → Prop
  | .ok _, .ok _ => True
  | .error e₁, .error e₂ => e₁.Repeats f e₂
  | _, _ => False

namespace BindM

variable {α : Type} {f : String → String} {R : α → α → Prop}

/-- On the second of two runs, a computation gives a related result or repeats the error of the
first. -/
abbrev RunsAgain (f : String → String) (R : α → α → Prop) (x y : BindM α) : Prop :=
  Relates (Context.Again f) (fun _ => True) (Error.Repeats f) R x y

namespace RunsAgain

/-- A computation of one clause. -/
theorem of_clause {x : BindM α} {S : Context → Context → α → α → Prop}
    (h : ∀ {d₁ d₂}, Context.Again f d₁ d₂ →
      Relates (d₁.Within d₂) (fun _ => True) (Error.Repeats f) (S d₁ d₂) x x)
    (hR : ∀ {d₁ d₂ a b}, S d₁ d₂ a b → R a b) : RunsAgain f R x x :=
  Relates.of_context fun {c₁ c₂} hc =>
    ⟨c₁.Within c₂, Context.Within.refl hc.depth, (h hc).weaken fun _ _ => hR, fun hw => hc.within hw⟩

/-- Outcomes of expressions, of which errors quote at most the names of references. -/
theorem reads {g₁ g₂ : Context → Outcome α}
    (h : ∀ {c₁ c₂}, Context.Again f c₁ c₂ → (g₁ c₁).Repeats f (g₂ c₂)) :
    RunsAgain f (fun _ _ => True) (BindM.reads g₁) (BindM.reads g₂) where
  ok {c₁ c₂ a c₁'} hc hx := by
    obtain ⟨hg, rfl⟩ := Prod.mk.inj hx
    have hrepeats := h hc
    rw [hg] at hrepeats
    cases hg₂ : g₂ c₂ with
    | ok b => exact ⟨b, c₂, Prod.ext hg₂ rfl, trivial, hc⟩
    | error e =>
      rw [hg₂] at hrepeats
      exact hrepeats.elim
  error {c₁ c₂ e c₁'} hc hx _ := by
    obtain ⟨hg, -⟩ := Prod.mk.inj hx
    have hrepeats := h hc
    rw [hg] at hrepeats
    cases hg₂ : g₂ c₂ with
    | ok b =>
      rw [hg₂] at hrepeats
      exact hrepeats.elim
    | error e' =>
      rw [hg₂] at hrepeats
      exact ⟨e', c₂, Prod.ext hg₂ rfl, hrepeats⟩

theorem fresh (name : String) {type₁ type₂ : HostType} :
    RunsAgain f (fun _ _ => True) (BindM.fresh name type₁) (BindM.fresh name type₂) where
  ok {c₁ c₂ p c₁'} hc hx :=
    ⟨_, _, rfl, trivial, hc.frames ((Keeps.fresh name type₁).frame hx) (Keeps.fresh name type₂ c₂)⟩
  error _ hx _ := by cases hx

end RunsAgain

end BindM

open BindM (RunsAgain)

theorem Node.bind_again (f : String → String) (node : Node) :
    RunsAgain f (fun e₁ e₂ => e₁.relabel f = e₂.relabel f) node.bind node.bind :=
  .of_clause (fun hd => hd.bind node) fun he => he.relabel

theorem FilterClause.bind_again (f : String → String) (clause : FilterClause) :
    RunsAgain f (fun _ _ => True) clause.bind clause.bind :=
  .of_clause (fun hd => hd.rules.filterLambda (hd.bind clause.predicate)) fun _ => trivial

theorem OrderKey.bind_again (f : String → String) (key : OrderKey) :
    RunsAgain f (fun _ _ => True) key.bind key.bind := by
  refine Relates.bind (key.expression.bind_again f) fun e₁ e₂ he => ?_
  rw [Expr.type_eq_of_relabel he]
  split
  · exact Relates.fail (.same _)
  · exact Relates.bind Relates.context fun _ _ _ => Relates.pure trivial

theorem OrderKey.bindAll_again (f : String → String) (keys : List OrderKey) :
    RunsAgain f (fun _ _ => True) (OrderKey.bindAll keys) (OrderKey.bindAll keys) := by
  induction keys with
  | nil => exact Relates.pure trivial
  | cons key rest ih =>
    exact Relates.bind (key.bind_again f) fun _ _ _ => Relates.bind ih fun _ _ _ => Relates.pure trivial

namespace Column

theorem bindSlots_again (f : String → String) (columns : List Column) :
    RunsAgain f (fun _ _ => True) (bindSlots columns) (bindSlots columns) := by
  induction columns with
  | nil => exact Relates.pure trivial
  | cons column rest ih =>
    refine Relates.bind (column.expression.bind_again f) fun _ _ _ => ?_
    refine Relates.bind (Relates.modify fun hc => hc.define column) fun _ _ _ => ?_
    exact Relates.bind ih fun _ _ _ => Relates.pure trivial

theorem bindAll_again (f : String → String) (columns : List Column) :
    RunsAgain f (fun _ _ => True) (bindAll columns) (bindAll columns) :=
  Relates.bind (bindSlots_again f columns).allOrNothing fun _ _ _ =>
    Relates.bind Relates.context fun _ _ _ => Relates.pure trivial

end Column

/-! ### Grouping and aggregation -/

namespace GroupingProperty

mutual

theorem bindValue_again (f : String → String) (g : GroupingProperty) :
    RunsAgain f (fun _ _ => True) (bindValue g) (bindValue g) := by
  obtain ⟨name, expression, children⟩ := g
  unfold bindValue
  split
  · cases expression with
    | some e => exact (e.bind_again f).weaken fun _ _ _ => trivial
    | none => exact Relates.fail (.same _)
  · exact Relates.bind (bindSlots_again f children) fun _ _ _ => Relates.pure trivial
termination_by structural g

theorem bindSlots_again (f : String → String) (gs : List GroupingProperty) :
    RunsAgain f (fun _ _ => True) (bindSlots gs) (bindSlots gs) := by
  cases gs with
  | nil => exact Relates.pure trivial
  | cons g rest =>
    exact Relates.bind (bindValue_again f g) fun _ _ _ =>
      Relates.bind (bindSlots_again f rest) fun _ _ _ => Relates.pure trivial
termination_by structural gs

end

end GroupingProperty

theorem Transformation.bindKey_again (f : String → String) (t : Transformation) :
    RunsAgain f (fun _ _ => True) t.bindKey t.bindKey := by
  have finish (b₁ b₂ : Expr) : RunsAgain f (fun _ _ => True)
      (do return (⟨(← BindM.context).current, b₁⟩ : Lambda))
      (do return (⟨(← BindM.context).current, b₂⟩ : Lambda)) :=
    Relates.bind Relates.context fun _ _ _ => Relates.pure trivial
  unfold bindKey
  dsimp only
  split
  · exact Relates.bind (R := fun _ _ => True) (Relates.pure trivial) fun _ _ _ => finish _ _
  · refine Relates.bind (GroupingProperty.bindSlots_again f _) fun _ _ _ => ?_
    exact Relates.bind (R := fun _ _ => True) (Relates.pure trivial) fun _ _ _ => finish _ _

namespace PropertyAggregate

theorem bindInput_again (f : String → String) (a : PropertyAggregate) :
    RunsAgain f (fun e₁ e₂ => e₁.relabel f = e₂.relabel f) a.bindInput a.bindInput := by
  unfold bindInput
  split
  · exact Node.bind_again f _
  · exact Relates.fail (.same _)

variable {f : String → String} {e₁ e₂ : Expr} (h : e₁.relabel f = e₂.relabel f) (a : PropertyAggregate)
  (group₁ group₂ : Expr) (p₁ p₂ : Param)
include h

theorem total_again (op : CollectionOperator) (supported : HostType → Bool) :
    (a.total op supported group₁ p₁ e₁).Repeats f (a.total op supported group₂ p₂ e₂) := by
  unfold total
  dsimp only
  rw [summand_type, summand_type, Expr.type_eq_of_relabel h]
  by_cases hsupported : supported e₂.type.summandType = true
  · rw [if_pos hsupported, if_pos hsupported]
    trivial
  · rw [if_neg hsupported, if_neg hsupported]
    exact .same _

theorem extreme_again (op : CollectionOperator) :
    (a.extreme op group₁ p₁ e₁).Repeats f (a.extreme op group₂ p₂ e₂) := by
  unfold extreme
  rw [Expr.type_eq_of_relabel h]
  split_ifs
  · exact .same _
  · trivial

/-- The one error that quotes an expression. -/
theorem custom_again [External] (s : Schema) (label : String) :
    (custom s label group₁ p₁ e₁).Repeats f (custom s label group₂ p₂ e₂) := by
  unfold custom
  rw [Expr.type_eq_of_relabel h]
  split
  · trivial
  · exact .renamed _ _ h

theorem combine_again [External] (s : Schema) :
    (a.combine s group₁ p₁ e₁).Repeats f (a.combine s group₂ p₂ e₂) := by
  unfold combine
  split
  · trivial
  · trivial
  · exact total_again h a _ _ _ _ _ _
  · exact total_again h a _ _ _ _ _ _
  · exact extreme_again h a _ _ _ _ _
  · exact extreme_again h a _ _ _ _ _
  · exact custom_again h _ _ _ _ s _

omit h in
theorem bind_again [External] : RunsAgain f (fun _ _ => True) (a.bind group₁) (a.bind group₂) := by
  unfold bind
  split
  · exact Relates.pure trivial
  · refine Relates.bind (a.bindInput_again f) fun e₁ e₂ he => RunsAgain.reads fun hc => ?_
    rw [hc.schema]
    exact combine_again he a _ _ _ _ _

end PropertyAggregate

namespace AggregateExpr

theorem relatedType_again {f : String → String} {e₁ e₂ : Expr} (h : e₁.relabel f = e₂.relabel f) :
    relatedType e₁ = relatedType e₂ := by
  unfold relatedType
  rw [Expr.type_eq_of_relabel h]

mutual

theorem bind_again [External] (f : String → String) (a : AggregateExpr) (group₁ group₂ : Expr) :
    RunsAgain f (fun _ _ => True) (bind a group₁) (bind a group₂) := by
  cases a with
  | property p =>
    rw [bind, bind]
    exact p.bind_again group₁ group₂
  | entitySet source name children =>
    rw [bind, bind]
    refine Relates.bind (source.bind_again f) fun n₁ n₂ hn => ?_
    rw [relatedType_again hn]
    refine Relates.bind (R := Eq) (Relates.ofOutcome .same (Follows.eq_refl _)) fun element _ he => ?_
    subst he
    refine Relates.bind Relates.context fun c₁ c₂ hc => ?_
    -- the children are bound in a nested clause, over a group of their own
    refine Relates.inChild element element fun {d₁ d₂} hd => ⟨_, hd.derive element, ?_, fun _ =>
      hd.frames (d₁.frame_absorb _) (d₂.frame_absorb _)⟩
    refine Relates.bind Relates.context fun _ _ _ => ?_
    refine Relates.bind (RunsAgain.fresh _) fun g₁ g₂ _ => ?_
    exact Relates.bind (bindSlots_again f children _ _) fun _ _ _ => Relates.pure trivial
termination_by structural a

theorem bindSlots_again [External] (f : String → String) (aggregates : List AggregateExpr)
    (group₁ group₂ : Expr) :
    RunsAgain f (fun _ _ => True) (bindSlots aggregates group₁) (bindSlots aggregates group₂) := by
  cases aggregates with
  | nil =>
    rw [bindSlots, bindSlots]
    exact Relates.pure trivial
  | cons a rest =>
    rw [bindSlots, bindSlots]
    exact Relates.bind (bind_again f a group₁ group₂) fun _ _ _ =>
      Relates.bind (bindSlots_again f rest group₁ group₂) fun _ _ _ => Relates.pure trivial
termination_by structural aggregates

end

end AggregateExpr

namespace Transformation

variable [External]

theorem bindResult_again (f : String → String) (t : Transformation) :
    RunsAgain f (fun _ _ => True) t.bindResult t.bindResult :=
  Relates.bind Relates.context fun _ _ _ => Relates.bind (RunsAgain.fresh _) fun _ _ _ =>
    Relates.bind (AggregateExpr.bindSlots_again f _ _ _) fun _ _ _ => Relates.pure trivial

theorem bindAggregation_again (f : String → String) (t : Transformation) :
    RunsAgain f (fun _ _ => True) t.bindAggregation t.bindAggregation := by
  unfold bindAggregation
  split
  · exact Relates.bind (t.bindKey_again f) fun _ _ _ =>
      Relates.bind (t.bindResult_again f) fun _ _ _ => Relates.pure trivial
  · exact Relates.fail (.same _)

end Transformation

/-! ### Flattening -/

namespace Entries

variable {α β : Type}

theorem isEmpty_iff (es : Entries α) : es.isEmpty = true ↔ ∀ key, get? es key = none := by
  cases es with
  | nil => exact iff_of_true rfl fun _ => rfl
  | cons e rest =>
    obtain ⟨name, a⟩ := e
    refine iff_of_false nofun fun h => ?_
    have hname := h name
    rw [get?_cons, if_pos rfl] at hname
    cases hname

/-- Pairs with the same names and related values give related entries. -/
theorem rel_get?_ofPairs {R : α → β → Prop} {ps : List (String × α)} {qs : List (String × β)}
    (h : List.Forall₂ (fun p q => p.1 = q.1 ∧ R p.2 q.2) ps qs) (key : String) :
    Option.Rel R (get? (ofPairs ps) key) (get? (ofPairs qs) key) := by
  have run (es : Entries α) (fs : Entries β) (hes : Option.Rel R (get? es key) (get? fs key)) :
      Option.Rel R (get? (ps.foldl (fun es p => insert es p.1 p.2) es) key)
        (get? (qs.foldl (fun es p => insert es p.1 p.2) fs) key) := by
    induction h generalizing es fs with
    | nil => exact hes
    | cons hpq _ ih =>
      refine ih _ _ ?_
      rw [get?_insert, get?_insert, hpq.1]
      split_ifs
      · exact .some hpq.2
      · exact hes
  exact run [] [] .none

end Entries

namespace Flattening

/-- The keys, names and types of the slots of bound paths. -/
theorem map_named (bound : Entries Expr) :
    (named bound).map (fun s => (s.1, s.2.1, s.2.2.type)) =
      (Entries.mapValues Expr.type bound).reverse.zipIdx.map fun s =>
        (s.1.1, "Property" ++ toString s.2, s.1.2) := by
  unfold named Entries.mapValues
  rw [← List.map_reverse, List.zipIdx_map, List.map_map, List.map_map]
  rfl

theorem bindPaths_again (f : String → String) (ps : Entries Node) :
    RunsAgain f (fun b₁ b₂ => Entries.mapValues Expr.type b₁ = Entries.mapValues Expr.type b₂)
      (bindPaths ps) (bindPaths ps) := by
  induction ps with
  | nil => exact Relates.pure rfl
  | cons p rest ih =>
    refine Relates.bind (p.2.bind_again f) fun e₁ e₂ he => Relates.bind ih fun b₁ b₂ hb => ?_
    refine Relates.pure ?_
    simp only [Entries.mapValues, List.map_cons, Expr.type_eq_of_relabel he] at hb ⊢
    rw [hb]

end Flattening

namespace Context.Again

variable {f : String → String} {c₁ c₂ : Context} (h : Again f c₁ c₂)
include h

theorem mayFlatten_eq (t : Transformation) : t.mayFlatten c₁ = t.mayFlatten c₂ := by
  have hempty : c₁.flattened.isEmpty = c₂.flattened.isEmpty := by
    rw [Bool.eq_iff_iff, Entries.isEmpty_iff, Entries.isEmpty_iff]
    refine forall_congr' fun key => ?_
    have hread := h.reads key
    revert hread
    cases Entries.get? c₁.flattened key <;> cases Entries.get? c₂.flattened key <;> intro hread <;>
      cases hread <;> simp
  unfold Transformation.mayFlatten Context.isFlattened
  rw [hempty, h.flatteningSource]

/-- The contexts of flattened records. -/
theorem enterFlattening (type : HostType) {b₁ b₂ : Entries Expr}
    (hb : Entries.mapValues Expr.type b₁ = Entries.mapValues Expr.type b₂) :
    Again f
      (({ c₁ with nextId := c₁.nextId + 1 } : Context).enterFlattening
        (c₁.newParam RangeVariable.itName type)
        (Flattening.slotReads (c₁.newParam RangeVariable.itName type) (Flattening.named b₁)))
      (({ c₂ with nextId := c₂.nextId + 1 } : Context).enterFlattening
        (c₂.newParam RangeVariable.itName type)
        (Flattening.slotReads (c₂.newParam RangeVariable.itName type) (Flattening.named b₂))) :=
  { h with
    flatteningSource := congrArg some (h.type_eq .current)
    params := h.params.extend RangeVariable.itName type fun hp => by
      cases hp with
      | current => exact .inr ⟨rfl, rfl⟩
      | scope h₁ h₂ => exact .inl (.scope h₁ h₂)
      | root =>
        simp only [Context.enterFlattening, h.root_eq_iff]
        split_ifs
        · exact .inr ⟨rfl, rfl⟩
        · exact .inl .root
    reads := fun key => by
      have htypes : (Flattening.named b₁).map (fun s => (s.1, s.2.1, s.2.2.type)) =
          (Flattening.named b₂).map fun s => (s.1, s.2.1, s.2.2.type) := by
        rw [Flattening.map_named, Flattening.map_named, hb]
      have hslots := List.forall₂_map_left_iff.mp
        (List.forall₂_map_right_iff.mp (List.forall₂_eq_eq_eq.symm ▸ htypes))
      refine Entries.rel_get?_ofPairs ?_ key
      refine List.forall₂_map_left_iff.mpr (List.forall₂_map_right_iff.mpr (hslots.imp ?_))
      rintro ⟨k₁, n₁, e₁⟩ ⟨k₂, n₂, e₂⟩ hs
      obtain ⟨hkey, hs⟩ := Prod.mk.inj hs
      obtain ⟨hname, htype⟩ := Prod.mk.inj hs
      dsimp only at hkey hname htype ⊢
      rw [hname, htype]
      exact ⟨hkey, rfl, iff_of_false (by simp) (by simp), rfl⟩ }

end Context.Again

namespace Transformation

theorem flatten_again (f : String → String) (t : Transformation) (source : Expr) :
    RunsAgain f (fun _ _ => True) (t.flatten source) (t.flatten source) := by
  refine Relates.bind Relates.context fun c₁ c₂ hc => ?_
  dsimp only
  rw [hc.mayFlatten_eq]
  split
  · exact Relates.pure trivial
  · refine Relates.bind (Flattening.bindPaths_again f _) fun b₁ b₂ hb => ?_
    refine Relates.bind Relates.context fun _ _ _ => ?_
    exact {
      ok := fun hd hx => by
        cases hx
        exact ⟨_, _, rfl, trivial, hd.enterFlattening _ hb⟩
      error := fun _ hx _ => by cases hx }

theorem applyTo_again [External] (f : String → String) (t : Transformation) (source : Expr) :
    RunsAgain f (fun _ _ => True) (t.applyTo source) (t.applyTo source) := by
  refine Relates.allOrNothing (Relates.bind (t.flatten_again f source) fun _ _ _ => ?_)
  exact Relates.bind (t.bindAggregation_again f) fun _ _ _ => Relates.pure trivial

end Transformation

/-! ## Failures -/

/-- A flattened clause is numbered as the clause was. -/
theorem Context.Numbered.step {t : Transformation} {ctx after : Context} (h : ctx.Numbered)
    (hstep : t.Step ctx after) : after.Numbered := by
  unfold Transformation.Step at hstep
  split_ifs at hstep
  · obtain ⟨p, reads, -, hlt, -, hframe⟩ := hstep
    refine ⟨?_, ?_, fun name q hq => ?_⟩
    · rw [hframe.current]
      exact hlt
    · rw [hframe.root]
      unfold Context.enterFlattening
      dsimp only
      split_ifs
      · exact hlt
      · exact Nat.lt_of_lt_of_le h.root hframe.nextId
    · rw [hframe.scope] at hq
      exact Nat.lt_of_lt_of_le (h.scope name q hq) hframe.nextId
  · exact h.frame hstep

/-- **Numbered contexts stay numbered**, whatever is bound in them and whether it fails or not, so that
every context that a series of clauses reaches is one. -/
theorem Context.Numbered.after [External] {ctx : Context} (h : ctx.Numbered) :
    (∀ clause : FilterClause, (clause.bind ctx).2.Numbered) ∧
      (∀ keys : List OrderKey, (OrderKey.bindAll keys ctx).2.Numbered) ∧
      (∀ columns : List Column, (Column.bindAll columns ctx).2.Numbered) ∧
      (∀ t : Transformation, (t.bindAggregation ctx).2.Numbered) ∧
      ∀ (t : Transformation) (source : Expr), (t.applyTo source ctx).2.Numbered := by
  refine ⟨fun clause => ?_, fun keys => ?_, fun columns => ?_, fun t => ?_, fun t source => ?_⟩
  · exact h.frame (clause.bind_keeps ctx)
  · exact h.frame (OrderKey.bindAll_keeps keys ctx)
  · have hcolumns : (ctx.withColumns columns).Numbered := ⟨h.current, h.root, h.scope⟩
    exact (Column.bindAll_atomic columns).after (fun hstep => hcolumns.frame hstep) h.frame
  · exact h.frame (t.bindAggregation_keeps ctx)
  · exact (t.applyTo_atomic source).after h.step h.frame

theorem Error.Repeats.kind {f : String → String} {e e' : Error} (h : e.Repeats f e') :
    e'.kind = e.kind := by
  cases h <;> rfl

/-- With the names of references, an error is repeated as it is. -/
theorem Error.Repeats.eq {e e' : Error} (h : e.Repeats id e') : e' = e := by
  cases h with
  | same => rfl
  | @renamed x₁ x₂ method type h => rw [← x₁.text_relabel, h, x₂.text_relabel]

/-- If the computation fails in a context, it fails again in the context that it leaves, with an error
of the same kind: the same error if literals are inline, and else one that differs at most in the names
of references to literals in the expression that it quotes. -/
def BindM.FailsAgain {α : Type} (ctx : Context) (x : BindM α) : Prop :=
  ∀ e after, x ctx = (.error e, after) → ∃ e' again, x after = (.error e', again) ∧ e'.kind = e.kind ∧
    (ctx.settings.parameterizeConstants = false → e' = e) ∧ e.Repeats (fun _ => "") e'

theorem BindM.FailsAgain.of_runsAgain {α : Type} {R : α → α → Prop} {x : BindM α}
    {ctx : Context} (h : ctx.Numbered) (hx : ∀ f, RunsAgain f R x x)
    (hframe : ∀ {e after}, x ctx = (.error e, after) → ctx.Frame after) : FailsAgain ctx x := by
  intro e after he
  obtain ⟨e', again, hagain, hrepeats⟩ :=
    (hx fun _ => "").error (h.again (hframe he) fun _ _ _ => rfl) he trivial
  refine ⟨e', again, hagain, hrepeats.kind, fun hinline => ?_, hrepeats⟩
  obtain ⟨e'', again', hagain', hsame⟩ :=
    (hx id).error (h.again (hframe he) fun happart => by simp [hinline] at happart) he trivial
  obtain ⟨heq, -⟩ := Prod.mk.inj (hagain.symm.trans hagain')
  cases heq
  exact hsame.eq

/-- **Failures repeat.** In a context that numbers its parameters, a filter, an ordering, computed
columns or an aggregation that cannot be bound cannot be bound on a second run either, in the context
that the first one leaves. The errors are of one kind; they are equal if literals are inline, and else
they differ at most in the names of references to literals in an expression that they quote. -/
theorem failures_repeat [External] {ctx : Context} (h : ctx.Numbered) :
    (∀ clause : FilterClause, BindM.FailsAgain ctx clause.bind) ∧
      (∀ keys : List OrderKey, BindM.FailsAgain ctx (OrderKey.bindAll keys)) ∧
      (∀ columns : List Column, BindM.FailsAgain ctx (Column.bindAll columns)) ∧
      (∀ t : Transformation, BindM.FailsAgain ctx t.bindAggregation) ∧
      ∀ (t : Transformation) (source : Expr), BindM.FailsAgain ctx (t.applyTo source) := by
  refine ⟨fun clause => ?_, fun keys => ?_, fun columns => ?_, fun t => ?_, fun t source => ?_⟩
  · exact .of_runsAgain h clause.bind_again clause.bind_keeps.frame
  · exact .of_runsAgain h (OrderKey.bindAll_again · keys) (OrderKey.bindAll_keeps keys).frame
  · exact .of_runsAgain h (Column.bindAll_again · columns) (Column.bindAll_atomic columns).frame
  · exact .of_runsAgain h t.bindAggregation_again t.bindAggregation_keeps.frame
  · exact .of_runsAgain h (t.applyTo_again · source) (t.applyTo_atomic source).frame

/-- The limit is looked for in a nested clause over flattened records, which is undone both times. -/
theorem failures_repeat_over_lines :
    ∃ e after again, (totalsBy linesAboveLimit).applyTo lineSales lineContext = (.error e, after) ∧
      e.message = "Property 'Limit' not found on type 'FlatteningWrapper'" ∧
      (totalsBy linesAboveLimit).applyTo lineSales after = (.error e, again) := by
  have hfails : failure? ((totalsBy linesAboveLimit).applyTo lineSales lineContext).1 =
      some "Property 'Limit' not found on type 'FlatteningWrapper'" := by decide +kernel
  have hnumbered : lineContext.Numbered := Context.initial_numbered _ _ _
  rcases hrun : (totalsBy linesAboveLimit).applyTo lineSales lineContext with ⟨e | a, after⟩
  · rw [hrun] at hfails
    obtain ⟨_, again, hagain, -, hsame, -⟩ := (failures_repeat hnumbered).2.2.2.2 _ _ e after hrun
    rw [hsame rfl] at hagain
    exact ⟨e, after, again, rfl, Option.some.inj hfails, hagain⟩
  · rw [hrun] at hfails
    cases hfails

/-! ### An error that quotes a reference -/

/-- Sales with a price. -/
def priceSchema : Schema := ⟨[("Sale", ⟨"Sale", [("Price", .int .int32)], none⟩)], [], []⟩

/-- The clause over sales with a price, with literals kept apart. -/
def priceContext : Context := .initial priceSchema .parameterized (.record "Sale")

/-- A sale with a price. -/
def priceSales : Expr := .mkConst (.collection [.record "Sale" [("Price", .int32 1)]])

/-- An aggregate that the schema does not have, of the price and one. -/
def priceSpread : Transformation :=
  .aggregate [.property ⟨.custom "StdDev",
    some (.binary .add (.property saleNode "Price" .single) (.constant (.int32 1) none)), "S"⟩]

/-- **The names of references show in errors.** The second run quotes the same expression with another
name for the literal. -/
theorem renamed_references_show :
    priceContext.Numbered ∧
      failure? (priceSpread.applyTo priceSales priceContext).1 = some
        "Aggregation method 'StdDev' is not supported for expression '($it.Price + @p0)' of type 'Int32'" ∧
      failure? (priceSpread.applyTo priceSales (priceSpread.applyTo priceSales priceContext).2).1 = some
        "Aggregation method 'StdDev' is not supported for expression '($it.Price + @p1)' of type 'Int32'" :=
  ⟨Context.initial_numbered _ _ _, by decide +kernel, by decide +kernel⟩

end TypedQuery
