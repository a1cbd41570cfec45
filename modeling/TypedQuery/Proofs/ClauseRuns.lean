import TypedQuery.Proofs.Flattening
import TypedQuery.Proofs.Rows
import TypedQuery.Proofs.Runs

/-!
# What clauses and transformations give

A demand on runs that nodes meet is met by the clauses and transformations around them, if it is kept
by slots and wrappers, and by what clauses do to contexts: to define computed columns, to pass to
flattened records, and to go back to the clause before.

* `Demand.OfClauses`: such a demand.
* `Demand.OfClauses.filterTo`, `orderKeys`, `columnsTo`: clauses.
* **`Demand.OfClauses.applyTo`**: grouping and aggregation, with flattening and aggregates over related
  items.
-/

namespace TypedQuery

variable {W : Type} [Preorder W]

/-- A demand on runs that nodes meet, and that clauses keep. -/
structure Demand.OfClauses (D : Demand W) : Prop extends D.Lawful where
  node : ∀ w (node : Node), D.Holds w D.expr node.bind
  container : ∀ {w slots}, (∀ s ∈ slots, D.expr w s.2) → D.expr w (.container slots)
  wrapper : ∀ {w} {r : Wrapper Expr}, (∀ m e, r.get? m = some e → D.expr w e) → D.expr w (.wrapper r)
  slot : ∀ {w chain} name type, D.expr w chain → D.expr w (.slot chain name type)
  define : ∀ {w c} computed, D.context w c → D.context w { c with computed }
  fresh : ∀ {w c} nextId, D.context w c → D.context w { c with nextId }
  enter : ∀ {w c} p slots, D.context w c →
    D.context w (c.enterFlattening p (Flattening.slotReads p slots))
  restore : ∀ {w w₁ c after}, w ≤ w₁ → D.context w c → D.context w₁ after →
    D.context w₁ (after.restoreClause c)

namespace Demand.OfClauses

variable {D : Demand W} (h : D.OfClauses) {w : W}

/-- The slots of a chain meet the demand. -/
abbrev Slots (D : Demand W) (w : W) (slots : List (String × Expr)) : Prop := ∀ s ∈ slots, D.expr w s.2

/-- The lambda meets the demand. -/
abbrev OfLambda (D : Demand W) (w : W) (l : Lambda) : Prop := D.expr w l.toExpr

include h

theorem freshParam (name : String) (type : HostType) :
    D.Holds w (fun _ _ => True) (BindM.fresh name type) where
  run {w₁ c} _ hc := ⟨w₁, le_refl w₁, h.fresh (c.nextId + 1) hc, trivial⟩

theorem grows_slots {w₁ : W} {slots : List (String × Expr)} (hw : w ≤ w₁) (hslots : Slots D w slots) :
    Slots D w₁ slots := fun s hs => h.grows hw (hslots s hs)

/-- Expressions bound in turn, each to a slot. -/
theorem cons {x : BindM Expr} {rest : BindM (List (String × Expr))} (name : String)
    (hx : D.Holds w D.expr x) (hrest : ∀ w, D.Holds w (Slots D) rest) :
    D.Holds w (Slots D) (do let e ← x; return (name, e) :: (← rest)) := by
  refine hx.bind fun {w₁ e} _ he => (hrest w₁).bind fun {w₂ slots} hw₂ hslots => ?_
  exact .pure fun hw₃ => List.forall_mem_cons.mpr
    ⟨h.grows (hw₂.trans hw₃) he, h.grows_slots hw₃ hslots⟩

/-- A function of the current record. -/
theorem ofCurrent {e : Expr} (he : D.expr w e) :
    D.Holds w (OfLambda D) (do return ⟨(← BindM.context).current, e⟩) :=
  Holds.context.bind fun hw _ => .pure fun hw₁ => h.lambda _ (h.grows (hw.trans hw₁) he)

theorem collection {op : CollectionOperator} {s : Expr} {l : Lambda} (hs : D.expr w s)
    (hl : OfLambda D w l) : D.expr w (.mkCollection op [s, l.toExpr]) := h.call_expr _ (by simp [hs, hl])

theorem mkContainer? {slots : List (String × Expr)} {e : Expr} (hslots : Slots D w slots)
    (he : Expr.mkContainer? slots = some e) : D.expr w e := by
  cases slots with
  | nil => cases he
  | cons s rest =>
    cases he
    exact h.container hslots

/-! ### Filters, orderings and columns -/

theorem filter (clause : FilterClause) : D.Holds w (OfLambda D) clause.bind :=
  h.filterLambda fun w => h.node w clause.predicate

theorem filterTo (clause : FilterClause) {source : Expr} (hs : D.expr w source) :
    D.Holds w D.expr (clause.applyTo source) :=
  (h.filter clause).bind fun hw hl => .pure fun hw₁ =>
    h.collection (h.grows (hw.trans hw₁) hs) (h.grows hw₁ hl)

theorem orderKey (key : OrderKey) : D.Holds w (fun w k => OfLambda D w k.lambda) key.bind := by
  refine (h.node w key.expression).bind fun {w₁ e} _ he => ?_
  split
  · exact .fail (h.errors rfl)
  · exact Holds.context.bind fun hw _ => .pure fun hw₁ => h.lambda _ (h.grows (hw.trans hw₁) he)

theorem orderKeys (keys : List OrderKey) :
    D.Holds w (fun w ks => ∀ k ∈ ks, OfLambda D w k.lambda) (OrderKey.bindAll keys) := by
  induction keys generalizing w with
  | nil => exact .pure fun _ => nofun
  | cons key rest ih =>
    refine (h.orderKey key).bind fun {w₁ k} _ hk => ih.bind fun {w₂ ks} hw₂ hks => ?_
    exact .pure fun hw₃ => List.forall_mem_cons.mpr
      ⟨h.grows (hw₂.trans hw₃) hk, fun k hk => h.grows hw₃ (hks k hk)⟩

theorem columnSlots (columns : List Column) : D.Holds w (Slots D) (Column.bindSlots columns) := by
  induction columns generalizing w with
  | nil => exact .pure fun _ => nofun
  | cons column rest ih =>
    refine (h.node w column.expression).bind fun {w₁ e} _ he => ?_
    refine (Holds.modify (h.define _)).bind fun {w₂ _} hw₂ _ => ih.bind fun {w₃ slots} hw₃ hslots => ?_
    exact .pure fun hw₄ => List.forall_mem_cons.mpr
      ⟨h.grows (hw₂.trans (hw₃.trans hw₄)) he, h.grows_slots hw₄ hslots⟩

theorem columns (columns : List Column) : D.Holds w (OfLambda D) (Column.bindAll columns) := by
  refine ((h.columnSlots columns).allOrNothing h.restore).bind fun {w₁ slots} _ hslots => ?_
  refine Holds.context.bind fun {w₂ c} hw₂ _ => .pure fun {w₃} hw₃ => ?_
  refine h.lambda _ (h.wrapper fun m e he => ?_)
  cases m with
  | container => exact h.mkContainer? (h.grows_slots (hw₂.trans hw₃) hslots) he
  | inst =>
    cases he
    exact h.currentExpr c
  | model =>
    cases he
    exact (h.inherited w₃).model _
  | groupByContainer => cases he
  | source => cases he

theorem columnsTo (columns : List Column) {source : Expr} (hs : D.expr w source) :
    D.Holds w D.expr (Column.applyTo columns source) :=
  (h.columns columns).bind fun hw hl => .pure fun hw₁ =>
    h.collection (h.grows (hw.trans hw₁) hs) (h.grows hw₁ hl)

/-! ### Keys -/

theorem groupKey {slots : List (String × Expr)} (hslots : Slots D w slots) :
    D.expr w (.wrapper (.groupBy (.container slots))) := by
  refine h.wrapper fun m e he => ?_
  cases m <;> cases he
  exact h.container hslots

theorem noGroupBy : D.expr w (.wrapper .noGroupBy) := h.wrapper fun m e he => by cases m <;> cases he

mutual

theorem groupingValue {w : W} (g : GroupingProperty) : D.Holds w D.expr g.bindValue := by
  obtain ⟨name, expression, children⟩ := g
  unfold GroupingProperty.bindValue
  split
  · cases expression with
    | some e => exact h.node w e
    | none => exact .fail (h.errors rfl)
  · exact (groupingSlots children).bind fun _ hslots => .pure fun hw =>
      h.groupKey (h.grows_slots hw hslots)
termination_by structural g

theorem groupingSlots {w : W} (gs : List GroupingProperty) :
    D.Holds w (Slots D) (GroupingProperty.bindSlots gs) := by
  cases gs with
  | nil => exact .pure fun _ => nofun
  | cons g rest => exact h.cons g.name (groupingValue g) fun _ => groupingSlots rest
termination_by structural gs

end

theorem key (t : Transformation) : D.Holds w (OfLambda D) t.bindKey := by
  unfold Transformation.bindKey
  split
  · exact h.ofCurrent h.noGroupBy
  · exact (h.groupingSlots t.grouping).bind fun _ hslots => h.ofCurrent (h.groupKey hslots)

/-! ### Aggregates -/

theorem summand {e : Expr} (he : D.expr w e) : D.expr w (PropertyAggregate.summand e) := by
  unfold PropertyAggregate.summand PropertyAggregate.widenNarrow
  split_ifs
  · exact (h.inherited w).convert _ he
  · split
    all_goals first | exact (h.inherited w).convert _ he | exact he

theorem combine [External] (a : PropertyAggregate) (s : Schema) (p : Param) {group e : Expr}
    (hgroup : D.expr w group) (he : D.expr w e) : (a.combine s group p e).Meets D.error (D.expr w) := by
  have selected (op : CollectionOperator) {body : Expr} (hbody : D.expr w body) :
      D.expr w (.mkCollection op [group, .mkLambda p body]) :=
    h.call_expr _ (by simp [hgroup, h.lambda p hbody])
  have single (op : CollectionOperator) {x : Expr} (hx : D.expr w x) : D.expr w (.mkCollection op [x]) :=
    h.call_expr _ (by simpa using hx)
  have total (op : CollectionOperator) (supported : HostType → Bool) :
      (a.total op supported group p e).Meets D.error (D.expr w) := by
    have hsum := selected op (h.summand he)
    unfold PropertyAggregate.total
    dsimp only
    split_ifs
    · exact (h.inherited w).convert _ hsum
    · exact hsum
    · exact h.errors rfl
  have extreme (op : CollectionOperator) : (a.extreme op group p e).Meets D.error (D.expr w) := by
    unfold PropertyAggregate.extreme
    split_ifs
    · exact h.errors rfl
    · exact selected op he
  unfold PropertyAggregate.combine
  split
  · exact single _ hgroup
  · exact single _ (single _ (selected .select he))
  · exact total _ _
  · exact total _ _
  · exact extreme _
  · exact extreme _
  · unfold PropertyAggregate.custom
    split
    · exact selected _ he
    · exact h.errors rfl

theorem propertyAggregate [External] (a : PropertyAggregate) {group : Expr} (hgroup : D.expr w group) :
    D.Holds w D.expr (a.bind group) := by
  have input : D.Holds w D.expr a.bindInput := by
    unfold PropertyAggregate.bindInput
    split
    · exact h.node w _
    · exact .fail (h.errors rfl)
  unfold PropertyAggregate.bind
  split
  · exact .pure fun hw => h.call_expr _ (by simpa using h.grows hw hgroup)
  · exact input.bind fun hw he => .reads fun hw₁ _ =>
      h.combine a _ _ (h.grows (hw.trans hw₁) hgroup) (h.grows hw₁ he)

theorem aggregationExpr {slots : List (String × Expr)} {key : Option Expr} (hslots : Slots D w slots)
    (hkey : ∀ e, key = some e → D.expr w e) : D.expr w (TypedQuery.aggregationExpr slots key) := by
  refine h.wrapper fun m e he => ?_
  cases m with
  | container => exact h.mkContainer? hslots he
  | groupByContainer => exact hkey e he
  | source => cases he
  | inst => cases he
  | model => cases he

theorem relatedGroup {group navigation : Expr} (p inner : Param) (hgroup : D.expr w group)
    (hnavigation : D.expr w navigation) :
    D.expr w (TypedQuery.relatedGroup group p inner navigation) := by
  have hmany : D.expr w (.mkCollection .selectMany [group, .mkLambda p navigation]) :=
    h.call_expr _ (by simp [hgroup, h.lambda p hnavigation])
  exact h.call_expr _ (by simp [hmany, h.lambda inner h.noGroupBy])

mutual

theorem aggregate [External] {w : W} (a : AggregateExpr) {group : Expr} (hgroup : D.expr w group) :
    D.Holds w D.expr (a.bind group) := by
  cases a with
  | property p =>
    rw [AggregateExpr.bind]
    exact h.propertyAggregate p hgroup
  | entitySet source name children =>
    rw [AggregateExpr.bind]
    refine (h.node w source).bind fun {w₁ navigation} hw₁ hnavigation => ?_
    refine Holds.bind (P := fun _ _ => True) (h.plain fun _ => ?_) fun {w₂ element} hw₂ _ => ?_
    · unfold AggregateExpr.relatedType
      split <;> trivial
    -- aggregates over related items are bound in a clause of their own
    refine Holds.context.bind fun {w₃ c} hw₃ _ => .inChild element (h.derive element) h.absorb ?_
    refine Holds.context.bind fun {w₄ child} hw₄ _ => (h.freshParam _ _).bind fun {w₅ g} hw₅ _ => ?_
    refine (aggregateSlots children (h.param w₅ g)).bind fun {w₆ slots} hw₆ hslots => ?_
    refine .pure fun {w₇} hw₇ => ?_
    have hw := hw₂.trans (hw₃.trans (hw₄.trans (hw₅.trans (hw₆.trans hw₇))))
    have hrelated := h.relatedGroup c.current child.current (h.grows (hw₁.trans hw) hgroup)
      (h.grows hw hnavigation)
    have hrow : D.expr w₇ (TypedQuery.aggregationExpr slots none) :=
      h.aggregationExpr (h.grows_slots hw₇ hslots) nofun
    have hrows : D.expr w₇ (.mkCollection .select [_, .mkLambda g _]) :=
      h.collection (l := ⟨g, _⟩) hrelated (h.lambda g hrow)
    exact h.call_expr _ (List.forall_mem_singleton.mpr hrows)
termination_by structural a

theorem aggregateSlots [External] {w : W} (aggregates : List AggregateExpr) {group : Expr}
    (hgroup : D.expr w group) : D.Holds w (Slots D) (AggregateExpr.bindSlots aggregates group) := by
  cases aggregates with
  | nil =>
    rw [AggregateExpr.bindSlots]
    exact .pure fun _ => nofun
  | cons a rest =>
    rw [AggregateExpr.bindSlots]
    refine (aggregate a hgroup).bind fun {w₁ e} hw₁ he => ?_
    refine (aggregateSlots rest (h.grows hw₁ hgroup)).bind fun {w₂ slots} hw₂ hslots => ?_
    exact .pure fun hw₃ => List.forall_mem_cons.mpr
      ⟨h.grows (hw₂.trans hw₃) he, h.grows_slots hw₃ hslots⟩
termination_by structural aggregates

end

theorem result [External] (t : Transformation) : D.Holds w (OfLambda D) t.bindResult := by
  refine Holds.context.bind fun _ _ => (h.freshParam _ _).bind fun {w₂ g} _ _ => ?_
  refine (h.aggregateSlots t.aggregates (h.param w₂ g)).bind fun {w₃ slots} _ hslots => ?_
  refine .pure fun {w₄} hw₄ => h.lambda g (h.aggregationExpr (h.grows_slots hw₄ hslots) fun e he => ?_)
  unfold Transformation.keyContainer? at he
  split_ifs at he
  cases he
  exact (h.inherited w₄).member _ ((h.inherited w₄).member _ (h.param w₄ g))

/-- The lambdas of an aggregation meet the demand. -/
abbrev Aggregation (D : Demand W) (w : W) (bound : Transformation.BoundAggregation) : Prop :=
  OfLambda D w bound.key ∧ OfLambda D w bound.result

theorem aggregation [External] (t : Transformation) : D.Holds w (Aggregation D) t.bindAggregation := by
  unfold Transformation.bindAggregation
  split
  · refine (h.key t).bind fun {w₁ key} _ hkey => (h.result t).bind fun {w₂ result} hw₂ hresult => ?_
    exact .pure fun hw₃ => ⟨h.grows (hw₂.trans hw₃) hkey, h.grows hw₃ hresult⟩
  · exact .fail (h.errors rfl)

theorem overSource {bound : Transformation.BoundAggregation} {source : Expr}
    (hbound : Aggregation D w bound) (hs : D.expr w source) : D.expr w (bound.overSource source) :=
  h.collection (h.collection hs hbound.1) hbound.2

/-! ### Flattened records -/

theorem paths (ps : Entries Node) : D.Holds w (Slots D) (Flattening.bindPaths ps) := by
  induction ps generalizing w with
  | nil => exact .pure fun _ => nofun
  | cons p rest ih => exact h.cons p.1 (h.node w p.2) fun _ => ih

theorem chain {slots : List (String × String × Expr)} (hslots : ∀ s ∈ slots, D.expr w s.2.2) :
    D.expr w (Flattening.chain slots) := by
  unfold Flattening.chain
  cases hcontainer : Expr.mkContainer? (slots.map fun s => (s.2.1, s.2.2)) with
  | none => exact (h.inherited w).const _ _
  | some e =>
    refine h.mkContainer? (fun s hs => ?_) hcontainer
    obtain ⟨slot, hslot, rfl⟩ := List.mem_map.mp hs
    exact hslots slot hslot

theorem slotRead {p : Param} {slots : List (String × String × Expr)} {read : String × Expr}
    (hread : read ∈ Flattening.slotReads p slots) : D.expr w read.2 := by
  obtain ⟨slot, -, rfl⟩ := List.mem_map.mp (Entries.mem_ofPairs hread)
  exact h.slot _ _ ((h.inherited w).member _ (h.param w p))

/-- The projection to flattened records meets the demand, if there is one. -/
structure Projection (D : Demand W) (w : W) (f : Option Flattening) : Prop where
  source : ∀ flat ∈ f, D.expr w flat.source
  lambda : ∀ flat ∈ f, OfLambda D w flat.lambda
  reads : ∀ flat ∈ f, Slots D w flat.reads

theorem flatten (t : Transformation) {source : Expr} (hs : D.expr w source) :
    D.Holds w (Projection D) (t.flatten source) := by
  refine Holds.context.bind fun {w₁ c} hw₁ _ => ?_
  dsimp only
  split
  · exact .pure fun _ => ⟨nofun, nofun, nofun⟩
  refine (h.paths _).bind fun {w₂ bound} hw₂ hbound => ?_
  refine Holds.context.bind fun {w₃ c₃} hw₃ _ => (h.freshParam _ _).bind fun {w₄ p} hw₄ _ => ?_
  refine (Holds.modify (h.enter p _)).bind fun {w₅ _} hw₅ _ => .pure fun {w₆} hw₆ => ?_
  have hw := hw₃.trans (hw₄.trans (hw₅.trans hw₆))
  have hchain : D.expr w₆ (Flattening.chain (Flattening.named bound)) :=
    h.chain fun s hs => h.grows hw (hbound (s.1, s.2.2) (Flattening.mem_named hs))
  have hlambda : OfLambda D w₆ ⟨c₃.current, .wrapper (.flattening c₃.currentExpr
      (Flattening.chain (Flattening.named bound)))⟩ := by
    refine h.lambda _ (h.wrapper fun m e he => ?_)
    cases m <;> cases he
    · exact hchain
    · exact h.currentExpr c₃
  constructor <;> rintro _ ⟨⟩
  · exact h.collection (h.grows (hw₁.trans (hw₂.trans hw)) hs) hlambda
  · exact hlambda
  · exact fun _ => h.slotRead

/-- **An aggregation of a collection meets the demand**, if the collection does. -/
theorem applyTo [External] (t : Transformation) {source : Expr} (hs : D.expr w source) :
    D.Holds w D.expr (t.applyTo source) := by
  refine Holds.allOrNothing ?_ h.restore
  refine (h.flatten t hs).bind fun {w₁ f} hw₁ hf => ?_
  refine (h.aggregation t).bind fun {w₂ bound} hw₂ hbound => ?_
  refine .pure fun {w₃} hw₃ => h.overSource ⟨h.grows hw₃ hbound.1, h.grows hw₃ hbound.2⟩ ?_
  cases f with
  | none => exact h.grows (hw₁.trans (hw₂.trans hw₃)) hs
  | some flat => exact h.grows (hw₂.trans hw₃) (hf.source flat rfl)

end Demand.OfClauses

end TypedQuery
