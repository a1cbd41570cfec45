import TypedQuery.Proofs.Scoping

/-!
# Aggregations are closed

The values that an aggregate combines are bound over the record of the clause and stand under a lambda
over that record; the aggregates of a group stand under a lambda over the group. What is left free is
the root record, where an aggregate over related items names it: no lambda binds it there. Without such
a name, an aggregation of a top-level clause is closed.

* `Context.Outer`: the parameters of the clauses around that of a context.
* `AggregateExpr.bind_usesOnly`: what aggregates of a group mention.
* `AggregateExpr.IgnoresRoot`: aggregates over related items that do not look at the root record.
* **`aggregations_are_closed`**: an aggregation of a top-level clause.
* **`aggregation_leaves_root_unbound`**: an aggregate that names the root record.
-/

namespace TypedQuery

open BindM (Relates Keeps)

namespace Context

/-- The parameters that a context knows besides its current record. -/
def Outer (ctx : Context) (p : Param) : Prop :=
  p = ctx.root ∨ ∃ name, Entries.get? ctx.scope name = some p

theorem SameClause.outer {d c : Context} (h : d.SameClause c) {p : Param} : c.Outer p ↔ d.Outer p := by
  unfold Outer
  rw [h.root, h.scope]

end Context

/-! ## Aggregates of a property -/

namespace PropertyAggregate

variable {Q : Param → Prop} {e group : Expr} {p : Param}

theorem summand_usesOnly (h : e.UsesOnly Q) : (summand e).UsesOnly Q := by
  unfold summand widenNarrow
  split_ifs
  · exact h
  · split <;> exact h

theorem combine_usesOnly [External] (a : PropertyAggregate) (s : Schema) (hgroup : group.UsesOnly Q)
    (he : e.UsesOnly fun q => q = p ∨ Q q) : (a.combine s group p e).Gives (Expr.UsesOnly Q) := by
  have selected (op : CollectionOperator) {body : Expr} (hbody : body.UsesOnly fun q => q = p ∨ Q q) :
      (Expr.mkCollection op [group, .mkLambda p body]).UsesOnly Q := by
    simpa [hgroup] using hbody
  have total (op : CollectionOperator) (supported : HostType → Bool) :
      (a.total op supported group p e).Gives (Expr.UsesOnly Q) := by
    unfold PropertyAggregate.total
    dsimp only
    split_ifs
    · exact selected op (summand_usesOnly he)
    · exact selected op (summand_usesOnly he)
    · trivial
  have extreme (op : CollectionOperator) : (a.extreme op group p e).Gives (Expr.UsesOnly Q) := by
    unfold PropertyAggregate.extreme
    split_ifs
    · trivial
    · exact selected op he
  unfold combine
  split
  · exact (Expr.usesOnly_mkCollection _ _).mpr (by simpa using hgroup)
  · have hselect := selected .select he
    simp only [Outcome.Meets, Expr.usesOnly_mkCollection, List.forall_mem_singleton] at hselect ⊢
    exact hselect
  · exact total _ _
  · exact total _ _
  · exact extreme _
  · exact extreme _
  · unfold custom
    split
    · exact selected _ he
    · trivial

/-- An aggregate of a property mentions what is known besides the record of the clause, and what the
group mentions. -/
theorem bind_usesOnly [External] (a : PropertyAggregate) {c c' : Context} (hc : c.ReadsCurrent)
    (hknown : ∀ q, c.Knows q → q = c.current ∨ Q q) (hgroup : group.UsesOnly Q)
    (h : a.bind group c = (.ok e, c')) : e.UsesOnly Q := by
  unfold PropertyAggregate.bind at h
  split at h
  · cases h
    exact (Expr.usesOnly_mkCollection _ _).mpr (by simpa using hgroup)
  · obtain ⟨x, c₁, hx, h⟩ := BindM.exists_of_bind_eq_ok h
    unfold bindInput at hx
    cases hinput : a.input with
    | none =>
      rw [hinput] at hx
      cases hx
    | some node =>
      rw [hinput] at hx
      have hx : node.bind c = (.ok x, c₁) := hx
      have hframe := Keeps.frame node.bind_keeps hx
      have hbody := (hc.bind (show (node.bind c).1 = .ok x by rw [hx])).mono hknown
      rw [← hframe.current] at hbody
      have hcombine := a.combine_usesOnly c₁.schema hgroup hbody
      rw [show a.combine c₁.schema group c₁.current x = .ok e from (Prod.mk.inj h).1] at hcombine
      exact hcombine

/-- An aggregate of values that name no root record. -/
theorem bind_rootless [External] {s : Schema} {t : HostType} (a : PropertyAggregate)
    (h : ∀ node, a.input = some node → node.Rootless s t) (group : Expr) :
    BindM.Rootless s t (a.bind group) := by
  have hinput : BindM.Rootless s t a.bindInput := by
    unfold bindInput
    split
    next node hnode => exact (h node hnode).bind
    next => exact .fail _
  unfold PropertyAggregate.bind
  split
  · exact .pure _
  · exact .bind a.bindInput_keeps hinput fun _ _ => .reads fun _ _ _ => rfl

end PropertyAggregate

/-! ## Aggregates of a group -/

namespace AggregateExpr

/-- The clause in which the aggregates over related items are bound, with a parameter for their
group. -/
def childClause (c : Context) (element : HostType) : Context :=
  { c.derive element with nextId := c.nextId + 2 }

/-- The parameter for the group of related items. -/
def childGroup (c : Context) (element : HostType) : Param :=
  (c.derive element).newParam RangeVariable.itName (.grouping (.wrapper .noGroupBy) element)

theorem childClause_readsCurrent (c : Context) (element : HostType) :
    (childClause c element).ReadsCurrent := c.derive_readsCurrent element

/-- What binding an aggregate over related items does. -/
theorem entitySet_cases [External] {source : Node} {name : String} {children : List AggregateExpr}
    {group e : Expr} {c c' : Context} (h : bind (.entitySet source name children) group c = (.ok e, c')) :
    ∃ navigation c₁ element slots c₂, source.bind c = (.ok navigation, c₁) ∧
      relatedType navigation = .ok element ∧
      bindSlots children (.param (childGroup c₁ element)) (childClause c₁ element) = (.ok slots, c₂) ∧
      e = .mkCollection .toList [.mkCollection .select
        [relatedGroup group c₁.current (c₁.derive element).current navigation,
          .mkLambda (childGroup c₁ element) (aggregationExpr slots none)]] := by
  rw [bind] at h
  obtain ⟨navigation, c₁, hsource, h⟩ := BindM.exists_of_bind_eq_ok h
  obtain ⟨element, c₂, helement, h⟩ := BindM.exists_of_bind_eq_ok h
  obtain ⟨_, _, hcontext, h⟩ := BindM.exists_of_bind_eq_ok h
  cases hcontext
  obtain ⟨hrelated, rfl⟩ := Prod.mk.inj helement
  obtain ⟨_, h⟩ := BindM.exists_of_inChild_eq_ok h
  obtain ⟨_, _, hcontext, h⟩ := BindM.exists_of_bind_eq_ok h
  cases hcontext
  obtain ⟨_, _, hfresh, h⟩ := BindM.exists_of_bind_eq_ok h
  cases hfresh
  obtain ⟨slots, c₂, hslots, h⟩ := BindM.exists_of_bind_eq_ok h
  cases h
  exact ⟨navigation, c₁, element, slots, _, hsource, hrelated, hslots, rfl⟩

theorem aggregationExpr_usesOnly {Q : Param → Prop} {slots : List (String × Expr)} {key : Option Expr}
    (hslots : ∀ s ∈ slots, s.2.UsesOnly Q) (hkey : ∀ e, key = some e → e.UsesOnly Q) :
    (aggregationExpr slots key).UsesOnly Q := by
  refine Expr.usesOnly_wrapper.mpr fun m e he => ?_
  cases m with
  | container => exact Expr.usesOnly_mkContainer? hslots he
  | groupByContainer => exact hkey e he
  | source => cases he
  | inst => cases he
  | model => cases he

theorem entitySet_usesOnly {Q : Param → Prop} {navigation group : Expr} {p inner g : Param}
    {slots : List (String × Expr)} (hgroup : group.UsesOnly Q)
    (hnavigation : navigation.UsesOnly fun q => q = p ∨ Q q)
    (hslots : ∀ s ∈ slots, s.2.UsesOnly fun q => q = g ∨ Q q) :
    (Expr.mkCollection .toList [.mkCollection .select
      [relatedGroup group p inner navigation, .mkLambda g (aggregationExpr slots none)]]).UsesOnly Q := by
  have hkey : (Expr.wrapper Wrapper.noGroupBy).UsesOnly fun q => q = inner ∨ Q q :=
    Expr.usesOnly_wrapper.mpr fun m e he => by cases m <;> cases he
  have hresult : (aggregationExpr slots none).UsesOnly _ := aggregationExpr_usesOnly hslots nofun
  unfold relatedGroup
  simpa using ⟨⟨⟨hgroup, hnavigation⟩, hkey⟩, hresult⟩

mutual

/-- **An aggregate of a group mentions the parameters of the clauses around, and what the group
mentions**: the record of the clause is bound by the lambda over the records of the group. -/
theorem bind_usesOnly [External] (a : AggregateExpr) {P : Param → Prop} {group e : Expr} {c c' : Context}
    (hc : c.ReadsCurrent) (hgroup : group.UsesOnly P) (h : bind a group c = (.ok e, c')) :
    e.UsesOnly fun q => c.Outer q ∨ P q := by
  have hgroup' := hgroup.mono fun q hq => Or.inr (a := c.Outer q) hq
  have hknown (q : Param) (hq : c.Knows q) : q = c.current ∨ c.Outer q ∨ P q := hq.imp_right .inl
  cases a with
  | property p =>
    rw [bind] at h
    exact p.bind_usesOnly hc hknown hgroup' h
  | entitySet source name children =>
    obtain ⟨navigation, c₁, element, slots, c₂, hsource, -, hslots, rfl⟩ := entitySet_cases h
    have hframe := Keeps.frame source.bind_keeps hsource
    have hnavigation := (hc.bind (show (source.bind c).1 = .ok _ by rw [hsource])).mono hknown
    rw [← hframe.current] at hnavigation
    have hchildren := bindSlots_usesOnly children (P := (· = childGroup c₁ element))
      (childClause_readsCurrent c₁ element) ((Expr.usesOnly_param _).mpr rfl) hslots
    refine entitySet_usesOnly hgroup' hnavigation fun s hs => (hchildren s hs).mono fun q hq => ?_
    rcases hq with houter | hq
    · exact .inr (.inl (hframe.sameClause.outer.mp houter))
    · exact .inl hq
termination_by structural a

theorem bindSlots_usesOnly [External] (aggregates : List AggregateExpr) {P : Param → Prop} {group : Expr}
    {slots : List (String × Expr)} {c c' : Context} (hc : c.ReadsCurrent) (hgroup : group.UsesOnly P)
    (h : bindSlots aggregates group c = (.ok slots, c')) :
    ∀ s ∈ slots, s.2.UsesOnly fun q => c.Outer q ∨ P q := by
  cases aggregates with
  | nil =>
    rw [bindSlots] at h
    cases h
    nofun
  | cons a rest =>
    rw [bindSlots] at h
    obtain ⟨e, c₁, he, h⟩ := BindM.exists_of_bind_eq_ok h
    obtain ⟨tail, c₂, htail, h⟩ := BindM.exists_of_bind_eq_ok h
    cases h
    have hframe := (Keeps.frame (bind_keeps a group) he).sameClause
    refine List.forall_mem_cons.mpr ⟨bind_usesOnly a hc hgroup he, fun s hs => ?_⟩
    have htail := bindSlots_usesOnly rest (hframe.readsCurrent hc) hgroup htail s hs
    exact htail.mono fun q hq => hq.imp_left hframe.outer.mp
termination_by structural aggregates

end

/-! ## Aggregates that ignore the root record -/

/-- In the clause of a context, the aggregates over related items are bound to the same whatever the
root record is. -/
def IgnoresRoot [External] (k : Context) : AggregateExpr → Prop
  | .property _ => True
  | .entitySet source _ children => ∀ c navigation c₁ element group, k.Frame c →
    source.bind c = (.ok navigation, c₁) → relatedType navigation = .ok element →
      BindM.IgnoresRoot (c₁.derive element) (bindSlots children group)

end AggregateExpr

/-! ## Top-level clauses -/

/-- A top-level clause: its record is the root record, and no variable is in scope. -/
structure Context.TopLevel (ctx : Context) : Prop where
  root : ctx.root = ctx.current
  scope : ctx.scope = []
  reads : ctx.ReadsCurrent

theorem Context.Fresh.topLevel {ctx : Context} (h : ctx.Fresh) : ctx.TopLevel where
  root := h.root
  scope := h.scope
  reads := by
    unfold Context.ReadsCurrent
    rw [h.flattened]
    nofun

namespace Context.TopLevel

variable {k c c' : Context} (hk : k.TopLevel)
include hk

theorem frame (h : k.Frame c) : c.TopLevel where
  root := by rw [h.root, h.current, hk.root]
  scope := by rw [h.scope, hk.scope]
  reads := h.sameClause.readsCurrent hk.reads

theorem not_scope (name : String) (p : Param) : Entries.get? k.scope name ≠ some p := by
  rw [hk.scope]
  nofun

theorem eq_current {p : Param} (h : k.Knows p) : p = k.current := by
  rcases h with h | h | ⟨name, h⟩
  · exact h
  · exact h.trans hk.root
  · exact absurd h (hk.not_scope name p)

/-- Aggregates over related items that ignore the root record do not mention it: with another root
record in its place, they would mention that one. -/
theorem children_usesOnly [External] {children : List AggregateExpr} {element : HostType}
    {slots : List (String × Expr)} (hroot : BindM.IgnoresRoot (k.derive element)
      (AggregateExpr.bindSlots children (.param (AggregateExpr.childGroup k element))))
    (h : AggregateExpr.bindSlots children (.param (AggregateExpr.childGroup k element))
      (AggregateExpr.childClause k element) = (.ok slots, c')) :
    ∀ s ∈ slots, s.2.UsesOnly (· = AggregateExpr.childGroup k element) := by
  -- another root record than that of the clause
  let other : Param := ⟨k.root.id + 1, k.root.name, k.root.type⟩
  have hclause : (k.derive element).SameClause (AggregateExpr.childClause k element) :=
    { Context.SameClause.refl (k.derive element) with nextId := Nat.le_succ _ }
  have hother : (AggregateExpr.bindSlots children (.param (AggregateExpr.childGroup k element))
      ((AggregateExpr.childClause k element).withRoot other)).1 = .ok slots := by
    rw [hroot _ other hclause, h]
  have hgroup : (Expr.param (AggregateExpr.childGroup k element)).UsesOnly
      (· = AggregateExpr.childGroup k element) := (Expr.usesOnly_param _).mpr rfl
  have huses := AggregateExpr.bindSlots_usesOnly children
    (AggregateExpr.childClause_readsCurrent k element) hgroup h
  have husesOther := AggregateExpr.bindSlots_usesOnly children
    (c := (AggregateExpr.childClause k element).withRoot other)
    (AggregateExpr.childClause_readsCurrent k element) hgroup (Prod.ext hother rfl)
  intro s hs q hq
  rcases huses s hs q hq with (rfl | ⟨name, hname⟩) | hq₁
  · rcases husesOther s hs _ hq with (heq | ⟨name, hname⟩) | hq₂
    · exact absurd (congrArg Param.id heq) (Nat.ne_of_lt (Nat.lt_succ_self _))
    · exact absurd hname (hk.not_scope name _)
    · exact hq₂
  · exact absurd hname (hk.not_scope name q)
  · exact hq₁

/-- An aggregate mentions what the group mentions. -/
theorem aggregate_usesOnly [External] {a : AggregateExpr} (ha : a.IgnoresRoot k) {P : Param → Prop}
    {group e : Expr}
    (hc : k.Frame c) (hgroup : group.UsesOnly P) (h : a.bind group c = (.ok e, c')) : e.UsesOnly P := by
  have htop := hk.frame hc
  have hknown (q : Param) (hq : c.Knows q) : q = c.current ∨ P q := .inl (htop.eq_current hq)
  cases a with
  | property p =>
    rw [AggregateExpr.bind] at h
    exact p.bind_usesOnly htop.reads hknown hgroup h
  | entitySet source name children =>
    obtain ⟨navigation, c₁, element, slots, c₂, hsource, helement, hslots, rfl⟩ :=
      AggregateExpr.entitySet_cases h
    have hframe := BindM.Keeps.frame source.bind_keeps hsource
    have hnavigation := (htop.reads.bind (show (source.bind c).1 = .ok _ by rw [hsource])).mono hknown
    rw [← hframe.current] at hnavigation
    have hroot := ha c navigation c₁ element (.param (AggregateExpr.childGroup c₁ element))
      hc hsource helement
    have hchildren := (htop.frame hframe).children_usesOnly hroot hslots
    exact AggregateExpr.entitySet_usesOnly hgroup hnavigation fun s hs =>
      (hchildren s hs).mono fun q => .inl

theorem aggregates_usesOnly [External] {aggregates : List AggregateExpr}
    (ha : ∀ a ∈ aggregates, a.IgnoresRoot k)
    {P : Param → Prop} {group : Expr} {slots : List (String × Expr)} (hc : k.Frame c)
    (hgroup : group.UsesOnly P) (h : AggregateExpr.bindSlots aggregates group c = (.ok slots, c')) :
    ∀ s ∈ slots, s.2.UsesOnly P := by
  induction aggregates generalizing c slots with
  | nil =>
    rw [AggregateExpr.bindSlots] at h
    cases h
    nofun
  | cons a rest ih =>
    rw [AggregateExpr.bindSlots] at h
    obtain ⟨e, c₁, he, h⟩ := BindM.exists_of_bind_eq_ok h
    obtain ⟨tail, c₂, htail, h⟩ := BindM.exists_of_bind_eq_ok h
    cases h
    obtain ⟨ha, hrest⟩ := List.forall_mem_cons.mp ha
    have hframe := BindM.Keeps.frame (AggregateExpr.bind_keeps a group) he
    exact List.forall_mem_cons.mpr
      ⟨hk.aggregate_usesOnly ha hc hgroup he, ih hrest (hc.trans hframe) htail⟩

end Context.TopLevel

/-! ## Keys -/

namespace GroupingProperty

mutual

theorem bindValue_scoped {d : Context} (hd : d.ReadsCurrent) (g : GroupingProperty) :
    Relates d.Along (fun _ => False) Eq d.Scoped (bindValue g) (bindValue g) := by
  obtain ⟨name, expression, children⟩ := g
  unfold bindValue
  split
  · cases expression with
    | some e => exact hd.node e
    | none => exact Relates.fail rfl
  · refine Relates.bind (bindSlots_scoped hd children) fun s₁ s₂ ⟨heq, hs⟩ => ?_
    refine Relates.pure ⟨by rw [heq], Expr.usesOnly_wrapper.mpr fun m e he => ?_⟩
    cases m <;> cases he
    exact (Expr.usesOnly_container _).mpr hs
termination_by structural g

theorem bindSlots_scoped {d : Context} (hd : d.ReadsCurrent) (gs : List GroupingProperty) :
    Relates d.Along (fun _ => False) Eq (fun s₁ s₂ => s₁ = s₂ ∧ ∀ s ∈ s₁, s.2.UsesOnly d.Knows)
      (bindSlots gs) (bindSlots gs) := by
  cases gs with
  | nil => exact Relates.pure ⟨rfl, nofun⟩
  | cons g rest =>
    refine Relates.bind (bindValue_scoped hd g) fun e _ ⟨heq, he⟩ => ?_
    refine Relates.bind (bindSlots_scoped hd rest) fun s₁ s₂ ⟨heqs, hs⟩ => ?_
    exact Relates.pure ⟨by rw [heq, heqs], List.forall_mem_cons.mpr ⟨he, hs⟩⟩
termination_by structural gs

end

end GroupingProperty

namespace Transformation

/-- The key of a record is a function of the record. -/
theorem bindKey_ofClause {d : Context} (hd : d.ReadsCurrent) (t : Transformation) :
    Relates d.Along (fun _ => False) Eq (fun l₁ l₂ => l₁ = l₂ ∧ d.OfClause l₁) t.bindKey t.bindKey := by
  have lambda {e : Expr} (he : e.UsesOnly d.Knows) :
      Relates d.Along (fun _ => False) Eq (fun l₁ l₂ => l₁ = l₂ ∧ d.OfClause l₁)
        (do return ⟨(← BindM.context).current, e⟩) (do return ⟨(← BindM.context).current, e⟩) := by
    refine Relates.bind Relates.context fun c _ hc => ?_
    obtain ⟨rfl, hc⟩ := hc
    exact Relates.pure ⟨rfl, hc.current, he⟩
  unfold bindKey
  split
  · exact lambda (Expr.usesOnly_wrapper.mpr fun m e he => by cases m <;> cases he)
  · refine Relates.bind (GroupingProperty.bindSlots_scoped hd _) fun s₁ s₂ ⟨heq, hs⟩ => ?_
    subst heq
    refine lambda (Expr.usesOnly_wrapper.mpr fun m e he => ?_)
    cases m <;> cases he
    exact (Expr.usesOnly_container _).mpr hs

end Transformation

/-- What an aggregation that is bound was bound to. -/
theorem Transformation.applyTo_cases [External] {t : Transformation} {source e : Expr} {c c' : Context}
    (h : t.applyTo source c = (.ok e, c')) :
    ∃ f d bound, t.flatten source c = (.ok f, d) ∧ t.bindAggregation d = (.ok bound, c') ∧
      e = bound.overSource ((f.map Flattening.source).getD source) := by
  obtain ⟨f, d, hflatten, h⟩ := BindM.exists_of_bind_eq_ok (BindM.eq_of_allOrNothing_eq_ok h)
  obtain ⟨bound, _, hbound, h⟩ := BindM.exists_of_bind_eq_ok h
  cases h
  exact ⟨f, d, bound, hflatten, hbound, by cases f <;> rfl⟩

/-! ## Flattened records -/

namespace Flattening

theorem bindPaths_scoped {d : Context} (hd : d.ReadsCurrent) (ps : Entries Node) :
    Relates d.Along (fun _ => False) Eq (fun b₁ b₂ => b₁ = b₂ ∧ ∀ s ∈ b₁, s.2.UsesOnly d.Knows)
      (bindPaths ps) (bindPaths ps) := by
  induction ps with
  | nil => exact Relates.pure ⟨rfl, nofun⟩
  | cons p rest ih =>
    refine Relates.bind (hd.node p.2) fun e _ ⟨heq, he⟩ => ?_
    refine Relates.bind ih fun b₁ b₂ ⟨heqs, hb⟩ => ?_
    exact Relates.pure ⟨by rw [heq, heqs], List.forall_mem_cons.mpr ⟨he, hb⟩⟩

theorem chain_usesOnly {P : Param → Prop} {slots : List (String × String × Expr)}
    (h : ∀ s ∈ slots, s.2.2.UsesOnly P) : (chain slots).UsesOnly P := by
  unfold chain
  cases hcontainer : Expr.mkContainer? (slots.map fun s => (s.2.1, s.2.2)) with
  | none => exact Expr.usesOnly_const _ _
  | some e =>
    refine Expr.usesOnly_mkContainer? (fun s hs => ?_) hcontainer
    obtain ⟨slot, hslot, rfl⟩ := List.mem_map.mp hs
    exact h slot hslot

/-- The slots of a flattened record are read from that record. -/
theorem slotReads_usesOnly {p : Param} {slots : List (String × String × Expr)} {key : String} {read : Expr}
    (h : Entries.get? (slotReads p slots) key = some read) : read.UsesOnly (· = p) := by
  obtain ⟨slot, -, hslot⟩ := List.mem_map.mp (Entries.mem_of_get?_ofPairs h)
  rw [← (Prod.mk.inj hslot).2]
  simp

end Flattening

namespace Context.TopLevel

variable {k c c' : Context} (hk : k.TopLevel)
include hk

/-- Flattened records make a top-level clause of their own, and what projects to them is a function of
the record. -/
theorem flatten {t : Transformation} {source : Expr} {f : Option Flattening} {P : Param → Prop}
    (hsource : source.UsesOnly P) (h : t.flatten source k = (.ok f, c)) :
    c.TopLevel ∧ ((f.map Flattening.source).getD source).UsesOnly P := by
  obtain ⟨-, rfl, rfl⟩ | ⟨-, bound, d, p, hpaths, -, rfl, _, rfl, rfl⟩ :=
    Transformation.flatten_cases h
  · exact ⟨hk, hsource⟩
  · have hframe := Keeps.frame (Flattening.bindPaths_keeps _) hpaths
    have hd := hk.frame hframe
    obtain ⟨_, _, -, ⟨-, hbound⟩, -⟩ :=
      (Flattening.bindPaths_scoped hk.reads _).ok ⟨rfl, .refl k⟩ hpaths
    refine ⟨⟨if_pos hd.root, hd.scope, fun key read => Flattening.slotReads_usesOnly⟩, ?_⟩
    have hcurrent (q : Param) (hq : d.Knows q) : q = d.current ∨ P q := .inl (hd.eq_current hq)
    have hchain : (Flattening.chain (Flattening.named bound)).UsesOnly _ :=
      Flattening.chain_usesOnly fun s hs => (hbound _ (Flattening.mem_named hs)).mono fun q hq =>
        hcurrent q (hframe.sameClause.knows.mpr hq)
    rw [Option.map_some, Option.getD_some]
    simp only [Lambda.toExpr, Expr.usesOnly_mkCollection, List.forall_mem_cons]
    refine ⟨hsource, (Expr.usesOnly_mkLambda _).mpr (Expr.usesOnly_wrapper.mpr fun m e he => ?_),
      List.forall_mem_nil _⟩
    cases m <;> cases he
    · exact hchain
    · exact d.currentExpr_usesOnly.mono hcurrent

/-- The groups of a collection with their aggregates mention what the collection and the aggregates
mention. -/
theorem grouped_usesOnly [External] {t : Transformation} {bound : Transformation.BoundAggregation}
    {source : Expr}
    {P : Param → Prop} (hsource : source.UsesOnly P) (h : t.bindAggregation k = (.ok bound, c'))
    (haggregates : ∀ {g slots c c'}, k.Frame c →
      AggregateExpr.bindSlots t.aggregates (.param g) c = (.ok slots, c') →
        ∀ s ∈ slots, s.2.UsesOnly fun q => q = g ∨ P q) :
    (bound.overSource source).UsesOnly P := by
  obtain ⟨_, _, _, g, slots, hkey, hframe, hslots, hresult⟩ :=
    Transformation.exists_of_bindAggregation h
  obtain ⟨_, _, -, ⟨-, hkey⟩, -⟩ := (t.bindKey_ofClause hk.reads).ok ⟨rfl, .refl k⟩ hkey
  have hkeyBody : bound.key.body.UsesOnly fun q => q = bound.key.param ∨ P q :=
    hkey.body.mono fun q hq => .inl ((hk.eq_current hq).trans hkey.param.symm)
  have hcontainer (e : Expr) (he : t.keyContainer? g = some e) : e.UsesOnly fun q => q = g ∨ P q := by
    unfold Transformation.keyContainer? at he
    split_ifs at he
    cases he
    simp
  have hresultBody := AggregateExpr.aggregationExpr_usesOnly (haggregates hframe hslots) hcontainer
  rw [Transformation.BoundAggregation.overSource, hresult]
  simp only [Lambda.toExpr, Expr.usesOnly_mkCollection, Expr.usesOnly_mkLambda, List.forall_mem_cons]
  exact ⟨⟨hsource, hkeyBody, List.forall_mem_nil _⟩, hresultBody, List.forall_mem_nil _⟩

end Context.TopLevel

/-- **Aggregations are closed, but for the root record.** In a top-level clause, what an aggregation of a
closed collection is bound to mentions no parameter but that for the root record. If no aggregate over
related items looks at the root record, the aggregation is closed, and never fails for want of a
parameter. -/
theorem aggregations_are_closed [External] {ctx after : Context} {t : Transformation} {source e : Expr}
    (hctx : ctx.TopLevel) (hsource : source.free = []) (h : t.applyTo source ctx = (.ok e, after)) :
    (∀ p ∈ e.free, p = after.root) ∧
      ((∀ a ∈ t.aggregates, a.IgnoresRoot (t.flatten source ctx).2) →
        e.free = [] ∧ ∀ env name, e.eval env ≠ .error (.evaluation (.unboundParameter name))) := by
  obtain ⟨f, d, bound, hflatten, hbound, rfl⟩ := Transformation.applyTo_cases h
  have hframe := Keeps.frame t.bindAggregation_keeps hbound
  obtain ⟨hd, hprojected⟩ := hctx.flatten (Expr.usesOnly_false_iff.mpr hsource) hflatten
  refine ⟨?_, fun haggregates => ?_⟩
  · rw [hframe.root]
    refine hd.grouped_usesOnly (hprojected.mono fun _ => False.elim) hbound fun hc hslots s hs => ?_
    have hd' := hd.frame hc
    refine (AggregateExpr.bindSlots_usesOnly _ (P := (· = _)) hd'.reads ((Expr.usesOnly_param _).mpr rfl)
      hslots s hs).mono fun q hq => ?_
    rcases hq with (hroot | ⟨name, hname⟩) | hq
    · exact .inr (hroot.trans hc.root)
    · exact absurd hname (hd'.not_scope name q)
    · exact .inl hq
  · rw [hflatten] at haggregates
    have huses := hd.grouped_usesOnly hprojected hbound fun hc hslots =>
      hd.aggregates_usesOnly haggregates hc ((Expr.usesOnly_param _).mpr (.inl rfl)) hslots
    refine ⟨Expr.usesOnly_false_iff.mp huses, fun env => ?_⟩
    exact (Expr.eval_bound _ env (huses.mono fun _ => False.elim)).ne_unboundParameter

/-- A value of each line, added up over the lines of all sales. -/
def linesTotal (value : Node) : Transformation :=
  .aggregate [.entitySet (.property saleNode "Lines" .navigationCollection) "Lines"
    [.property ⟨.sum, some value, "Total"⟩]]

/-- The quantity of a line. -/
def lineQuantity : Node := .property (.rangeVariable lineVariable) "Qty" .single

/-- The clause over lines ignores the root record, if the value of a line does. -/
theorem linesTotal_ignoresRoot [External] {value : Node} (h : value.Rootless lineSchema (.record "Line")) :
    ∀ a ∈ (linesTotal value).aggregates, a.IgnoresRoot lineContext := by
  have hfresh : lineContext.Fresh := ⟨rfl, rfl, rfl, rfl, rfl⟩
  have hover : lineContext.Over lineSchema (.record "Sale") := ⟨rfl, rfl, rfl, rfl, rfl⟩
  refine List.forall_mem_singleton.mpr ?_
  intro c navigation c₁ element group hc hsource helement d root hd
  have hnavigation : lineContext.pathExpr ["Lines"] = .ok navigation :=
    hfresh.bindWithin_path hc.sameClause rfl hsource
  obtain rfl : .record "Line" = element := by
    cases hnavigation
    exact Except.ok.inj helement
  have hframe := hc.trans (Keeps.frame (Node.bind_keeps _) hsource)
  have hlines := ((hover.sameClause hframe.sameClause).derive (.record "Line")).sameClause hd
  have hslots : BindM.Rootless lineSchema (.record "Line")
      (AggregateExpr.bindSlots [.property ⟨.sum, some value, "Total"⟩] group) := by
    rw [AggregateExpr.bindSlots, AggregateExpr.bindSlots, AggregateExpr.bind]
    refine .bind (PropertyAggregate.bind_keeps _ _) ?_ fun _ _ => .pure _
    refine PropertyAggregate.bind_rootless _ ?_ _
    rintro _ ⟨⟩
    exact h
  rw [hslots d root hlines]

/-- The quantities of lines are added up in a clause over lines, and name no sale. -/
theorem aggregations_are_closed_over_lines :
    ∃ e after, (linesTotal lineQuantity).applyTo lineSales lineContext = (.ok e, after) ∧
      e.free = [] ∧ ∀ env name, e.eval env ≠ .error (.evaluation (.unboundParameter name)) := by
  have hok : ((linesTotal lineQuantity).applyTo lineSales lineContext).1.toOption.isSome = true := by
    decide +kernel
  obtain ⟨e, after, he⟩ := BindM.exists_of_isSome hok
  have hfresh : lineContext.Fresh := ⟨rfl, rfl, rfl, rfl, rfl⟩
  have hclosed := aggregations_are_closed hfresh.topLevel rfl he
  exact ⟨e, after, he, hclosed.2 (linesTotal_ignoresRoot quantity_rootless)⟩

/-- The parameter for want of which a computation failed. -/
def unbound? {α : Type} : Outcome α → Option String
  | .error (.evaluation (.unboundParameter name)) => some name
  | _ => none

/-- **The root record of an aggregation is not bound.** The limit of a sale, added up over the lines of
all sales, is bound in the clause over lines to a member of the root record, which no lambda binds. -/
theorem aggregation_leaves_root_unbound :
    lineContext.Fresh ∧ lineSales.free = [] ∧
      ∃ e after, (linesTotal (.property saleNode "Limit" .single)).applyTo lineSales lineContext =
          (.ok e, after) ∧ lineContext.root ∈ e.free ∧ unbound? (e.eval []) = some "$it" := by
  have hrun : (((linesTotal (.property saleNode "Limit" .single)).applyTo lineSales
      lineContext).1.toOption.map fun e => (decide (lineContext.root ∈ e.free), unbound? (e.eval []))) =
        some (true, some "$it") := by decide +kernel
  obtain ⟨e, he, hfree⟩ := Option.map_eq_some_iff.mp hrun
  obtain ⟨hfree, hunbound⟩ := Prod.mk.inj hfree
  obtain ⟨e', after, he'⟩ := BindM.exists_of_isSome (Option.isSome_of_eq_some he)
  rw [he'] at he
  cases he
  exact ⟨⟨rfl, rfl, rfl, rfl, rfl⟩, rfl, e, after, he', of_decide_eq_true hfree, hunbound⟩

end TypedQuery
