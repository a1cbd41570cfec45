import TypedQuery.Proofs.ClosedAggregations
import TypedQuery.Proofs.GroupAgreement
import TypedQuery.Proofs.Grouping
import TypedQuery.Proofs.Relabeling
import TypedQuery.Proofs.TypedValues

/-!
# Aggregates over related items

What an aggregate over a related collection gives for a group of records, said without the operators
that it is bound to: the related items of all records, one after the other, are aggregated together, as
in a clause of their own. This is so where every record has its collection; a record that has null
there makes the aggregate fail.

* `Value.relatedItems`, `PropertyAggregate.overRelated`: the related items of a record, and aggregates
  of them.
* `Node.ReadsItem`: values that are read from the related item only.
* `PropertyAggregate.eval_over_related`: one aggregate, of a group of related items.
* **`entity_sets_aggregate_related_items`**: all of them, of a group of records.
* `entity_sets_fail_at_null`: a record without a collection.
-/

namespace TypedQuery

open BindM (Keeps)

/-! ## The operators -/

theorem joinItems_collections (lists : List (List Value)) :
    joinItems (lists.map .collection) = .ok lists.flatten := by
  induction lists with
  | nil => rfl
  | cons items rest ih =>
    rw [List.map_cons, joinItems, ih]
    rfl

/-- The related items of the records of a group give one row, if there are any. -/
theorem Expr.eval_related_row [External] {group navigation body : Expr} {p inner g : Param} {env : Env}
    {key : Value} {items : List Value} {lists : List (List Value)}
    (hgroup : group.eval env = .ok (.grouping key items))
    (hlists : items.mapM (fun v => navigation.eval ((p.id, v) :: env)) = .ok (lists.map .collection)) :
    ((mkCollection .toList [mkCollection .select
        [relatedGroup group p inner navigation, mkLambda g body]]).eval env).toOption =
      if lists.flatten.isEmpty then some (.collection [])
      else (body.eval ((g.id, .grouping (.wrapper .noGroupBy) lists.flatten) :: env)).toOption.map
        fun row => .collection [row] := by
  rw [Expr.eval_related, hgroup]
  change (PropertyAggregate.valuesIn env p items navigation >>= joinItems).toOption.bind _ = _
  rw [PropertyAggregate.valuesIn, hlists, Outcome.ok_bind, joinItems_collections]
  rfl

/-! ## Aggregates of related items -/

/-- The related items that a record has under a name; none if it has null there. -/
def Value.relatedItems (name : String) (record : Value) : List Value :=
  match record.member name with
  | .ok (.collection items) => items
  | _ => []

/-- Aggregates of related items: a list of one wrapper with a slot for each aggregate, or no wrapper
if there are no items. -/
def PropertyAggregate.overRelated [External] (ctx : Context) (aggregates : List PropertyAggregate)
    (related : List Value) : Outcome Value :=
  if related.isEmpty then .ok (.collection [])
  else do
    let slots ← aggregates.mapM (PropertyAggregate.slotOver ctx related)
    return .collection
      [.wrapper (.aggregation (if slots.isEmpty then none else some (.container slots)) none)]

/-! ## Clauses over related items -/

/-- The numbers of the parameters that a context knows are below the next one and tell them apart. -/
structure Context.ToldApart (ctx : Context) : Prop extends ctx.Numbered where
  unique : ∀ p q, ctx.Knows p → ctx.Knows q → p.id = q.id → p = q

theorem Context.Numbered.lt {ctx : Context} (h : ctx.Numbered) {p : Param} (hp : ctx.Knows p) :
    p.id < ctx.nextId := by
  rcases hp with rfl | rfl | ⟨name, hname⟩
  · exact h.current
  · exact h.root
  · exact h.scope name p hname

/-- In a clause over related items, the node is bound to an expression that mentions nothing but the
item. -/
def Node.ReadsItem (ctx : Context) (element : HostType) (node : Node) : Prop :=
  ∀ ⦃c d d' : Context⦄ ⦃e : Expr⦄, ctx.Frame c → (c.derive element).SameClause d →
    node.bind d = (.ok e, d') → e.UsesOnly (· = d.current)

section Clause

variable {ctx c d d' : Context} {element : HostType} (hapart : ctx.ToldApart) (hc : ctx.Frame c)
include hapart hc

/-- Clauses over related items differ in the numbers of their parameters only. -/
theorem Context.ToldApart.derive_alike : (c.derive element).Alike (ctx.derive element) where
  schema := hc.schema
  settings := hc.settings
  computed := hc.computed
  left_flattened := rfl
  right_flattened := rfl
  left_source := rfl
  right_source := rfl
  scope name := by
    show (Entries.get? c.scope name).isSome = (Entries.get? ctx.scope name).isSome
    rw [hc.scope]
  params := by
    have hknown : Matching (fun p q => p = q ∧ ctx.Knows p) c.nextId ctx.nextId :=
      { type := fun h => by rw [h.1]
        name := fun h => by rw [h.1]
        left_lt := fun h => Nat.lt_of_lt_of_le (hapart.lt h.2) hc.nextId
        right_lt := fun h => h.1 ▸ hapart.lt h.2
        unique := fun {p₁ p₂ q₁ q₂} hp hq heq => by
          obtain ⟨rfl, hp⟩ := hp
          obtain ⟨rfl, hq⟩ := hq
          have hpq := hapart.unique _ _ hp hq (or_self_iff.mp heq)
          exact ⟨hpq, hpq⟩ }
    refine hknown.extend RangeVariable.itName element fun {p₁ p₂} hp => ?_
    cases hp with
    | current => exact .inr ⟨rfl, rfl⟩
    | root => exact .inl ⟨hc.root, .inr (.inl hc.root)⟩
    | @scope name _ _ hp₁ hp₂ =>
      have hp₁ : Entries.get? ctx.scope name = some p₁ := hc.scope ▸ hp₁
      have hp₂ : Entries.get? ctx.scope name = some p₂ := hp₂
      rw [hp₁] at hp₂
      exact .inl ⟨Option.some.inj hp₂, .inr (.inr ⟨name, hp₁⟩)⟩

/-- What an expression that reads the related item only is at an item, wherever it is bound. -/
theorem Node.eval_at_item [External] {node : Node} {e : Expr} (hnode : node.ReadsItem ctx element)
    (hd : (c.derive element).SameClause d) (hdepth : d.depth = ctx.depth)
    (he : node.bind d = (.ok e, d')) :
    ∃ e₀, (node.bind (ctx.derive element)).1 = .ok e₀ ∧ e₀.type = e.type ∧
      ∀ v env, e.eval ((d.current.id, v) :: env) = node.valueOn (ctx.derive element) v := by
  have halike : (c.derive element).Alike (ctx.derive element) := hapart.derive_alike hc
  have hwithin : (c.derive element).Within (ctx.derive element) d (ctx.derive element) :=
    ⟨hd, .refl _, hdepth⟩
  obtain ⟨e₀, c₀, he₀, hagree, -, -⟩ :=
    (Node.bind_simulates halike.settings (halike.simulates node)).ok hwithin he
  refine ⟨e₀, by rw [he₀], hagree.type.symm, fun v env => ?_⟩
  have hcurrent : d.current = (c.derive element).current := hd.current
  have hempty : c.EnvAlike ctx [] [] := fun _ _ _ => rfl
  have hitem := hempty.cons halike.params .current Context.Alike.paired_derive v
  calc e.eval ((d.current.id, v) :: env)
      = e.eval [(d.current.id, v)] := by
        refine Expr.eval_congr e ((hnode hc hd he).mono ?_)
        rintro p rfl
        simp
    _ = e₀.eval [((ctx.derive element).current.id, v)] := by
        rw [hcurrent]
        exact hagree.eval hitem
    _ = node.valueOn (ctx.derive element) v := by
        rw [Node.valueOn, he₀, Outcome.ok_bind]

/-- **An aggregate of a group of related items gives the aggregate of the items.** -/
theorem PropertyAggregate.eval_over_related [External] {a : PropertyAggregate} {g : Param} {slot : Expr}
    (ha : ∀ node, a.input = some node → node.ReadsItem ctx element)
    (hd : (c.derive element).SameClause d) (hdepth : d.depth = ctx.depth)
    (h : a.bind (.param g) d = (.ok slot, d')) (env : Env) (key : Value) (related : List Value) :
    (slot.eval ((g.id, .grouping key related) :: env)).toOption =
      (a.valueOver (ctx.derive element) related).toOption := by
  unfold valueOver
  by_cases hcount : a.method = .count
  · unfold PropertyAggregate.bind at h
    rw [if_pos hcount] at h
    cases h
    rw [Expr.eval_count_group Expr.lookup_group, if_pos hcount]
    rfl
  · obtain ⟨node, e, d₁, hinput, he, hcombine⟩ := exists_of_bind hcount h
    have hframe := Keeps.frame node.bind_keeps he
    obtain ⟨e₀, he₀, htype, hvalue⟩ := node.eval_at_item hapart hc (ha node hinput) hd hdepth he
    rw [hframe.schema, hframe.current, hd.schema] at hcombine
    have hvalues : valuesIn ((g.id, .grouping key related) :: env) d.current related e =
        related.mapM (node.valueOn (ctx.derive element)) := Outcome.mapM_congr fun v _ => hvalue v _
    have hschema : (c.derive element).schema = (ctx.derive element).schema := hc.schema
    rw [combine_eval Expr.lookup_group hcount hcombine, hvalues, if_neg hcount, hinput, ← htype, hschema]
    simp only [he₀, Outcome.ok_bind]

/-- The aggregates of a group of related items, each with its name. -/
theorem AggregateExpr.eval_slots_over_related [External] {children : List PropertyAggregate} {g : Param}
    {slots : List (String × Expr)}
    (hchildren : ∀ a ∈ children, ∀ node, a.input = some node → node.ReadsItem ctx element)
    (hd : (c.derive element).SameClause d) (hdepth : d.depth = ctx.depth)
    (h : bindSlots (children.map .property) (.param g) d = (.ok slots, d')) (env : Env) (key : Value)
    (related : List Value) :
    (Expr.evalSlots slots ((g.id, .grouping key related) :: env)).toOption =
      (children.mapM (PropertyAggregate.slotOver (ctx.derive element) related)).toOption := by
  have hslots := forall₂_of_bindSlots h
  clear h
  induction children generalizing slots with
  | nil =>
    cases hslots
    rfl
  | cons a rest ih =>
    cases hslots with
    | @cons _ s _ tail hs htail =>
      obtain ⟨name, e⟩ := s
      obtain ⟨rfl, d₁, d₂, hd₁, he⟩ := hs
      obtain ⟨ha, hrest⟩ := List.forall_mem_cons.mp hchildren
      rw [AggregateExpr.bind] at he
      have heval := a.eval_over_related hapart hc ha (hd.frame hd₁) (hd₁.depth.trans hdepth) he env key
        related
      simp only [Expr.evalSlots, List.mapM_cons, PropertyAggregate.slotOver, Outcome.toOption_bind, heval,
        ih hrest htail]
      cases (a.valueOver (ctx.derive element) related).toOption <;> rfl

end Clause

/-! ## Navigation from the records of a group -/

/-- The record that an item of a clause stands for: the item, or the record before flattening. -/
def Context.recordOf [External] (ctx : Context) (item : Value) : Outcome Value :=
  ctx.currentExpr.eval [(ctx.current.id, item)]

/-- A node that names a collection of related items of the record of a clause. -/
structure Context.Navigates (ctx : Context) (source : Node) (typeName name : String)
    (element : HostType) : Prop where
  node : ∃ v kind, source = .property (.rangeVariable v) name kind ∧ ctx.resolve v = .ok ctx.currentExpr
  unflattened : ctx.flattenedRead? source = none
  type : ctx.currentExpr.type = .record typeName
  member : ctx.schema.member? typeName name = some ⟨typeName, name, .collection element⟩

namespace Context

variable {ctx c : Context} {source : Node} {typeName name : String} {element : HostType}

theorem isCurrent_currentExpr (ctx : Context) : ctx.isCurrent ctx.currentExpr = true := by
  unfold currentExpr
  cases hsource : ctx.flatteningSource with
  | none => simp [isCurrent]
  | some t => simp [isCurrent, hsource]

theorem eval_currentExpr [External] (ctx : Context) (item : Value) (env : Env) :
    ctx.currentExpr.eval ((ctx.current.id, item) :: env) = ctx.recordOf item := by
  refine Expr.eval_congr _ ?_
  unfold currentExpr
  cases ctx.flatteningSource <;> simp

/-- The collection is read from the record without a guard. -/
theorem Navigates.bind {navigation : Expr} (h : ctx.Navigates source typeName name element)
    (hbind : source.bind ctx = (.ok navigation, c)) :
    navigation = .member ctx.currentExpr ⟨typeName, name, .collection element⟩ := by
  obtain ⟨v, kind, rfl, hv⟩ := h.node
  unfold Node.bind at hbind
  cases hlevels : ctx.levelsLeft with
  | zero =>
    rw [hlevels] at hbind
    cases hbind
  | succ levels =>
    rw [hlevels] at hbind
    obtain ⟨c₁, hproperty⟩ := BindM.exists_of_descend_eq_ok hbind
    have hdeeper := (SameClause.refl ctx).deeper
    obtain ⟨_, _, hread, hproperty⟩ := BindM.exists_of_bind_eq_ok hproperty
    cases hread
    rw [hdeeper.flattenedRead, h.unflattened] at hproperty
    obtain ⟨record, c₂, hrecord, haccess⟩ := BindM.exists_of_bind_eq_ok hproperty
    have hc₂ := hdeeper.frame (Keeps.frame (Node.bindWithin_keeps levels _) hrecord)
    replace haccess : c₂.memberAccess record name = .ok navigation := (Prod.mk.inj haccess).1
    cases levels with
    | zero => cases hrecord
    | succ levels =>
      obtain ⟨c₃, hresolve⟩ := BindM.exists_of_descend_eq_ok hrecord
      replace hresolve : ctx.deeper.deeper.resolve v = .ok record := (Prod.mk.inj hresolve).1
      rw [hdeeper.deeper.resolve, hv] at hresolve
      cases hresolve
      rw [hc₂.memberAccess] at haccess
      unfold memberAccess guardIfNeeded needsGuard at haccess
      simp only [h.type, HostType.recordName?, Option.bind_some, h.member, isCurrent_currentExpr] at haccess
      simpa [Expr.widenPrimitive, Expr.type, HostType.nonNullable, HostType.widened?] using haccess.symm

/-- A record that conforms to its type has the collection, or null in its place. -/
theorem Navigates.member_eq {record : Value} (h : ctx.Navigates source typeName name element)
    (hrecord : ctx.schema.admits (.record typeName) record = true) (hnull : record.isNull = false)
    (hmember : record.member name ≠ .ok .null) :
    record.member name = .ok (.collection (record.relatedItems name)) := by
  obtain ⟨r, fields, rfl, hr, hnames, hfields⟩ := (Schema.admits_record_iff rfl hnull).mp hrecord
  have hdeclared := h.member
  simp only [Schema.member?, hr, Option.bind_eq_bind, Option.bind_some] at hdeclared
  obtain ⟨t, ht, -⟩ := Option.bind_eq_some_iff.mp hdeclared
  have hgiven : name ∈ Entries.names fields :=
    hnames.mem_iff.mpr (List.mem_map_of_mem (Entries.mem_of_get? ht))
  obtain ⟨w, hw⟩ := Entries.exists_of_mem_names hgiven
  obtain ⟨m, hm, hadmits⟩ := hfields (name, w) (Entries.mem_of_get? hw)
  rw [h.member] at hm
  cases hm
  have hvalue : (Value.record typeName fields).member name = .ok w := by
    show orFail _ (Entries.get? fields name) = _
    rw [hw]
    rfl
  have hpresent : w.isNull = false := by
    cases w with
    | null => exact absurd hvalue hmember
    | _ => rfl
  obtain ⟨items, rfl, -⟩ := (Schema.admits_collection_iff rfl hpresent).mp hadmits
  rw [Value.relatedItems, hvalue]

end Context

/-- The related items of all records of a group, as the lambda of the aggregate gives them. -/
theorem Context.Navigates.mapM_related [External] {ctx : Context} {source : Node} {typeName name : String}
    {element : HostType} (h : ctx.Navigates source typeName name element) {items records : List Value}
    (hrecords : List.Forall₂ (fun item r => ctx.recordOf item = .ok r) items records)
    (hconform : ∀ r ∈ records, ctx.schema.admits (.record typeName) r = true ∧ r.isNull = false)
    (hnull : ∀ r ∈ records, r.member name ≠ .ok .null) (env : Env) :
    items.mapM (fun item => (Expr.member ctx.currentExpr ⟨typeName, name, .collection element⟩).eval
        ((ctx.current.id, item) :: env)) =
      .ok ((records.map (Value.relatedItems name)).map .collection) := by
  induction hrecords with
  | nil => rfl
  | @cons item r items records hr _ ih =>
    obtain ⟨⟨hadmits, hr'⟩, hrest⟩ := List.forall_mem_cons.mp hconform
    obtain ⟨hmember, hmembers⟩ := List.forall_mem_cons.mp hnull
    rw [List.mapM_cons, ih hrest hmembers, Expr.eval, ctx.eval_currentExpr, hr, Outcome.ok_bind,
      h.member_eq hadmits hr' hmember]
    rfl

/-! ## Aggregates of a group of records -/

/-- **Aggregates over related items range over the related items of all records.** In a context that
tells its parameters apart, let an aggregate over a collection of related items of the record of the
clause have aggregates of properties that read the related item only, and let it be bound. For a group
of records that conform to their type and all have the collection, it gives what the aggregates of
properties give for the related items of all records, one record after the other, in a clause over
related items; where one of these fails, so does it. -/
theorem entity_sets_aggregate_related_items [External] {ctx c : Context} (hapart : ctx.ToldApart)
    {source : Node} {typeName name label : String} {element : HostType}
    (hsource : ctx.Navigates source typeName name element) {children : List PropertyAggregate}
    (hchildren : ∀ a ∈ children, ∀ node, a.input = some node → node.ReadsItem ctx element)
    {group slot : Expr}
    (hbind : (AggregateExpr.entitySet source label (children.map .property)).bind group ctx = (.ok slot, c))
    {env : Env} {key : Value} {items records : List Value}
    (hgroup : group.eval env = .ok (.grouping key items))
    (hrecords : List.Forall₂ (fun item r => ctx.recordOf item = .ok r) items records)
    (hconform : ∀ r ∈ records, ctx.schema.admits (.record typeName) r = true ∧ r.isNull = false)
    (hnull : ∀ r ∈ records, r.member name ≠ .ok .null) :
    (slot.eval env).toOption = (PropertyAggregate.overRelated (ctx.derive element) children
      (records.flatMap (Value.relatedItems name))).toOption := by
  obtain ⟨navigation, c₁, element', slots, c₂, hnavigation, helement, hslots, rfl⟩ :=
    AggregateExpr.entitySet_cases hbind
  have hc := Keeps.frame source.bind_keeps hnavigation
  obtain rfl := hsource.bind hnavigation
  obtain rfl : element = element' := Except.ok.inj helement
  have hlists := hsource.mapM_related hrecords hconform hnull env
  rw [← hc.current] at hlists
  have hclause : (c₁.derive element).SameClause (AggregateExpr.childClause c₁ element) :=
    { Context.SameClause.refl (c₁.derive element) with nextId := Nat.le_succ _ }
  have hvalues := AggregateExpr.eval_slots_over_related hapart hc hchildren hclause hc.depth hslots env
    (.wrapper .noGroupBy) (records.flatMap (Value.relatedItems name))
  rw [Expr.eval_related_row hgroup hlists, ← List.flatMap_def, aggregationExpr_eval]
  unfold PropertyAggregate.overRelated
  split
  · rfl
  · rw [Outcome.toOption_bind, ← hvalues]
    cases hrow : Expr.evalSlots slots _ with
    | error e => rfl
    | ok values =>
      have hsame : slots.isEmpty = values.isEmpty := by
        simpa using (congrArg List.isEmpty (Expr.evalSlots_eq_ok hrow).1).symm
      rw [hsame]
      rfl

/-! ### Quantities of lines -/

theorem Context.TopLevel.toldApart {ctx : Context} (h : ctx.TopLevel)
    (hid : ctx.current.id < ctx.nextId) : ctx.ToldApart where
  current := hid
  root := by rwa [h.eq_current (.inr (.inl rfl))]
  scope name p hp := by rwa [h.eq_current (.inr (.inr ⟨name, hp⟩))]
  unique p q hp hq _ := (h.eq_current hp).trans (h.eq_current hq).symm

/-- A node that does not name the root record reads the related item only. -/
theorem Node.Rootless.readsItem {ctx : Context} {element : HostType} {node : Node} (htop : ctx.TopLevel)
    (hcomputed : ctx.computed = []) (h : node.Rootless ctx.schema element) :
    node.ReadsItem ctx element := by
  intro c d d' e hc hd he
  have hreads := hd.readsCurrent (c.derive_readsCurrent element)
  have hover : d.Over ctx.schema element :=
    ⟨hd.schema.trans hc.schema, by rw [hd.current]; rfl, hd.flatteningSource, hd.flattened,
      by rw [hd.computed]; exact hc.computed.trans hcomputed⟩
  have hscope (key : String) (p : Param) : Entries.get? d.scope key ≠ some p := by
    have hempty : d.scope = [] := by
      rw [hd.scope]
      exact hc.scope.trans htop.scope
    rw [hempty]
    nofun
  -- the node is bound to the same with another root record, which it cannot mention either
  let other : Param := ⟨d.root.id + 1, d.root.name, d.root.type⟩
  have hother : (node.bind (d.withRoot other)).1 = .ok e := by rw [h.bind d other hover, he]
  have huses : e.UsesOnly d.Knows := hreads.bind (by rw [he])
  have husesOther : e.UsesOnly (d.withRoot other).Knows :=
    Context.ReadsCurrent.bind (d := d.withRoot other) hreads hother
  intro q hq
  rcases huses q hq with hcurrent | hroot | ⟨key, hkey⟩
  · exact hcurrent
  · rcases husesOther q hq with hcurrent | hother | ⟨key, hkey⟩
    · exact hcurrent
    · have hid := congrArg Param.id (hroot.symm.trans hother)
      exact absurd hid (Nat.ne_of_lt (Nat.lt_succ_self _))
    · exact absurd hkey (hscope key q)
  · exact absurd hkey (hscope key q)

/-- The lines of a sale. -/
def saleLines : Node := .property saleNode "Lines" .navigationCollection

/-- The quantities of the lines, added up. -/
def quantityTotal : List PropertyAggregate := [⟨.sum, some lineQuantity, "Total"⟩]

/-- The parameter for a group of sales. -/
def saleGroup : Param := ⟨1, RangeVariable.itName, .grouping (.wrapper .noGroupBy) (.record "Sale")⟩

/-- A line of a quantity. -/
def lineOf (quantity : Int) : Value :=
  .record "Line" [("Product", .null), ("Qty", .int32 quantity)]

/-- A sale with lines, or null in place of them. -/
def saleOf (lines : Value) : Value :=
  .record "Sale" [("Product", .null), ("Lines", lines), ("Limit", .int32 2)]

theorem saleLines_navigates : lineContext.Navigates saleLines "Sale" "Lines" (.record "Line") where
  node := ⟨_, _, rfl, rfl⟩
  unflattened := rfl
  type := rfl
  member := rfl

/-- The group of some sales. -/
def salesEnv (sales : List Value) : Env :=
  [(saleGroup.id, .grouping (.wrapper .noGroupBy) sales)]

/-- Three sales, one of which has no lines. -/
def salesWithLines : List Value :=
  [saleOf (.collection [lineOf 3]), saleOf (.collection []), saleOf (.collection [lineOf 4, lineOf 5])]

theorem entity_sets_add_up_quantities :
    ∃ slot c, (AggregateExpr.entitySet saleLines "Lines" (quantityTotal.map .property)).bind
        (.param saleGroup) lineContext = (.ok slot, c) ∧
      (slot.eval (salesEnv salesWithLines)).toOption =
        some (.collection [.wrapper (.aggregation (some (.container [("Total", .int32 12)])) none)]) := by
  have hfresh : lineContext.Fresh := ⟨rfl, rfl, rfl, rfl, rfl⟩
  have hapart := hfresh.topLevel.toldApart (by decide)
  have hchildren : ∀ a ∈ quantityTotal, ∀ node, a.input = some node →
      node.ReadsItem lineContext (.record "Line") := by
    refine List.forall_mem_singleton.mpr ?_
    rintro node ⟨⟩
    exact quantity_rootless.readsItem hfresh.topLevel rfl
  have hbound : ((AggregateExpr.entitySet saleLines "Lines" (quantityTotal.map .property)).bind
      (.param saleGroup) lineContext).1.toOption.isSome = true := by decide +kernel
  obtain ⟨slot, c, hslot⟩ := BindM.exists_of_isSome hbound
  have hgroup : (Expr.param saleGroup).eval (salesEnv salesWithLines) =
      .ok (.grouping (.wrapper .noGroupBy) salesWithLines) := rfl
  have hrecords : List.Forall₂ (fun item r => lineContext.recordOf item = .ok r) salesWithLines
      salesWithLines := List.forall₂_same.mpr fun _ _ => rfl
  have hconform : ∀ r ∈ salesWithLines,
      lineContext.schema.admits (.record "Sale") r = true ∧ r.isNull = false := by decide +kernel
  have hnull : ∀ r ∈ salesWithLines, r.member "Lines" ≠ .ok .null := by
    simp only [salesWithLines, List.forall_mem_cons]
    exact ⟨nofun, nofun, nofun, nofun⟩
  have hrow := entity_sets_aggregate_related_items hapart saleLines_navigates hchildren hslot hgroup hrecords
    hconform hnull
  exact ⟨slot, c, hslot, hrow.trans rfl⟩

/-- **A record without a collection makes the aggregate fail.** Two sales conform to their type, one
with a line and one with null in place of its lines. The quantities of their lines add up to 3, but the
bound aggregate fails, although null propagation is on. -/
theorem entity_sets_fail_at_null :
    lineContext.settings.nullPropagation = true ∧
      (∀ r ∈ [saleOf (.collection [lineOf 3]), saleOf .null],
        lineContext.schema.admits (.record "Sale") r = true) ∧
      (PropertyAggregate.overRelated (lineContext.derive (.record "Line")) quantityTotal
        ([saleOf (.collection [lineOf 3]), saleOf .null].flatMap (Value.relatedItems "Lines"))).toOption =
          some (.collection [.wrapper (.aggregation (some (.container [("Total", .int32 3)])) none)]) ∧
      ∃ slot c, (AggregateExpr.entitySet saleLines "Lines" (quantityTotal.map .property)).bind
          (.param saleGroup) lineContext = (.ok slot, c) ∧
        failure? (slot.eval (salesEnv [saleOf (.collection [lineOf 3]), saleOf .null])) =
          some "Evaluation error: SelectMany selector returned null" := by
  have hrun : (((AggregateExpr.entitySet saleLines "Lines" (quantityTotal.map .property)).bind
      (.param saleGroup) lineContext).1.toOption.map fun slot =>
        failure? (slot.eval (salesEnv [saleOf (.collection [lineOf 3]), saleOf .null]))) =
      some (some "Evaluation error: SelectMany selector returned null") := by decide +kernel
  obtain ⟨slot, hslot, hfailure⟩ := Option.map_eq_some_iff.mp hrun
  obtain ⟨slot', c, hbound⟩ := BindM.exists_of_isSome (Option.isSome_of_eq_some hslot)
  rw [hbound] at hslot
  cases hslot
  exact ⟨rfl, by decide +kernel, rfl, slot, c, hbound, hfailure⟩

end TypedQuery
