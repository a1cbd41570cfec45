import TypedQuery.Proofs.Aggregates
import TypedQuery.Proofs.Atomicity
import TypedQuery.Proofs.Flattening
import TypedQuery.Proofs.Renumbering
import TypedQuery.Proofs.Retries

/-!
# Computed columns

A computed column is bound to a slot of its row, and its definition is kept: a property of the name of
the column is bound to the definition again, when all columns are defined. If no column names itself or
a later one, both mean the same, since each column means then what it meant in its turn. A column that
names a later one means in its slot what the record has under that name, and means the later column
when it is bound again; one that names itself is bound again without end.

* `Column.Ordered`: no column names itself or a later one.
* `Column.cost`: the levels that columns need; `Column.levels_le_cost`: they suffice.
* `Column.bindSlots_split`: what a column was bound to in its turn.
* `Context.ReadsBelow`: flattened reads have old numbers; `Context.ReadsBelow.after`: they stay so.
* **`computed_columns_mean_their_slots`**: ordered columns.
* **`later_columns_change_earlier_ones`**: columns that name later ones or themselves.
-/

namespace TypedQuery

/-! ## Columns in order -/

namespace Column

/-- No column names itself or a later one. -/
def Ordered : List Column → Prop
  | [] => True
  | column :: rest =>
    (∀ name ∈ column.expression.names, name ∉ (column :: rest).map Column.name) ∧ Ordered rest

instance decidableOrdered : (columns : List Column) → Decidable (Ordered columns)
  | [] => .isTrue trivial
  | column :: rest =>
    have := decidableOrdered rest
    inferInstanceAs (Decidable
      ((∀ name ∈ column.expression.names, name ∉ (column :: rest).map Column.name) ∧ Ordered rest))

/-- How deep nodes are nested in columns, all together. -/
def heights : List Column → Nat
  | [] => 0
  | column :: rest => column.expression.height + heights rest

/-- The definitions of columns, in turn. -/
def definitions (columns : List Column) : Entries Node :=
  Entries.ofPairs (columns.map fun column => (column.name, column.expression))

variable {columns pre post : List Column} {column : Column} {name : String}

theorem Ordered.split (h : Ordered (pre ++ column :: post)) :
    ∀ name ∈ column.expression.names, name ∉ (column :: post).map Column.name := by
  induction pre with
  | nil => exact h.1
  | cons _ _ ih => exact ih h.2

/-! ### Definitions -/

theorem computed_withColumns {ctx : Context} (h : ctx.computed = []) (columns : List Column) :
    (ctx.withColumns columns).computed = definitions columns := by
  unfold Context.withColumns definitions Entries.ofPairs
  rw [h, List.foldl_map]

theorem definitions_append_singleton (pre : List Column) (column : Column) :
    definitions (pre ++ [column]) = Entries.insert (definitions pre) column.name column.expression := by
  simp only [definitions, Entries.ofPairs, List.map_append, List.foldl_append]
  rfl

/-- Columns of other names do not change a definition. -/
theorem get?_definitions_append (h : name ∉ post.map Column.name) :
    Entries.get? (definitions (pre ++ post)) name = Entries.get? (definitions pre) name := by
  induction post generalizing pre with
  | nil => rw [List.append_nil]
  | cons column rest ih =>
    rw [List.map_cons, List.mem_cons, not_or] at h
    rw [List.append_cons, ih h.2, definitions_append_singleton, Entries.get?_insert, if_neg h.1]

theorem get?_definitions (h : column.name ∉ post.map Column.name) :
    Entries.get? (definitions (pre ++ column :: post)) column.name = some column.expression := by
  rw [List.append_cons, get?_definitions_append h, definitions_append_singleton, Entries.get?_insert,
    if_pos rfl]

theorem exists_of_get?_definitions {definition : Node}
    (h : Entries.get? (definitions columns) name = some definition) :
    ∃ column ∈ columns, column.name = name ∧ column.expression = definition := by
  obtain ⟨column, hcolumn, heq⟩ := List.mem_map.mp (Entries.mem_of_get?_ofPairs h)
  exact ⟨column, hcolumn, congrArg Prod.fst heq, congrArg Prod.snd heq⟩

/-- What an ordered column names is defined in its turn as it is in the end. -/
theorem Ordered.definitions_agree (h : Ordered (pre ++ column :: post)) :
    ∀ key ∈ column.expression.names,
      Entries.get? (definitions pre) key = Entries.get? (definitions (pre ++ column :: post)) key :=
  fun key hkey => (get?_definitions_append (h.split key hkey)).symm

/-- What the definitions before an ordered column name is defined in its turn as it is in the end. -/
theorem Ordered.earlier_agree (h : Ordered (pre ++ column :: post)) {definition : Node}
    (hget : Entries.get? (definitions pre) name = some definition) :
    ∀ key ∈ definition.names,
      Entries.get? (definitions pre) key = Entries.get? (definitions (pre ++ column :: post)) key := by
  obtain ⟨earlier, hearlier, -, rfl⟩ := exists_of_get?_definitions hget
  obtain ⟨before, between, rfl⟩ := List.append_of_mem hearlier
  intro key hkey
  rw [List.append_assoc, List.cons_append] at h
  have hlater := h.split key hkey
  rw [← List.cons_append, List.map_append, List.mem_append, not_or] at hlater
  exact (get?_definitions_append hlater.2).symm

/-! ### Levels -/

/-- The levels that a column needs: those of its own nodes and of the columns before it. -/
def cost (columns : List Column) (before : Nat) (name : String) : Nat :=
  match columns with
  | [] => 0
  | column :: rest =>
    if name = column.name then before + column.expression.height
    else cost rest (before + column.expression.height) name

theorem cost_of_notMem {before : Nat} (h : name ∉ columns.map Column.name) :
    cost columns before name = 0 := by
  induction columns generalizing before with
  | nil => rfl
  | cons column rest ih =>
    rw [List.map_cons, List.mem_cons, not_or] at h
    rw [cost, if_neg h.1, ih h.2]

/-- A name that is not among later columns costs what the columns before cost. -/
theorem cost_le (before : Nat) (h : name ∉ post.map Column.name) :
    cost (pre ++ post) before name ≤ before + heights pre := by
  induction pre generalizing before with
  | nil =>
    rw [List.nil_append, cost_of_notMem h]
    exact Nat.zero_le _
  | cons column rest ih =>
    have hrest := ih (before + column.expression.height)
    rw [List.cons_append, cost, heights]
    split_ifs <;> omega

theorem cost_self {before : Nat} (h : column.name ∉ pre.map Column.name) :
    cost (pre ++ column :: post) before column.name =
      before + heights pre + column.expression.height := by
  induction pre generalizing before with
  | nil => exact if_pos rfl
  | cons earlier rest ih =>
    rw [List.map_cons, List.mem_cons, not_or] at h
    rw [List.cons_append, cost, if_neg h.1, ih h.2, heights]
    omega

end Column

/-- A node needs its own levels, and those of the columns that it names. -/
theorem Node.levels_le (cost : String → Nat) {most : Nat} (node : Node)
    (h : ∀ name ∈ node.names, cost name ≤ most) : node.levels cost ≤ node.height + most := by
  have halias : node.alias?.elim 0 cost ≤ most := by
    cases hname : node.alias? with
    | none => exact Nat.zero_le _
    | some name => exact h name (mem_names_of_alias? hname)
  have hchildren : (node.children.map fun child => child.levels cost).foldr max 0 ≤
      (node.children.map fun child => child.height).foldr max 0 + most := by
    refine List.max_le_of_forall_le _ _ (List.forall_mem_map.mpr fun child hchild => ?_)
    have hle := child.levels_le cost fun name hname => h name (mem_names_of_mem_children hchild hname)
    have hmax : child.height ≤ (node.children.map fun child => child.height).foldr max 0 :=
      List.le_max_of_le (List.mem_map_of_mem hchild) (le_refl _)
    omega
  have hheight : node.height = (node.children.map fun child => child.height).foldr max 0 + 1 := by
    unfold height
    rw [levels_eq]
    cases node.alias? <;> simp
  rw [levels_eq, hheight]
  omega
termination_by sizeOf node
decreasing_by exact sizeOf_lt_of_mem_children hchild

namespace Column

variable {columns pre post : List Column} {column : Column} {name : String}

/-- Ordered columns need the levels that they cost. -/
theorem levels_le_cost (hnodup : (columns.map Column.name).Nodup) (hordered : Ordered columns)
    {definition : Node} (h : Entries.get? (definitions columns) name = some definition) :
    definition.levels (cost columns 0) ≤ cost columns 0 name := by
  obtain ⟨column, hcolumn, rfl, rfl⟩ := exists_of_get?_definitions h
  obtain ⟨pre, post, rfl⟩ := List.append_of_mem hcolumn
  have hlevels := column.expression.levels_le (cost (pre ++ column :: post) 0) fun name hname =>
    (cost_le 0 (hordered.split name hname)).trans (Nat.le_of_eq (Nat.zero_add _))
  rw [List.map_append, List.map_cons] at hnodup
  have hnew : column.name ∉ pre.map Column.name := fun hmem =>
    (List.nodup_append.mp hnodup).2.2 _ hmem _ List.mem_cons_self rfl
  rw [cost_self hnew]
  omega

/-! ## Slots -/

theorem map_fst_of_bindSlots {ctx after : Context} {slots : List (String × Expr)}
    (h : bindSlots columns ctx = (.ok slots, after)) : slots.map Prod.fst = columns.map Column.name := by
  induction columns generalizing ctx slots with
  | nil =>
    cases h
    rfl
  | cons column rest ih =>
    obtain ⟨e, c, tail, -, htail, rfl⟩ := exists_of_bindSlots_cons h
    rw [List.map_cons, List.map_cons, ih htail]

/-- What a column was bound to in its turn: the columns before it were defined then, and those from it
on have been defined since. -/
theorem bindSlots_split {ctx after : Context} {slots : List (String × Expr)}
    (h : bindSlots (pre ++ column :: post) ctx = (.ok slots, after)) :
    ∃ c e, (ctx.withColumns pre).Frame c ∧ (c.withColumns (column :: post)).Frame after ∧
      (column.expression.bind c).1 = .ok e ∧ (column.name, e) ∈ slots := by
  induction pre generalizing ctx slots with
  | nil =>
    have hstep := bindSlots_step h
    obtain ⟨e, c, tail, he, -, rfl⟩ := exists_of_bindSlots_cons h
    exact ⟨ctx, e, .refl ctx, hstep, congrArg Prod.fst he, List.mem_cons_self⟩
  | cons earlier rest ih =>
    obtain ⟨x, c₁, tail, hx, htail, rfl⟩ := exists_of_bindSlots_cons h
    obtain ⟨c, e, hbefore, hafter, he, hmem⟩ := ih htail
    have hframe := BindM.Keeps.frame earlier.expression.bind_keeps hx
    exact ⟨c, e, (hframe.withColumns (earlier :: rest)).trans hbefore, hafter, he,
      List.mem_cons_of_mem _ hmem⟩

theorem bindAll_cases {ctx after : Context} {row : Lambda} (h : bindAll columns ctx = (.ok row, after)) :
    ∃ slots, bindSlots columns ctx = (.ok slots, after) ∧
      row = ⟨after.current,
        .wrapper (.compute after.currentExpr after.modelExpr (Expr.mkContainer? slots))⟩ := by
  obtain ⟨slots, c, hslots, h⟩ := BindM.exists_of_bind_eq_ok h
  cases h
  exact ⟨slots, BindM.eq_of_allOrNothing_eq_ok hslots, rfl⟩

end Column

/-! ## Columns bound again -/

namespace Context

/-- The numbers in what flattening has put in place of properties are below the next one. -/
def ReadsBelow (ctx : Context) : Prop :=
  ∀ key e, Entries.get? ctx.flattened key = some e → e.NumberedBelow ctx.nextId

theorem initial_readsBelow (schema : Schema) (settings : Settings) (element : HostType) :
    (initial schema settings element).ReadsBelow := fun _ _ h => by cases h

theorem ReadsBelow.frame {ctx after : Context} (h : ctx.ReadsBelow) (hframe : ctx.Frame after) :
    after.ReadsBelow := by
  intro key e he
  rw [hframe.flattened] at he
  exact (h key e he).mono hframe.nextId

/-- Slots are read from the parameter of flattened records. -/
theorem readsBelow_enterFlattening {ctx : Context} {p : Param} (h : p.id < ctx.nextId)
    (slots : List (String × String × Expr)) :
    (ctx.enterFlattening p (Flattening.slotReads p slots)).ReadsBelow := by
  intro key e he f hf
  obtain ⟨slot, -, hslot⟩ := List.mem_map.mp (Entries.mem_of_get?_ofPairs he)
  obtain ⟨-, rfl⟩ := Prod.mk.inj hslot
  refine .of_rewrite ?_
  simp only [Expr.rewrite, Rewriting.renumbering, Param.mapId_of_fixed (hf p.id h)]
  rfl

theorem ReadsBelow.flatten {t : Transformation} {source : Expr} {ctx after : Context}
    {f : Option Flattening} (h : ctx.ReadsBelow) (hflatten : t.flatten source ctx = (.ok f, after)) :
    after.ReadsBelow := by
  obtain ⟨-, -, rfl⟩ | ⟨-, bound, c, p, -, rfl, rfl, -⟩ := Transformation.flatten_cases hflatten
  · exact h
  · exact readsBelow_enterFlattening (Nat.lt_succ_self c.nextId) _

theorem ReadsBelow.applyTo [External] {ctx : Context} (h : ctx.ReadsBelow) (t : Transformation)
    (source : Expr) : (t.applyTo source ctx).2.ReadsBelow := by
  rcases happly : t.applyTo source ctx with ⟨error | e, after⟩
  · exact h.frame ((t.applyTo_atomic source).frame happly)
  · obtain ⟨f, c, hflatten, hrest⟩ :=
      BindM.exists_of_bind_eq_ok (BindM.eq_of_allOrNothing_eq_ok happly)
    obtain ⟨bound, c₁, hbound, hrest⟩ := BindM.exists_of_bind_eq_ok hrest
    cases hrest
    exact (h.flatten hflatten).frame (t.bindAggregation_keeps.frame hbound)

/-- **Flattened reads keep to old numbers**, whatever is bound and whether it fails or not. -/
theorem ReadsBelow.after [External] {ctx : Context} (h : ctx.ReadsBelow) :
    (∀ clause : FilterClause, (clause.bind ctx).2.ReadsBelow) ∧
      (∀ keys : List OrderKey, (OrderKey.bindAll keys ctx).2.ReadsBelow) ∧
      (∀ columns : List Column, (Column.bindAll columns ctx).2.ReadsBelow) ∧
      (∀ t : Transformation, (t.bindAggregation ctx).2.ReadsBelow) ∧
      ∀ (t : Transformation) (source : Expr), (t.applyTo source ctx).2.ReadsBelow := by
  refine ⟨fun clause => ?_, fun keys => ?_, fun columns => ?_, fun t => ?_, h.applyTo⟩
  · exact h.frame (clause.bind_keeps ctx)
  · exact h.frame (OrderKey.bindAll_keeps keys ctx)
  · have hcolumns : (ctx.withColumns columns).ReadsBelow := h
    exact (Column.bindAll_atomic columns).after hcolumns.frame h.frame
  · exact h.frame (t.bindAggregation_keeps ctx)

/-- Later in the clause, one level deeper and with one more level. -/
theorem Numbered.later {c after : Context} {columns : List Column} (hc : c.Numbered)
    (hreads : c.ReadsBelow) (h : (c.withColumns columns).Frame after) :
    Later c.nextId (after.nextId - c.nextId) c.computed after.computed c
      (after.limited (after.settings.maxDepth + 1)).deeper := by
  have hkeep {id : Nat} (hid : id < c.nextId) : moveUp c.nextId (after.nextId - c.nextId) id = id :=
    moveUp_of_lt hid
  have hnext : c.nextId ≤ after.nextId := h.nextId
  have hsettings : after.settings = c.settings := h.settings
  refine {
    schema := h.schema.symm
    nullPropagation := by rw [← hsettings]; rfl
    parameterizeConstants := by rw [← hsettings]; rfl
    limit := by
      rw [← hsettings]
      exact Nat.lt_succ_self _
    depth := Nat.succ_le_succ (Nat.le_of_eq h.depth)
    current := h.current.trans (Param.mapId_of_fixed (hkeep hc.current)).symm
    root := h.root.trans (Param.mapId_of_fixed (hkeep hc.root)).symm
    scope := fun name => ?_
    flatteningSource := h.flatteningSource.symm
    reads := fun node => ?_
    left_computed := rfl
    right_computed := rfl
    above := Nat.le_refl _
    nextId := by
      simp only [limited, deeper]
      omega }
  · have hscope : after.scope = c.scope := h.scope
    simp only [limited, deeper, hscope]
    cases hp : Entries.get? c.scope name with
    | none => rfl
    | some p => exact congrArg some (Param.mapId_of_fixed (hkeep (hc.scope name p hp))).symm
  · have hflattened : after.flattened = c.flattened := h.flattened
    simp only [flattenedRead?, limited, deeper, hflattened]
    cases hread : node.path?.bind fun path => Entries.get? c.flattened (Node.pathKey path) with
    | none => exact .none
    | some e =>
      obtain ⟨path, -, hget⟩ := Option.bind_eq_some_iff.mp hread
      exact .some (hreads _ e hget _ fun id hid => hkeep hid)

/-- A node that was bound is bound later in the clause, one level deeper and with one more level, to an
expression with the same values. -/
theorem Numbered.bind_later [External] {c after : Context} {columns : List Column} {node : Node} {e₁ : Expr}
    (hc : c.Numbered) (hreads : c.ReadsBelow) (hafter : (c.withColumns columns).Frame after)
    (hdefinitions : ∀ {name definition}, Entries.get? c.computed name = some definition →
      ∀ key ∈ definition.names, Entries.get? c.computed key = Entries.get? after.computed key)
    (hnode : ∀ key ∈ node.names, Entries.get? c.computed key = Entries.get? after.computed key)
    (he₁ : (node.bind c).1 = .ok e₁) :
    ∃ e₂, (node.bindWithin c.levelsLeft (after.limited (after.settings.maxDepth + 1)).deeper).1 = .ok e₂ ∧
      ∀ record, e₂.eval [(c.current.id, record)] = e₁.eval [(c.current.id, record)] := by
  obtain ⟨e₂, _, he₂, hmoved, -⟩ :=
    (Later.bindWithin hdefinitions c.levelsLeft hnode).ok (hc.later hreads hafter) (Prod.ext he₁ rfl)
  refine ⟨e₂, congrArg Prod.fst he₂, fun record => hmoved.eval (moveUp_injective _ _) ?_⟩
  simp only [Env.mapId, List.map_cons, List.map_nil, moveUp_of_lt hc.current]

end Context

/-- A property of the name of a column is bound to the definition of the column, one level deeper. -/
theorem Node.bind_openProperty {ctx : Context} {name : String} {definition : Node} (v : RangeVariable)
    (h : Entries.get? ctx.computed name = some definition) (hroom : ctx.depth < ctx.settings.maxDepth) :
    ((Node.openProperty (.rangeVariable v) name).bind ctx).1 =
      (definition.bindWithin (ctx.levelsLeft - 1) ctx.deeper).1 := by
  obtain ⟨levels, hlevels⟩ : ∃ levels, ctx.levelsLeft = levels + 1 :=
    ⟨ctx.levelsLeft - 1, by unfold Context.levelsLeft; omega⟩
  have hstep : Bind.step (bindWithin levels) (.openProperty (.rangeVariable v) name) ctx.deeper =
      definition.bindWithin levels ctx.deeper := by
    show Bind.openProperty (bindWithin levels) (.rangeVariable v) name ctx.deeper = _
    unfold Bind.openProperty
    rw [BindM.bind_of_ok (show BindM.context ctx.deeper = (.ok ctx.deeper, ctx.deeper) from rfl)]
    have hget : Bind.computed? ctx.deeper (.rangeVariable v) name = some definition := h
    rw [hget]
  rw [Node.bind, hlevels, bindWithin, BindM.descend_of_lt hroom, hstep, Nat.add_sub_cancel]

namespace Column

variable {columns : List Column} {column : Column} {ctx after : Context} {slots : List (String × Expr)}

/-- With one more level, an ordered column is bound again to what its slot holds. -/
theorem bind_again [External] (hnumbered : ctx.Numbered) (hreads : ctx.ReadsBelow)
    (hcomputed : ctx.computed = []) (hnodup : (columns.map Column.name).Nodup) (hordered : Ordered columns)
    (hlevels : 0 < ctx.levelsLeft) (h : bindSlots columns ctx = (.ok slots, after))
    (hcolumn : column ∈ columns) (v : RangeVariable) :
    ∃ e slot, ((Node.openProperty (.rangeVariable v) column.name).bind
        (after.limited (after.settings.maxDepth + 1))).1 = .ok e ∧ (column.name, slot) ∈ slots ∧
      ∀ record, e.eval [(after.current.id, record)] = slot.eval [(after.current.id, record)] := by
  have hafter := bindSlots_step h
  have hdefined := hafter.computed.trans (computed_withColumns hcomputed columns)
  obtain ⟨pre, post, rfl⟩ := List.append_of_mem hcolumn
  obtain ⟨c, slot, hc, hlater, hslot, hmem⟩ := bindSlots_split h
  have hturn := hc.computed.trans (computed_withColumns hcomputed pre)
  have hget : Entries.get? after.computed column.name = some column.expression := by
    rw [hdefined]
    rw [List.map_append, List.map_cons] at hnodup
    exact get?_definitions (List.nodup_cons.mp (List.nodup_append.mp hnodup).2.1).1
  have hbefore : (ctx.withColumns pre).Numbered := ⟨hnumbered.current, hnumbered.root, hnumbered.scope⟩
  have hreadsBefore : (ctx.withColumns pre).ReadsBelow := hreads
  -- what the column and those before it name is defined in its turn as it is in the end
  obtain ⟨e, he, heval⟩ := (hbefore.frame hc).bind_later (hreadsBefore.frame hc) hlater
    (fun hdefinition => by
      rw [hturn] at hdefinition ⊢
      rw [hdefined]
      exact hordered.earlier_agree hdefinition)
    (fun key hkey => by
      rw [hturn, hdefined]
      exact hordered.definitions_agree key hkey) hslot
  have hcurrent : after.current = c.current := hlater.current
  have hdepth : after.depth = c.depth := hlater.depth
  have hlimit : after.settings.maxDepth = c.settings.maxDepth :=
    congrArg Settings.maxDepth hlater.settings
  have hroom : after.depth < after.settings.maxDepth := by
    have hstart : after.depth = ctx.depth := hafter.depth
    have hsettings : after.settings = ctx.settings := hafter.settings
    rw [hstart, hsettings]
    exact Nat.lt_of_sub_pos hlevels
  have hleft : (after.limited (after.settings.maxDepth + 1)).levelsLeft - 1 = c.levelsLeft := by
    simp only [Context.levelsLeft, Context.limited, Settings.withMaxDepth, ← hdepth, ← hlimit]
    omega
  have hget : Entries.get? (after.limited (after.settings.maxDepth + 1)).computed column.name =
    some column.expression := hget
  refine ⟨e, slot, ?_, hmem, by rwa [hcurrent]⟩
  rw [Node.bind_openProperty v hget (Nat.lt_succ_of_lt hroom), hleft, he]

/-- A property of the name of an ordered column has the levels that it needs. -/
theorem openProperty_shallow (hcomputed : after.computed = definitions columns)
    (hnodup : (columns.map Column.name).Nodup) (hordered : Ordered columns)
    (hlevels : heights columns < after.levelsLeft) (hcolumn : column ∈ columns) (v : RangeVariable) :
    ((Node.openProperty (.rangeVariable v) column.name).bind after).1.Shallow := by
  have hcost : cost columns 0 column.name ≤ heights columns := by
    have hle : cost (columns ++ []) 0 column.name ≤ 0 + heights columns := cost_le 0 List.not_mem_nil
    rwa [List.append_nil, Nat.zero_add] at hle
  have hpos : 0 < heights columns := by
    cases columns with
    | nil => cases hcolumn
    | cons first rest =>
      rw [heights]
      exact Nat.add_pos_left Node.levels_pos _
  have hvariable : (Node.rangeVariable v).levels (cost columns 0) = 1 := by
    rw [Node.levels_eq]
    rfl
  refine Node.bind_shallow (levels_le_cost hnodup hordered) hcomputed ?_
  rw [Node.levels_eq]
  simp only [Node.alias?, Node.children, Node.parts, Option.elim_some, List.map_cons, List.map_nil,
    List.foldr_cons, List.foldr_nil, hvariable]
  omega

end Column

/-! ## Rows -/

/-- The value of a column in a row. -/
def Value.column (row : Value) (name : String) : Outcome Value := do
  (← row.member WrapperMember.container.text).slot name

/-- The columns of a row have the values of their slots. -/
theorem Expr.column_of_eval [External] {inst model slot : Expr} {slots : List (String × Expr)} {name : String}
    {env : Env} {row : Value} (hnodup : (slots.map Prod.fst).Nodup) (hslot : (name, slot) ∈ slots)
    (h : (Expr.wrapper (.compute inst model (some (.container slots)))).eval env = .ok row) :
    row.column name = slot.eval env := by
  obtain ⟨_, -, h⟩ := Outcome.bind_eq_ok.mp h
  obtain ⟨_, hcontainer, h⟩ := Outcome.bind_eq_ok.mp h
  obtain ⟨_, -, h⟩ := Outcome.bind_eq_ok.mp h
  obtain ⟨_, -, h⟩ := Outcome.bind_eq_ok.mp h
  obtain ⟨_, -, h⟩ := Outcome.bind_eq_ok.mp h
  cases h
  obtain ⟨_, hchain, h⟩ := Outcome.bind_eq_ok.mp hcontainer
  cases h
  obtain ⟨values, hvalues, h⟩ := Outcome.bind_eq_ok.mp hchain
  cases h
  obtain ⟨hnames, hmem⟩ := Expr.evalSlots_eq_ok hvalues
  obtain ⟨v, hv, hmem⟩ := hmem _ hslot
  rw [← hnames] at hnodup
  rw [hv]
  exact congrArg (orFail (.noSlot name)) (Entries.get?_of_mem hnodup hmem)

/-- **Computed columns mean what their slots hold.** Let columns of different names be bound in a
context without computed columns, such that no column names itself or a later one, and let the levels
that are left be more than the heights of all columns. Then a property of the name of a column is bound
from then on, and on every record it has the value of the slot of that column, or fails as the slot
does; where a row is made for the record, this is the value of the column in that row. -/
theorem computed_columns_mean_their_slots [External] {ctx after : Context} {columns : List Column}
    {row : Lambda} (hnumbered : ctx.Numbered) (hreads : ctx.ReadsBelow) (hcomputed : ctx.computed = [])
    (hnodup : (columns.map Column.name).Nodup) (hordered : Column.Ordered columns)
    (hlevels : Column.heights columns < ctx.levelsLeft)
    (hbind : Column.bindAll columns ctx = (.ok row, after)) {column : Column}
    (hcolumn : column ∈ columns) (v : RangeVariable) :
    ∃ e slots slot, ((Node.openProperty (.rangeVariable v) column.name).bind after).1 = .ok e ∧
      row.body = .wrapper (.compute after.currentExpr after.modelExpr (some (.container slots))) ∧
      Entries.get? slots column.name = some slot ∧
      ∀ record, e.eval [(row.param.id, record)] = slot.eval [(row.param.id, record)] ∧
        ∀ r, row.invoke record = .ok r → e.eval [(row.param.id, record)] = r.column column.name := by
  obtain ⟨slots, hslots, rfl⟩ := Column.bindAll_cases hbind
  have hnames := Column.map_fst_of_bindSlots hslots
  rw [← hnames] at hnodup
  have hafter := Column.bindSlots_step hslots
  have hleft : after.levelsLeft = ctx.levelsLeft := by
    unfold Context.levelsLeft
    rw [hafter.settings, hafter.depth]
    rfl
  obtain ⟨e, slot, he, hmem, heval⟩ := Column.bind_again hnumbered hreads hcomputed (hnames ▸ hnodup)
    hordered (Nat.zero_lt_of_lt hlevels) hslots hcolumn v
  -- the level that was added is not needed
  have hshallow := Column.openProperty_shallow
    (hafter.computed.trans (Column.computed_withColumns hcomputed columns)) (hnames ▸ hnodup) hordered
    (hleft ▸ hlevels) hcolumn v
  have hlimit := Node.bind_limited (.openProperty (.rangeVariable v) column.name) after
    (Nat.le_succ after.settings.maxDepth) hshallow
  have hchain : Expr.mkContainer? slots = some (.container slots) := by
    cases slots with
    | nil => cases hmem
    | cons _ _ => rfl
  rw [hchain]
  refine ⟨e, slots, slot, hlimit.symm.trans he, rfl, Entries.get?_of_mem hnodup hmem, fun record => ?_⟩
  exact ⟨heval record, fun r hr => (heval record).trans (Expr.column_of_eval hnodup hmem hr).symm⟩

/-! ### Prices of flattened sales -/

/-- The clause over flattened sales, after totals of prices by limits. -/
def flatContext : Context :=
  ((totalsBy (.property saleNode "Limit" .single)).applyTo lineSales lineContext).2

/-- The price and one, and twice that. -/
def raisedColumns : List Column :=
  [⟨.binary .add (.property (.property saleNode "Product" .navigation) "Price" .single)
      (.constant (.int32 1) none), "Raised"⟩,
    ⟨.binary .mul (.openProperty saleNode "Raised") (.constant (.int32 2) none), "Twice"⟩]

/-- A flattened sale with a price. -/
def flatSale : Value :=
  .wrapper (.flattening (.record "Sale" []) (.container [("Property0", .int32 4)]))

/-- The number in a column of the row of a record. -/
def Lambda.numberIn? [External] (row : Lambda) (name : String) (record : Value) : Option Int :=
  (row.invoke record).toOption.bind fun r => (r.column name).toOption.bind Value.asInt?

/-- Columns that give a number in a row are bound. -/
theorem Column.exists_of_numberIn? [External] {columns : List Column} {ctx : Context} {name : String}
    {record : Value} {n : Int}
    (h : ((bindAll columns ctx).1.toOption.bind fun row => row.numberIn? name record) = some n) :
    ∃ row, bindAll columns ctx = (.ok row, (bindAll columns ctx).2) ∧
      row.numberIn? name record = some n := by
  obtain ⟨row, hrow, hvalue⟩ := Option.bind_eq_some_iff.mp h
  exact ⟨row, Prod.ext (Outcome.toOption_eq_some.mp hrow) rfl, hvalue⟩

/-- The second column names the first one, and both are computed from the slot for the price. -/
theorem computed_columns_of_flattened_sales :
    ∃ row after e, Column.bindAll raisedColumns flatContext = (.ok row, after) ∧
      ((Node.openProperty saleNode "Twice").bind after).1 = .ok e ∧
      (∀ record r, row.invoke record = .ok r → e.eval [(row.param.id, record)] = r.column "Twice") ∧
      row.numberIn? "Twice" flatSale = some 10 := by
  have hcomputed : flatContext.computed = [] := List.isEmpty_iff.mp (by decide +kernel)
  have hnumbered : flatContext.Numbered :=
    (Context.initial_numbered lineSchema {} (.record "Sale")).after.2.2.2.2 _ _
  have hreads : flatContext.ReadsBelow :=
    (Context.initial_readsBelow lineSchema {} (.record "Sale")).after.2.2.2.2 _ _
  have hrow : ((Column.bindAll raisedColumns flatContext).1.toOption.bind fun row =>
      row.numberIn? "Twice" flatSale) = some 10 := by decide +kernel
  obtain ⟨row, hbind, hvalue⟩ := Column.exists_of_numberIn? hrow
  obtain ⟨e, slots, slot, he, -, -, heval⟩ := computed_columns_mean_their_slots hnumbered hreads
    hcomputed (by decide) (by decide +kernel) (by decide +kernel) hbind
    (List.mem_cons_of_mem _ List.mem_cons_self) ⟨RangeVariable.itName, .entity "Sale" true⟩
  exact ⟨row, _, e, hbind, he, fun record r hr => (heval record).2 r hr, hvalue⟩

/-! ### Columns that name later ones -/

/-- The clause over open items. -/
def openContext : Context :=
  .initial ⟨[("Item", ⟨"Item", [("Count", .int .int32), ("Bag", .dictionary)], some "Bag"⟩)], [], []⟩ {}
    (.record "Item")

/-- A property of the open item. -/
def openMember (name : String) : Node :=
  .openProperty (.rangeVariable ⟨RangeVariable.itName, .entity "Item" true⟩) name

/-- A property under another name, and a column in its place. -/
def shiftedColumns : List Column := [⟨openMember "Rank", "Old"⟩, ⟨.constant (.int32 1) none, "Rank"⟩]

/-- A member, counted on. -/
def raisedCount : List Column :=
  [⟨.binary .add (openMember "Count") (.constant (.int32 1) none), "Count"⟩]

/-- An open item with a rank. -/
def rankedItem : Value :=
  .record "Item" [("Count", .int32 3), ("Bag", .dictionary [("Rank", .int32 7)])]

/-- **Later columns change earlier ones.** The slot of the first column holds the rank of the item, but
a property of that name is bound to the second column. A column that names itself has a slot as well,
but a property of its name is bound to itself over and over. -/
theorem later_columns_change_earlier_ones :
    openContext.computed = [] ∧
      ((shiftedColumns.map Column.name).Nodup ∧
        Column.heights shiftedColumns < openContext.levelsLeft ∧
        ∃ row after e, Column.bindAll shiftedColumns openContext = (.ok row, after) ∧
          ((openMember "Old").bind after).1 = .ok e ∧
          row.numberIn? "Old" rankedItem = some 7 ∧
          (e.eval [(row.param.id, rankedItem)]).toOption.bind Value.asInt? = some 1) ∧
      ((raisedCount.map Column.name).Nodup ∧ Column.heights raisedCount < openContext.levelsLeft ∧
        ∃ row after, Column.bindAll raisedCount openContext = (.ok row, after) ∧
          row.numberIn? "Count" rankedItem = some 4 ∧
          failure? ((openMember "Count").bind after).1 =
            some "Query nesting depth 257 exceeds the limit of 256") := by
  refine ⟨rfl, ⟨by decide, by decide +kernel, ?_⟩, by decide, by decide +kernel, ?_⟩
  · have hrow : ((Column.bindAll shiftedColumns openContext).1.toOption.bind fun row =>
        row.numberIn? "Old" rankedItem) = some 7 := by decide +kernel
    have hbound : (((openMember "Old").bind
        (Column.bindAll shiftedColumns openContext).2).1.toOption.bind fun e =>
          (e.eval [(openContext.current.id, rankedItem)]).toOption.bind Value.asInt?) = some 1 := by
      decide +kernel
    obtain ⟨row, hbind, hvalue⟩ := Column.exists_of_numberIn? hrow
    obtain ⟨e, he, hchanged⟩ := Option.bind_eq_some_iff.mp hbound
    obtain ⟨slots, hslots, rfl⟩ := Column.bindAll_cases hbind
    have hcurrent : (Column.bindAll shiftedColumns openContext).2.current = openContext.current :=
      (Column.bindSlots_step hslots).current
    rw [← hcurrent] at hchanged
    exact ⟨_, _, e, hbind, Outcome.toOption_eq_some.mp he, hvalue, hchanged⟩
  · have hrow : ((Column.bindAll raisedCount openContext).1.toOption.bind fun row =>
        row.numberIn? "Count" rankedItem) = some 4 := by decide +kernel
    obtain ⟨row, hbind, hvalue⟩ := Column.exists_of_numberIn? hrow
    exact ⟨row, _, hbind, hvalue, by decide +kernel⟩

end TypedQuery
