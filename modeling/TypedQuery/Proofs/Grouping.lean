import Mathlib.Algebra.Ring.Nat
import Mathlib.Data.List.Induction
import TypedQuery.Proofs.Aggregates
import TypedQuery.Proofs.Equality
import TypedQuery.Proofs.Locality

/-!
# Grouping

What a transformation that groups and aggregates gives, said without binding and without groups that
grow item by item: every item has a key, and every key that occurs has a row, with the parts of the
key and with the aggregates of the items that have it.

* `Node.valueOn`, `GroupingProperty.valueOn`, `PropertyAggregate.valueOver`: what the parts of a
  transformation are at an item and over items.
* `Transformation.groupedRows`: the rows of items.
* **`grouping_gives_a_row_for_each_key`**: the bound transformation gives these rows.
-/

namespace TypedQuery

/-! ## Distinct keys -/

section Distinct

variable {α : Type} [BEq α]

/-- The last of some values is kept if it equals none of those that are kept before it. -/
theorem eraseDups_concat (as : List α) (x : α) :
    (as ++ [x]).eraseDups =
      if as.eraseDups.any (x == ·) then as.eraseDups else as.eraseDups ++ [x] := by
  have run : ∀ (as kept : List α), List.eraseDupsBy.loop (· == ·) (as ++ [x]) kept =
      if (List.eraseDupsBy.loop (· == ·) as kept).any (x == ·)
        then List.eraseDupsBy.loop (· == ·) as kept
        else List.eraseDupsBy.loop (· == ·) as kept ++ [x] := by
    intro as
    induction as with
    | nil =>
      intro kept
      simp only [List.nil_append, List.eraseDupsBy.loop, List.any_reverse]
      cases kept.any (x == ·) <;> simp
    | cons a rest ih =>
      intro kept
      have hcons (as : List α) : List.eraseDupsBy.loop (· == ·) (a :: as) kept =
          List.eraseDupsBy.loop (· == ·) as (if kept.any (a == ·) then kept else a :: kept) := by
        rw [List.eraseDupsBy.loop]
        cases kept.any (a == ·) <;> rfl
      rw [List.cons_append, hcons, hcons]
      exact ih _
  exact run as []

theorem mem_of_mem_eraseDups {as : List α} {a : α} (h : a ∈ as.eraseDups) : a ∈ as := by
  induction as using List.reverseRecOn with
  | nil => simp at h
  | append_singleton as x ih =>
    rw [eraseDups_concat] at h
    rw [List.mem_append]
    split_ifs at h
    · exact .inl (ih h)
    · exact (List.mem_append.mp h).imp_left ih

/-- A value equals one of those that are kept. -/
theorem exists_mem_eraseDups {as : List α} (hrefl : ∀ a ∈ as, (a == a) = true) {a : α} (ha : a ∈ as) :
    ∃ d ∈ as.eraseDups, (a == d) = true := by
  induction as using List.reverseRecOn with
  | nil => simp at ha
  | append_singleton as x ih =>
    have hrest := ih fun b hb => hrefl b (List.mem_append_left _ hb)
    rw [eraseDups_concat]
    split_ifs with hx
    · rcases List.mem_append.mp ha with ha | ha
      · exact hrest ha
      · rw [List.mem_singleton.mp ha]
        exact List.any_eq_true.mp hx
    · rcases List.mem_append.mp ha with ha | ha
      · obtain ⟨d, hd, had⟩ := hrest ha
        exact ⟨d, List.mem_append_left _ hd, had⟩
      · rw [List.mem_singleton.mp ha]
        exact ⟨x, by simp, hrefl x (by simp)⟩

theorem pairwise_eraseDups (as : List α) : as.eraseDups.Pairwise fun a b => (b == a) = false := by
  induction as using List.reverseRecOn with
  | nil => exact .nil
  | append_singleton as x ih =>
    rw [eraseDups_concat]
    split_ifs with hx
    · exact ih
    · refine List.pairwise_append.mpr ⟨ih, List.pairwise_singleton _ _, fun a ha b hb => ?_⟩
      rw [List.mem_singleton.mp hb]
      simpa using fun h => hx (List.any_eq_true.mpr ⟨a, ha, h⟩)

end Distinct

/-! ## Groups -/

/-- The key of a group: the slots of what is grouped by. -/
def Value.groupKey (slots : List (String × Value)) : Value := .wrapper (.groupBy (.container slots))

theorem Value.groupKey_wellFormed {slots : List (String × Value)} (h : ∀ s ∈ slots, s.2.WellFormed) :
    (groupKey slots).WellFormed := by
  refine .wrapper fun m a ha => ?_
  cases m <;> cases ha
  exact .container h

/-- Values that are keys of groups. -/
structure Value.IsKey (v : Value) : Prop where
  wellFormed : v.WellFormed
  slots : ∃ slots, v = groupKey slots

namespace Value.IsKey

variable {a b c : Value}

theorem looselyEquals (ha : a.IsKey) (hb : b.IsKey) : a.looselyEquals b = (a == b) := by
  obtain ⟨_, rfl⟩ := ha.slots
  obtain ⟨_, rfl⟩ := hb.slots
  rfl

theorem refl (ha : a.IsKey) : (a == a) = true := beq_refl ha.wellFormed

theorem comm (ha : a.IsKey) (hb : b.IsKey) : (a == b) = (b == a) :=
  Bool.eq_iff_iff.mpr ⟨beq_symm ha.wellFormed hb.wellFormed, beq_symm hb.wellFormed ha.wellFormed⟩

theorem trans (ha : a.IsKey) (hab : (a == b) = true) (hbc : (b == c) = true) : (a == c) = true :=
  beq_trans ha.wellFormed hab hbc

end Value.IsKey

/-- The items with a key, in their order, from a list of keys and items. -/
def itemsWithKey (pairs : List (Value × Value)) (key : Value) : List Value :=
  (pairs.filter fun p => p.1 == key).map Prod.snd

/-- The groups of items, one for each key. -/
def groupsOf (pairs : List (Value × Value)) : List Group :=
  (pairs.map Prod.fst).eraseDups.map fun key => ⟨key, itemsWithKey pairs key⟩

/-- An item is added to the one group that has its key, or else as a group of its own. -/
theorem addToGroups_map {key item : Value} (hkey : key.IsKey) (members : Value → List Value)
    {keys : List Value} (hkeys : ∀ k ∈ keys, k.IsKey)
    (hdistinct : keys.Pairwise fun a b => (b == a) = false) :
    addToGroups key item (keys.map fun k => ⟨k, members k⟩) =
      if keys.any (key == ·)
        then keys.map fun k => ⟨k, members k ++ if key == k then [item] else []⟩
        else keys.map (fun k => ⟨k, members k⟩) ++ [⟨key, [item]⟩] := by
  induction keys with
  | nil => rfl
  | cons k rest ih =>
    have hk := hkeys k List.mem_cons_self
    have hrest (a : Value) (ha : a ∈ rest) := hkeys a (List.mem_cons_of_mem _ ha)
    rw [List.pairwise_cons] at hdistinct
    rw [List.map_cons, addToGroups, hk.looselyEquals hkey, hk.comm hkey, List.any_cons]
    by_cases heq : (key == k) = true
    · -- no other key equals this one
      have hother : ∀ a ∈ rest, (key == a) = false := by
        intro a ha
        by_contra hne
        have hka := hk.trans (hk.comm hkey ▸ heq) (by simpa using hne)
        rw [hk.comm (hrest a ha), hdistinct.1 a ha] at hka
        cases hka
      simp only [heq, if_true, Bool.true_or, List.map_cons, List.cons.injEq, true_and]
      refine List.map_congr_left fun a ha => ?_
      simp [hother a ha]
    · have heq : (key == k) = false := by simpa using heq
      rw [ih hrest hdistinct.2]
      simp only [heq, Bool.false_or, Bool.false_eq_true, if_false, List.map_cons, List.append_nil]
      split_ifs <;> rfl

/-- **Items that are added one by one are grouped by key.** -/
theorem foldl_addToGroups {pairs : List (Value × Value)} (h : ∀ p ∈ pairs, p.1.IsKey) :
    pairs.foldl (fun groups p => addToGroups p.1 p.2 groups) [] = groupsOf pairs := by
  induction pairs using List.reverseRecOn with
  | nil => rfl
  | append_singleton pairs p ih =>
    obtain ⟨key, item⟩ := p
    have hpairs : ∀ p ∈ pairs, p.1.IsKey := fun p hp => h p (List.mem_append_left _ hp)
    have hkey : key.IsKey := h (key, item) (by simp)
    have hkeys : ∀ k ∈ (pairs.map Prod.fst).eraseDups, k.IsKey := by
      intro k hk
      obtain ⟨p, hp, rfl⟩ := List.mem_map.mp (mem_of_mem_eraseDups hk)
      exact hpairs p hp
    have hrefl : ∀ k ∈ pairs.map Prod.fst, (k == k) = true := by
      intro k hk
      obtain ⟨p, hp, rfl⟩ := List.mem_map.mp hk
      exact (hpairs p hp).refl
    rw [List.foldl_append, ih hpairs, List.foldl_cons, List.foldl_nil, groupsOf,
      addToGroups_map hkey (itemsWithKey pairs) hkeys (pairwise_eraseDups _), groupsOf, List.map_append,
      List.map_singleton, eraseDups_concat]
    have hmembers (k : Value) : itemsWithKey (pairs ++ [(key, item)]) k =
        itemsWithKey pairs k ++ if key == k then [item] else [] := by
      unfold itemsWithKey
      rw [List.filter_append, List.map_append]
      cases hk : key == k <;> simp [hk]
    split_ifs with hany
    · simp only [hmembers]
    · -- no item before this one has its key
      have hother (k : Value) (hk : k ∈ (pairs.map Prod.fst).eraseDups) : (key == k) = false := by
        simpa using fun heq => hany (List.any_eq_true.mpr ⟨k, hk, heq⟩)
      have hnone : itemsWithKey pairs key = [] := by
        refine List.map_eq_nil_iff.mpr (List.filter_eq_nil_iff.mpr fun p hp heq => ?_)
        obtain ⟨d, hd, hpd⟩ := exists_mem_eraseDups hrefl (List.mem_map_of_mem hp)
        have hkd := hkey.trans (hkey.comm (hpairs p hp) ▸ heq) hpd
        rw [hother d hd] at hkd
        cases hkd
      rw [List.map_append, List.map_singleton, hmembers, hnone, hkey.refl]
      refine congrArg (· ++ _) (List.map_congr_left fun k hk => ?_)
      rw [hmembers, hother k hk]
      simp

/-- Grouping finds the keys of all items and then adds the items to their groups. -/
theorem groupItems_eq (key : Value → Outcome Value) (items : List Value) :
    groupItems key items = items.mapM key >>= fun keys =>
      .ok ((keys.zip items).foldl (fun groups p => addToGroups p.1 p.2 groups) []) := by
  have run : ∀ (items : List Value) (groups : List Group),
      items.foldlM (fun groups item => do return addToGroups (← key item) item groups) groups =
        items.mapM key >>= fun keys =>
          .ok ((keys.zip items).foldl (fun groups p => addToGroups p.1 p.2 groups) groups) := by
    intro items
    induction items with
    | nil => intro groups; rfl
    | cons v rest ih =>
      intro groups
      rw [List.foldlM_cons, List.mapM_cons]
      cases key v with
      | error e => rfl
      | ok k =>
        simp only [Outcome.ok_bind, bind_assoc, pure_bind, ih]
        rfl
  exact run items []

/-- The groups have as many items as there are. -/
theorem length_addToGroups (key item : Value) (groups : List Group) :
    ((addToGroups key item groups).map fun g => g.items.length).sum =
      (groups.map fun g => g.items.length).sum + 1 := by
  induction groups with
  | nil => rfl
  | cons g rest ih =>
    rw [addToGroups]
    split
    · simp only [List.map_cons, List.sum_cons, List.length_append, List.length_singleton]
      omega
    · simp only [List.map_cons, List.sum_cons, ih]
      omega

theorem sum_length_groupsOf {pairs : List (Value × Value)} (h : ∀ p ∈ pairs, p.1.IsKey) :
    ((pairs.map Prod.fst).eraseDups.map fun k => (itemsWithKey pairs k).length).sum = pairs.length := by
  have run : ∀ (pairs : List (Value × Value)) (groups : List Group),
      ((pairs.foldl (fun groups p => addToGroups p.1 p.2 groups) groups).map
        fun g => g.items.length).sum = (groups.map fun g => g.items.length).sum + pairs.length := by
    intro pairs
    induction pairs with
    | nil => intro groups; rfl
    | cons p rest ih =>
      intro groups
      rw [List.foldl_cons, ih, length_addToGroups, List.length_cons]
      omega
  have hrun := run pairs []
  rw [foldl_addToGroups h, groupsOf, List.map_map, List.map_nil, List.sum_nil, Nat.zero_add] at hrun
  exact hrun

/-! ## What a transformation gives -/

/-- The value of a node at a record of a clause. -/
def Node.valueOn [External] (ctx : Context) (node : Node) (item : Value) : Outcome Value := do
  let e ← (node.bind ctx).1
  e.eval [(ctx.current.id, item)]

namespace GroupingProperty

mutual

/-- The value of a property to group by at a record. -/
def valueOn [External] (ctx : Context) (item : Value) (g : GroupingProperty) : Outcome Value :=
  match g with
  | .mk _ expression children =>
    if children.isEmpty then
      match expression with
      | some e => e.valueOn ctx item
      | none => .error (.argumentNull "grouping property expression")
    else do return Value.groupKey (← slotsOn ctx item children)
termination_by structural g

/-- The values of properties to group by at a record, with their names. -/
def slotsOn [External] (ctx : Context) (item : Value) (gs : List GroupingProperty) :
    Outcome (List (String × Value)) :=
  match gs with
  | [] => return []
  | g :: rest => do
    let v ← valueOn ctx item g
    return (g.name, v) :: (← slotsOn ctx item rest)
termination_by structural gs

end

end GroupingProperty

/-- An aggregate of records: of the values of its input at the records, or their number. -/
def PropertyAggregate.valueOver [External] (ctx : Context) (items : List Value) (a : PropertyAggregate) :
    Outcome Value :=
  if a.method = .count then return .int64 items.length
  else
    match a.input with
    | some node => do
      let e ← (node.bind ctx).1
      let values ← items.mapM (node.valueOn ctx)
      a.method.aggregate ctx.schema e.type values
    | none => .error (.argumentNull "aggregate expression")

/-- An aggregate of records with its name. -/
def PropertyAggregate.slotOver [External] (ctx : Context) (items : List Value) (a : PropertyAggregate) :
    Outcome (String × Value) := do
  return (a.name, ← a.valueOver ctx items)

/-- The row of a group: the slots of its key, and its aggregates with their names if there are
any. -/
def Value.groupRow (slots aggregates : List (String × Value)) : Value :=
  .wrapper (.aggregation (if aggregates.isEmpty then none else some (.container aggregates))
    (some (.container slots)))

/-- The slots of the key of a group. -/
def Value.keySlots : Value → List (String × Value)
  | .wrapper ⟨_, some (.container slots), _, _, _, _⟩ => slots
  | _ => []

/-- The rows of records that are grouped and aggregated: one for each key, in the order in which the
keys occur first, with the aggregates of the records that have the key. -/
def groupedRows [External] (ctx : Context) (properties : List GroupingProperty)
    (aggregates : List PropertyAggregate) (items : List Value) : Outcome (List Value) := do
  let slots ← items.mapM (GroupingProperty.slotsOn ctx · properties)
  let keys := slots.map Value.groupKey
  keys.eraseDups.mapM fun key => do
    let members := itemsWithKey (keys.zip items) key
    let values ← aggregates.mapM (PropertyAggregate.slotOver ctx members)
    return Value.groupRow key.keySlots values

/-! ## Bound transformations -/

/-- The key of a group that slots give. -/
theorem Expr.eval_key [External] (slots : List (String × Expr)) (env : Env) :
    (Expr.wrapper (.groupBy (.container slots))).eval env =
      evalSlots slots env >>= fun values => .ok (Value.groupKey values) := by
  simp only [Expr.eval, Wrapper.groupBy, Wrapper.empty, evalMember]
  cases evalSlots slots env <;> rfl

section Bound

variable [External] {ctx : Context} (hfresh : ctx.Fresh) (hid : ctx.current.id < ctx.nextId)
include hfresh hid

theorem Node.eval_of_bind {node : Node} {c c' : Context} {e : Expr} (hc : ctx.Frame c)
    (he : node.bind c = (.ok e, c')) (item : Value) (env : Env) :
    e.eval ((ctx.current.id, item) :: env) = node.valueOn ctx item := by
  obtain ⟨e₀, he₀, -, heval⟩ := hfresh.bind_of_frame hid hc he
  rw [heval, Node.valueOn, he₀, Outcome.ok_bind]

omit hfresh hid in
mutual

theorem GroupingProperty.eval_of_bindValue (hfresh : ctx.Fresh) (hid : ctx.current.id < ctx.nextId) :
    ∀ (g : GroupingProperty) {c c' : Context} {e : Expr}, ctx.Frame c →
      bindValue g c = (.ok e, c') → ∀ item, e.eval [(ctx.current.id, item)] = valueOn ctx item g
  | .mk name expression children, c, c', e, hc, h, item => by
    unfold bindValue at h
    unfold valueOn
    split_ifs at h ⊢ with hchildren
    · cases expression with
      | none => cases h
      | some node => exact node.eval_of_bind hfresh hid hc h item []
    · obtain ⟨slots, c₁, hslots, h⟩ := BindM.exists_of_bind_eq_ok h
      cases h
      rw [Expr.eval_key, eval_of_bindSlots hfresh hid children hc hslots item]
      rfl
termination_by structural g => g

theorem GroupingProperty.eval_of_bindSlots (hfresh : ctx.Fresh) (hid : ctx.current.id < ctx.nextId) :
    ∀ (gs : List GroupingProperty) {c c' : Context} {slots : List (String × Expr)}, ctx.Frame c →
      bindSlots gs c = (.ok slots, c') →
        ∀ item, Expr.evalSlots slots [(ctx.current.id, item)] = slotsOn ctx item gs
  | [], _, _, _, _, h, _ => by
    cases h
    rfl
  | g :: rest, c, c', slots, hc, h, item => by
    unfold bindSlots at h
    obtain ⟨e, c₁, he, h⟩ := BindM.exists_of_bind_eq_ok h
    obtain ⟨tail, c₂, htail, h⟩ := BindM.exists_of_bind_eq_ok h
    cases h
    have hframe := bindValue_keeps g c
    rw [he] at hframe
    rw [Expr.evalSlots, eval_of_bindValue hfresh hid g hc he item,
      eval_of_bindSlots hfresh hid rest (hc.trans hframe) htail item, slotsOn]
termination_by structural gs => gs

end

/-- A bound aggregate of a group gives the aggregate of its items. -/
theorem PropertyAggregate.eval_of_bind {a : PropertyAggregate} {g : Param} {c c' : Context}
    {slot : Expr} (hc : ctx.Frame c) (h : a.bind (.param g) c = (.ok slot, c')) (key : Value)
    (items : List Value) :
    (slot.eval (Expr.groupEnv g key items)).toOption = (a.valueOver ctx items).toOption := by
  unfold valueOver
  by_cases hcount : a.method = .count
  · unfold PropertyAggregate.bind at h
    rw [if_pos hcount] at h
    cases h
    rw [Expr.eval_count_group Expr.lookup_group, if_pos hcount]
    rfl
  · obtain ⟨node, e, c₁, hinput, he, hcombine⟩ := exists_of_bind hcount h
    have hframe := node.bind_keeps c
    rw [he] at hframe
    have hframe := hc.trans hframe
    obtain ⟨e₀, he₀, htype, -⟩ := hfresh.bind_of_frame hid hc he
    have hvalues : valuesIn (Expr.groupEnv g key items) ctx.current items e = items.mapM (node.valueOn ctx) :=
      Outcome.mapM_congr fun v _ => node.eval_of_bind hfresh hid hc he v _
    rw [hframe.schema, hframe.current] at hcombine
    rw [combine_eval Expr.lookup_group hcount hcombine, hvalues, if_neg hcount, hinput, ← htype]
    simp only [he₀, Outcome.ok_bind]

/-- The bound aggregates of a group give the aggregates of its items, each with its name. -/
theorem AggregateExpr.eval_of_bindSlots {aggregates : List PropertyAggregate} {g : Param}
    {c c' : Context} {slots : List (String × Expr)} (hc : ctx.Frame c)
    (h : bindSlots (aggregates.map .property) (.param g) c = (.ok slots, c')) (key : Value)
    (items : List Value) :
    (Expr.evalSlots slots (Expr.groupEnv g key items)).toOption =
      (aggregates.mapM (PropertyAggregate.slotOver ctx items)).toOption := by
  have hslots := forall₂_of_bindSlots h
  clear h
  induction aggregates generalizing slots with
  | nil =>
    cases hslots
    rfl
  | cons a rest ih =>
    cases hslots with
    | @cons _ s _ tail hs htail =>
      obtain ⟨name, e⟩ := s
      obtain ⟨hname, c₁, c₂, hc₁, he⟩ := hs
      rw [AggregateExpr.bind] at he
      have heval := a.eval_of_bind hfresh hid (hc.trans hc₁) he key items
      cases hname
      simp only [Expr.evalSlots, List.mapM_cons, PropertyAggregate.slotOver, Outcome.toOption_bind, heval,
        ih htail]
      cases (a.valueOver ctx items).toOption <;> rfl

/-- The bound key of a record. -/
theorem Transformation.eval_of_bindKey {properties : List GroupingProperty}
    {aggregates : List AggregateExpr} (hne : properties ≠ []) {key : Lambda} {c : Context}
    (h : (groupBy properties aggregates).bindKey ctx = (.ok key, c)) (item : Value) :
    key.invoke item = GroupingProperty.slotsOn ctx item properties >>= fun slots =>
      .ok (Value.groupKey slots) := by
  unfold bindKey at h
  have hempty : (groupBy properties aggregates).grouping.isEmpty = false := by
    simpa [grouping] using hne
  simp only [hempty, Bool.false_eq_true, if_false] at h
  obtain ⟨slots, c₁, hslots, h⟩ := BindM.exists_of_bind_eq_ok h
  have hframe := GroupingProperty.bindSlots_keeps (groupBy properties aggregates).grouping ctx
  rw [hslots] at hframe
  have hcurrent : c₁.current = ctx.current := hframe.current
  cases h
  unfold Lambda.invoke
  rw [hcurrent, Expr.eval_key]
  exact congrArg (· >>= _)
    (GroupingProperty.eval_of_bindSlots hfresh hid _ (Context.Frame.refl ctx) hslots item)

/-! ### Well-formed keys -/

theorem Node.valueOn_wellFormed (node : Node) {item : Value} (hitem : item.WellFormed) :
    (node.valueOn ctx item).Gives Value.WellFormed := by
  unfold Node.valueOn
  cases he : (node.bind ctx).1 with
  | error e => trivial
  | ok e =>
    have henv : Env.WellFormed [] := fun _ _ h => by cases h
    exact hfresh.bind_sound hid he _ (henv.cons _ hitem)

omit hfresh hid in
mutual

theorem GroupingProperty.valueOn_wellFormed (hfresh : ctx.Fresh) (hid : ctx.current.id < ctx.nextId)
    {item : Value} (hitem : item.WellFormed) :
    ∀ g : GroupingProperty, (valueOn ctx item g).Gives Value.WellFormed
  | .mk _ expression children => by
    unfold valueOn
    split_ifs
    · cases expression with
      | none => trivial
      | some node => exact node.valueOn_wellFormed hfresh hid hitem
    · exact (slotsOn_wellFormed hfresh hid children hitem).bind fun _ => Value.groupKey_wellFormed
termination_by structural g => g

theorem GroupingProperty.slotsOn_wellFormed (hfresh : ctx.Fresh) (hid : ctx.current.id < ctx.nextId) :
    ∀ (gs : List GroupingProperty) {item : Value}, item.WellFormed →
      (slotsOn ctx item gs).Gives fun slots => ∀ s ∈ slots, s.2.WellFormed
  | [], _, _ => fun s hs => by cases hs
  | g :: rest, _, hitem =>
    (valueOn_wellFormed hfresh hid hitem g).bind fun _ hv =>
      (slotsOn_wellFormed hfresh hid rest hitem).bind fun _ hslots =>
        List.forall_mem_cons.mpr ⟨hv, hslots⟩
termination_by structural gs => gs

end

end Bound

/-- The row of a group whose key has some slots. -/
theorem Transformation.row_eval [External] {properties : List GroupingProperty}
    {aggregates : List AggregateExpr}
    (hne : properties ≠ []) {bound : BoundAggregation} {g : Param} {eslots : List (String × Expr)}
    (hresult : bound.result =
      ⟨g, aggregationExpr eslots ((groupBy properties aggregates).keyContainer? g)⟩)
    (slots : List (String × Value)) (items : List Value) :
    (bound.row ⟨Value.groupKey slots, items⟩).toOption =
      (Expr.evalSlots eslots (Expr.groupEnv g (Value.groupKey slots) items)).toOption.map
        (Value.groupRow slots) := by
  have hempty : (groupBy properties aggregates).grouping.isEmpty = false := by
    simpa [grouping] using hne
  unfold BoundAggregation.row Lambda.invoke
  rw [hresult]
  dsimp only
  rw [aggregationExpr_eval, keyContainer_eval, hempty]
  cases hvalues : Expr.evalSlots eslots (Expr.groupEnv g (Value.groupKey slots) items) with
  | error e => rfl
  | ok values =>
    have hsame : values.isEmpty = eslots.isEmpty := by
      have hnames := congrArg List.isEmpty (Expr.evalSlots_eq_ok hvalues).1
      simpa using hnames
    rw [← hsame]
    rfl

section Rows

variable [External] {ctx : Context} {properties : List GroupingProperty} {items : List Value}
  {slots : List (List (String × Value))}

theorem isKey_of_slotsOn (hfresh : ctx.Fresh) (hid : ctx.current.id < ctx.nextId)
    (hitems : ∀ v ∈ items, v.WellFormed)
    (hslots : items.mapM (GroupingProperty.slotsOn ctx · properties) = .ok slots) :
    ∀ k ∈ slots.map Value.groupKey, k.IsKey := by
  intro k hk
  obtain ⟨s, hs, rfl⟩ := List.mem_map.mp hk
  have hgives := Outcome.Meets.mapM fun v hv =>
    GroupingProperty.slotsOn_wellFormed hfresh hid properties (hitems v hv)
  rw [hslots] at hgives
  exact ⟨Value.groupKey_wellFormed (hgives s hs), s, rfl⟩

theorem length_of_slotsOn
    (hslots : items.mapM (GroupingProperty.slotsOn ctx · properties) = .ok slots) :
    (slots.map Value.groupKey).length = items.length := by
  rw [List.length_map, (Outcome.forall₂_of_mapM hslots).length_eq]

variable {aggregates : List PropertyAggregate} {bound : Transformation.BoundAggregation} {c : Context}

/-- The rows of a bound transformation are those of its items. -/
theorem Transformation.rows_eval (hfresh : ctx.Fresh) (hid : ctx.current.id < ctx.nextId)
    (hne : properties ≠ [])
    (hbound : (groupBy properties (aggregates.map .property)).bindAggregation ctx = (.ok bound, c))
    (hitems : ∀ v ∈ items, v.WellFormed) :
    (bound.rows items).toOption = (groupedRows ctx properties aggregates items).toOption := by
  obtain ⟨_, c₁, _, g, eslots, hkey, hframe, heslots, hresult⟩ := exists_of_bindAggregation hbound
  have hinvoke : items.mapM bound.key.invoke =
      items.mapM (GroupingProperty.slotsOn ctx · properties) >>= fun slots =>
        .ok (slots.map Value.groupKey) := by
    rw [Outcome.mapM_congr fun v _ => eval_of_bindKey hfresh hid hne hkey v]
    exact Outcome.mapM_bind_ok _ _ _
  unfold BoundAggregation.rows groupedRows
  rw [groupItems_eq, hinvoke]
  cases hslots : items.mapM (GroupingProperty.slotsOn ctx · properties) with
  | error e => rfl
  | ok slots =>
    have hisKey := isKey_of_slotsOn hfresh hid hitems hslots
    have hfst : ((slots.map Value.groupKey).zip items).map Prod.fst = slots.map Value.groupKey :=
      List.map_fst_zip (Nat.le_of_eq (length_of_slotsOn hslots))
    simp only [Outcome.ok_bind]
    rw [foldl_addToGroups fun p hp => hisKey p.1 (List.of_mem_zip hp).1, groupsOf, hfst, List.mapM_map]
    refine Outcome.mapM_toOption_congr (S := fun a b => a = b ∧ a.IsKey) (List.forall₂_same.mpr
      fun k hk => ⟨rfl, hisKey k (mem_of_mem_eraseDups hk)⟩) fun k _ hk => ?_
    obtain ⟨rfl, hk⟩ := hk
    obtain ⟨s, rfl⟩ := hk.slots
    rw [Function.comp_apply, row_eval hne hresult,
      AggregateExpr.eval_of_bindSlots hfresh hid hframe heslots, Outcome.toOption_bind]
    cases (aggregates.mapM (PropertyAggregate.slotOver ctx
      (itemsWithKey ((slots.map Value.groupKey).zip items) (Value.groupKey s)))).toOption <;> rfl

/-- The counts of all rows add up to the number of items. -/
theorem sum_counts (hfresh : ctx.Fresh) (hid : ctx.current.id < ctx.nextId) {rows : List Value}
    (hitems : ∀ v ∈ items, v.WellFormed)
    (hrows : groupedRows ctx properties aggregates items = .ok rows) {i : Nat} {a : PropertyAggregate}
    (ha : aggregates[i]? = some a) (hcount : a.method = .count) :
    ∃ counts : List Nat, counts.sum = items.length ∧
      List.Forall₂ (fun row (n : Nat) => ∃ key slots, row = Value.groupRow key slots ∧
        slots[i]? = some (a.name, .int64 n)) rows counts := by
  obtain ⟨slots, hslots, hrows⟩ := Outcome.bind_eq_ok.mp hrows
  have hlength := length_of_slotsOn hslots
  have hfst : ((slots.map Value.groupKey).zip items).map Prod.fst = slots.map Value.groupKey :=
    List.map_fst_zip (Nat.le_of_eq hlength)
  have hisKey : ∀ p ∈ (slots.map Value.groupKey).zip items, p.1.IsKey :=
    fun p hp => isKey_of_slotsOn hfresh hid hitems hslots p.1 (List.of_mem_zip hp).1
  have hsum := sum_length_groupsOf hisKey
  rw [hfst, List.length_zip, hlength, Nat.min_self] at hsum
  refine ⟨_, hsum, List.forall₂_map_right_iff.mpr ?_⟩
  refine List.Forall₂.imp (fun row key hrow => ?_) (Outcome.forall₂_of_mapM hrows).flip
  obtain ⟨values, hvalues, hrow⟩ := Outcome.bind_eq_ok.mp hrow
  cases hrow
  obtain ⟨value, hvalue, hslot⟩ := Outcome.forall₂_getElem? (Outcome.forall₂_of_mapM hvalues) ha
  refine ⟨_, values, rfl, ?_⟩
  rw [PropertyAggregate.slotOver, PropertyAggregate.valueOver, if_pos hcount] at hslot
  cases hslot
  exact hvalue

end Rows

/-- **Grouping gives a row for each key.** In the context of a top-level clause, let a transformation
group by at least one property and aggregate properties. What it gives over a collection of records
that give no name twice is the rows of these records, and it fails where an aggregate, a key or an
input of theirs does. The numbers of records in the rows, where the transformation asks for them, add
up to the number of all records. -/
theorem grouping_gives_a_row_for_each_key [External] {ctx : Context} (hfresh : ctx.Fresh)
    (hid : ctx.current.id < ctx.nextId) {properties : List GroupingProperty} (hne : properties ≠ [])
    {aggregates : List PropertyAggregate} {bound : Transformation.BoundAggregation}
    (hbound : ((Transformation.groupBy properties (aggregates.map .property)).bindAggregation ctx).1
      = .ok bound)
    {source : Expr} {items : List Value} (hsource : source.eval [] = .ok (.collection items))
    (hitems : ∀ v ∈ items, v.WellFormed) :
    ((bound.overSource source).eval []).toOption =
        (groupedRows ctx properties aggregates items).toOption.map .collection ∧
      ∀ rows, groupedRows ctx properties aggregates items = .ok rows →
        ∀ (i : Nat) (a : PropertyAggregate), aggregates[i]? = some a → a.method = .count →
          ∃ counts : List Nat, counts.sum = items.length ∧
            List.Forall₂ (fun row (n : Nat) => ∃ key slots, row = Value.groupRow key slots ∧
              slots[i]? = some (a.name, .int64 n)) rows counts := by
  constructor
  · rw [Transformation.BoundAggregation.overSource_eval_toOption, hsource]
    have hrows := Transformation.rows_eval hfresh hid hne (Prod.ext hbound rfl) hitems
    exact congrArg (Option.map Value.collection) hrows
  · intro rows hrows i a ha hcount
    exact sum_counts hfresh hid hitems hrows ha hcount

/-! ### Visits by place -/

/-- A clause over visits of cities. -/
def visitContext : Context :=
  .initial ⟨[("Visit", ⟨"Visit", [("Country", .string), ("City", .string), ("Cost", .int .int32)], none⟩)],
    [], []⟩ {} (.record "Visit")

/-- A property of the visit. -/
def visitNode (name : String) : Node :=
  .property (.rangeVariable ⟨RangeVariable.itName, .entity "Visit" true⟩) name .single

/-- The country, and the city as a part of the place. -/
def visitPlace : List GroupingProperty :=
  [.mk "Country" (some (visitNode "Country")) [],
    .mk "Place" none [.mk "City" (some (visitNode "City")) []]]

/-- What visits cost, and how many there are. -/
def visitTotals : List PropertyAggregate :=
  [⟨.sum, some (visitNode "Cost"), "Total"⟩, ⟨.count, none, "Visits"⟩]

/-- A visit of a city in France. -/
def visitOf (city : String) (cost : Int) : Value :=
  .record "Visit" [("Country", .string "France"), ("City", .string city), ("Cost", .int32 cost)]

/-- Three visits of two cities. -/
def visits : List Value := [visitOf "Lyon" 3, visitOf "Nice" 4, visitOf "Lyon" 5]

theorem visits_wellFormed : ∀ v ∈ visits, v.WellFormed := by
  have hvisit (city : String) (cost : Int) : (visitOf city cost).WellFormed := by
    refine .record (by simp [Entries.names]) ?_
    simp only [List.forall_mem_cons]
    exact ⟨.scalar rfl, .scalar rfl, .scalar rfl, by simp⟩
  simp only [visits, List.forall_mem_cons]
  exact ⟨hvisit _ _, hvisit _ _, hvisit _ _, by simp⟩

theorem grouping_gives_a_row_for_each_place :
    ∃ bound rows,
      ((Transformation.groupBy visitPlace (visitTotals.map .property)).bindAggregation visitContext).1 =
        .ok bound ∧
      ((bound.overSource (.mkConst (.collection visits))).eval []).toOption = some (.collection rows) ∧
      rows.length = 2 ∧
      ∃ counts : List Nat, counts.sum = 3 ∧
        List.Forall₂ (fun row (n : Nat) => ∃ key slots, row = Value.groupRow key slots ∧
          slots[1]? = some ("Visits", .int64 n)) rows counts := by
  have hfresh : visitContext.Fresh := ⟨rfl, rfl, rfl, rfl, rfl⟩
  have hok : ((Transformation.groupBy visitPlace
      (visitTotals.map .property)).bindAggregation visitContext).1.toOption.isSome = true := by
    decide +kernel
  obtain ⟨bound, hbound⟩ := Option.isSome_iff_exists.mp hok
  have hbound := Outcome.toOption_eq_some.mp hbound
  have hsource : (Expr.mkConst (.collection visits)).eval [] = .ok (.collection visits) := rfl
  have hrows : (groupedRows visitContext visitPlace visitTotals visits).toOption.map List.length =
      some 2 := by decide +kernel
  obtain ⟨rows, hrows, hlength⟩ := Option.map_eq_some_iff.mp hrows
  obtain ⟨heval, hcounts⟩ := grouping_gives_a_row_for_each_key hfresh (by decide)
    (by simp [visitPlace]) hbound hsource visits_wellFormed
  rw [hrows] at heval
  exact ⟨bound, rows, hbound, heval, hlength,
    hcounts rows (Outcome.toOption_eq_some.mp hrows) 1 _ rfl rfl⟩

end TypedQuery
