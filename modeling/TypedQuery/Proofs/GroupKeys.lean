import TypedQuery.Proofs.ComputedColumns
import TypedQuery.Proofs.Grouping

/-!
# Keys of groups

Which records a transformation puts into one group. Groups are found by equality across numeric
kinds, but what is compared is the whole key of a record, a wrapper around the slots of what is
grouped by, and wrappers are compared by plain equality: inside of them an integer of another width is
another value.

* `Value.isDiscrete`: values that equal themselves only.
* `Value.IsExact`: keys under which a group is found by themselves only.
* `groupItems_together_iff`: items with such keys stand in one group if their keys are the same.
* **`records_group_by_value_and_width`**: records stand in one group if the values grouped by are
  equal across numeric kinds and of the same widths.
* `items_of_equal_ranks_in_two_groups`: two records whose values are equal, in two groups.
-/

namespace TypedQuery

/-! ## Values that equal themselves only -/

namespace Value

/-- Whether the value is null, a boolean, an integer, a string or a date. -/
def isDiscrete : Value → Bool
  | .null | .bool _ | .int _ | .string _ | .date _ => true
  | _ => false

/-- Two values, if they are integers, have one width. -/
def SameWidth (a b : Value) : Prop := ∀ m n, a = .int m → b = .int n → m.width = n.width

theorem beq_iff_eq_of_isDiscrete {a b : Value} (h : a.isDiscrete = true ∨ b.isDiscrete = true) :
    beq a b = true ↔ a = b := by
  rcases h with h | h
  · cases a <;> cases h <;> cases b <;> simp [beq]
  · cases b <;> cases h <;> cases a <;> simp [beq]

/-- Integers are the same that are equal across widths and have one width. -/
theorem looselyEquals_and_sameWidth_iff {a b : Value} (ha : a.isDiscrete = true)
    (hb : b.isDiscrete = true) : a.looselyEquals b = true ∧ a.SameWidth b ↔ a = b := by
  by_cases hints : ∃ m n, a = .int m ∧ b = .int n
  · obtain ⟨⟨w, x, hx⟩, ⟨w', y, hy⟩, rfl, rfl⟩ := hints
    rw [looselyEquals_int, decide_eq_true_iff]
    constructor
    · rintro ⟨hval, hwidth⟩
      obtain rfl : w = w' := hwidth _ _ rfl rfl
      obtain rfl : x = y := hval
      rfl
    · intro h
      cases h
      refine ⟨rfl, fun m n hm hn => ?_⟩
      cases hm
      cases hn
      rfl
  · have hwidth : a.SameWidth b := fun m n hm hn => absurd ⟨m, n, hm, hn⟩ hints
    have hplain : a.looselyEquals b = beq a b := by
      cases a <;> cases ha <;> cases b <;> cases hb <;>
        first
        | rfl
        | exact absurd ⟨_, _, rfl, rfl⟩ hints
    rw [hplain, beq_iff_eq_of_isDiscrete (.inl ha)]
    exact and_iff_left hwidth

/-! ## Exact keys -/

/-- A group whose key is compared with this one, on either side, is found only if its key is this
one. -/
def IsExact (k : Value) : Prop :=
  ∀ k', (k.looselyEquals k' = true ↔ k = k') ∧ (k'.looselyEquals k = true ↔ k' = k)

theorem slotsBeq_iff_eq {as bs : List (String × Value)}
    (h : (∀ s ∈ as, s.2.isDiscrete = true) ∨ ∀ s ∈ bs, s.2.isDiscrete = true) :
    slotsBeq as bs = true ↔ as = bs := by
  induction as generalizing bs with
  | nil => cases bs <;> simp [slotsBeq]
  | cons a as ih =>
    cases bs with
    | nil => simp [slotsBeq]
    | cons b bs =>
      simp only [List.forall_mem_cons] at h
      have hhead := beq_iff_eq_of_isDiscrete (h.imp And.left And.left)
      have htail := ih (h.imp And.right And.right)
      simp only [slotsBeq, Bool.and_eq_true, beq_iff_eq, hhead, htail, List.cons.injEq, Prod.ext_iff]

/-- A value with which exactly the same values are equal, on either side. -/
def IsRigid (a : Value) : Prop := ∀ b, (beq a b = true ↔ a = b) ∧ (beq b a = true ↔ b = a)

theorem isRigid_container {slots : List (String × Value)} (h : ∀ s ∈ slots, s.2.isDiscrete = true) :
    (Value.container slots).IsRigid := by
  intro b
  cases b with
  | container slots' =>
    simp only [beq, Value.container.injEq]
    exact ⟨slotsBeq_iff_eq (.inl h), slotsBeq_iff_eq (.inr h)⟩
  | _ => simp [beq]

theorem isRigid_wrapper {w : Wrapper Value} (h : ∀ m a, w.get? m = some a → a.IsRigid) :
    (Value.wrapper w).IsRigid := by
  have hext {w w' : Wrapper Value} (hkind : w.kind = w'.kind) (hmembers : ∀ m, w.get? m = w'.get? m) :
      w = w' := by
    obtain ⟨k, g, c, s, i, m⟩ := w
    obtain ⟨k', g', c', s', i', m'⟩ := w'
    simp only [Wrapper.mk.injEq]
    exact ⟨hkind, hmembers .groupByContainer, hmembers .container, hmembers .source, hmembers .inst,
      hmembers .model⟩
  have hmember (m : WrapperMember) (x : Option Value) :
      (Option.Rel (fun a b => beq a b = true) (w.get? m) x ↔ w.get? m = x) ∧
        (Option.Rel (fun a b => beq a b = true) x (w.get? m) ↔ x = w.get? m) := by
    cases hm : w.get? m with
    | none => cases x <;> simp [Option.rel_none_none]
    | some a =>
      cases x with
      | none => simp
      | some b => simp [Option.rel_some_some, h m a hm b]
  intro b
  cases b with
  | wrapper w' =>
    rw [wrapperBeq_iff, wrapperBeq_iff, Value.wrapper.injEq, Value.wrapper.injEq]
    refine ⟨⟨fun ⟨hkind, hrel⟩ => hext hkind fun m => (hmember m _).1.mp (hrel m), ?_⟩,
      fun ⟨hkind, hrel⟩ => hext hkind fun m => (hmember m _).2.mp (hrel m), ?_⟩
    · rintro rfl
      exact ⟨rfl, fun m => (hmember m _).1.mpr rfl⟩
    · rintro rfl
      exact ⟨rfl, fun m => (hmember m _).2.mpr rfl⟩
  | _ => simp [beq]

/-- Wrappers are compared by plain equality when groups are looked for. -/
theorem IsRigid.isExact {w : Wrapper Value} (h : (Value.wrapper w).IsRigid) :
    (Value.wrapper w).IsExact := by
  intro k'
  have hleft : (Value.wrapper w).looselyEquals k' = beq (.wrapper w) k' := by cases k' <;> rfl
  have hright : k'.looselyEquals (.wrapper w) = beq k' (.wrapper w) := by cases k' <;> rfl
  rw [hleft, hright]
  exact h k'

theorem isExact_groupKey {slots : List (String × Value)} (h : ∀ s ∈ slots, s.2.isDiscrete = true) :
    (groupKey slots).IsExact := by
  refine IsRigid.isExact (isRigid_wrapper fun m a ha => ?_)
  cases m <;> cases ha
  exact isRigid_container h

theorem isExact_noGroupBy : (Value.wrapper .noGroupBy).IsExact :=
  IsRigid.isExact (isRigid_wrapper fun m a ha => by cases m <;> cases ha)

end Value

/-! ## Items of one group -/

/-- The value of groups. -/
def Value.ofGroups (groups : List Group) : Value :=
  .collection (groups.map fun g => .grouping g.key g.items)

/-- Two items stand in one group. -/
def Together (groups : List Group) (a b : Value) : Prop := ∃ g ∈ groups, a ∈ g.items ∧ b ∈ g.items

/-- The items of the group that is found under a key. -/
def itemsUnder (k : Value) (groups : List Group) : List Value :=
  (groups.find? (·.key.looselyEquals k)).elim [] Group.items

/-- An item is added to the group that is found under its key. -/
theorem itemsUnder_addToGroups {k : Value} (hk : k.IsExact) (key item : Value) (groups : List Group) :
    itemsUnder k (addToGroups key item groups) =
      itemsUnder k groups ++ if key.looselyEquals k then [item] else [] := by
  unfold itemsUnder
  induction groups with
  | nil =>
    rw [addToGroups]
    cases h : key.looselyEquals k <;> simp [h]
  | cons g rest ih =>
    rw [addToGroups]
    by_cases hkey : key.looselyEquals k = true
    · obtain rfl := (hk key).2.mp hkey
      cases hg : g.key.looselyEquals key with
      | true => simp [hg, hkey]
      | false => simpa [hg] using ih
    · have hkey : key.looselyEquals k = false := by simpa using hkey
      cases hg : g.key.looselyEquals k with
      | true =>
        -- the group has the exact key, so that no item with another key goes into it
        have hgk := (hk g.key).2.mp hg
        have hother : g.key.looselyEquals key = false := by
          by_contra hne
          have hsame := (hk key).1.mp (by simpa [hgk] using hne)
          rw [← hsame, (hk k).1.mpr rfl] at hkey
          cases hkey
        simp [hother, hg, hkey]
      | false =>
        rw [hkey] at ih ⊢
        by_cases hput : g.key.looselyEquals key = true
        · simp [hput, hg]
        · simpa [hput, hg] using ih

theorem itemsUnder_foldl {k : Value} (hk : k.IsExact) (pairs : List (Value × Value)) :
    itemsUnder k (pairs.foldl (fun groups p => addToGroups p.1 p.2 groups) []) =
      (pairs.filter fun p => p.1.looselyEquals k).map Prod.snd := by
  induction pairs using List.reverseRecOn with
  | nil => rfl
  | append_singleton pairs p ih =>
    rw [List.foldl_append, List.foldl_cons, List.foldl_nil, itemsUnder_addToGroups hk, ih,
      List.filter_append, List.map_append]
    cases h : p.1.looselyEquals k <;> simp [h]

/-- What holds between the key of an item and the item holds between the key under which it is put
and the item. -/
theorem addToGroups_under {key item : Value} {groups : List Group} {R : Value → Value → Prop}
    (hgroups : ∀ g ∈ groups, ∀ v ∈ g.items, R g.key v) (hnew : R key item)
    (hfound : ∀ k, k.looselyEquals key = true → R k item) :
    ∀ g ∈ addToGroups key item groups, ∀ v ∈ g.items, R g.key v := by
  induction groups with
  | nil => simpa [addToGroups] using hnew
  | cons g rest ih =>
    rw [List.forall_mem_cons] at hgroups
    rw [addToGroups]
    split
    · rename_i hkey
      refine List.forall_mem_cons.mpr ⟨fun v hv => ?_, hgroups.2⟩
      rcases List.mem_append.mp hv with hv | hv
      · exact hgroups.1 v hv
      · obtain rfl := List.mem_singleton.mp hv
        exact hfound g.key hkey
    · exact List.forall_mem_cons.mpr ⟨hgroups.1, ih hgroups.2⟩

/-- The key of a group is that of its items, or one under which they are found. -/
theorem key_of_groupItems {key : Value → Outcome Value} {items : List Value} {groups : List Group}
    (h : groupItems key items = .ok groups) : ∀ g ∈ groups, ∀ v ∈ g.items, ∃ k, key v = .ok k ∧
      (g.key = k ∨ g.key.looselyEquals k = true) := by
  have run : ∀ (items : List Value) (start : List Group),
      items.foldlM (fun groups item => do return addToGroups (← key item) item groups) start
        = .ok groups →
      (∀ g ∈ start, ∀ v ∈ g.items, ∃ k, key v = .ok k ∧
        (g.key = k ∨ g.key.looselyEquals k = true)) →
      ∀ g ∈ groups, ∀ v ∈ g.items, ∃ k, key v = .ok k ∧
        (g.key = k ∨ g.key.looselyEquals k = true) := by
    intro items
    induction items with
    | nil =>
      intro start h hstart
      cases h
      exact hstart
    | cons w rest ih =>
      intro start h hstart
      rw [List.foldlM_cons] at h
      obtain ⟨next, hnext, hrest⟩ := Outcome.bind_eq_ok.mp h
      obtain ⟨k, hkey, hk⟩ := Outcome.bind_eq_ok.mp hnext
      cases hk
      exact ih _ hrest (addToGroups_under
        (R := fun g v => ∃ k, key v = .ok k ∧ (g = k ∨ g.looselyEquals k = true)) hstart
        ⟨k, hkey, .inl rfl⟩ fun _ hfound => ⟨k, hkey, .inr hfound⟩)
  exact run items [] h fun g hg => absurd hg (by simp)

/-- An item is among those that are grouped under its key. -/
theorem mem_itemsUnder_of_mapM {key : Value → Outcome Value} {items keys : List Value}
    (hkeys : items.mapM key = .ok keys) {k v : Value} (hexact : k.IsExact) (hv : v ∈ items) (hkey : key v = .ok k) :
    v ∈ itemsUnder k ((keys.zip items).foldl (fun groups p => addToGroups p.1 p.2 groups) []) := by
  have hpairs := Outcome.forall₂_of_mapM hkeys
  rw [itemsUnder_foldl hexact]
  have hitems : (keys.zip items).map Prod.snd = items := List.map_snd_zip (Nat.le_of_eq hpairs.length_eq)
  rw [← hitems] at hv
  obtain ⟨⟨k', v⟩, hmem, rfl⟩ := List.mem_map.mp hv
  have hkv : key v = .ok k' := List.forall₂_zip hpairs.flip hmem
  rw [hkey] at hkv
  cases hkv
  exact List.mem_map.mpr ⟨(k, v), List.mem_filter.mpr ⟨hmem, (hexact k).1.mpr rfl⟩, rfl⟩

theorem together_of_mem_itemsUnder {groups : List Group} {k a b : Value} (ha : a ∈ itemsUnder k groups)
    (hb : b ∈ itemsUnder k groups) : Together groups a b := by
  unfold itemsUnder at ha hb
  cases hfind : List.find? (fun g : Group => g.key.looselyEquals k) groups with
  | none =>
    rw [hfind] at ha
    cases ha
  | some g =>
    rw [hfind] at ha hb
    exact ⟨g, List.mem_of_find?_eq_some hfind, ha, hb⟩

/-- **Items with exact keys stand in one group if their keys are the same.** -/
theorem groupItems_together_iff {key : Value → Outcome Value} {items : List Value}
    {groups : List Group} (h : groupItems key items = .ok groups) {a b : Value} (ha : a ∈ items)
    (hb : b ∈ items) {k l : Value} (hk : key a = .ok k) (hl : key b = .ok l) (hexact : k.IsExact) :
    Together groups a b ↔ k = l := by
  constructor
  · rintro ⟨g, hg, hag, hbg⟩
    obtain ⟨k', hk', hgk⟩ := key_of_groupItems h g hg a hag
    obtain ⟨l', hl', hgl⟩ := key_of_groupItems h g hg b hbg
    rw [hk] at hk'
    rw [hl] at hl'
    cases hk'
    cases hl'
    have hgk : g.key = k := hgk.elim id (hexact g.key).2.mp
    rw [hgk] at hgl
    exact hgl.elim id (hexact l).1.mp
  · rintro rfl
    rw [groupItems_eq] at h
    obtain ⟨keys, hkeys, h⟩ := Outcome.bind_eq_ok.mp h
    cases h
    exact together_of_mem_itemsUnder (mem_itemsUnder_of_mapM hkeys hexact ha hk)
      (mem_itemsUnder_of_mapM hkeys hexact hb hl)

/-! ## Keys of records -/

/-- The key that slots give. -/
def Transformation.keyOf (t : Transformation) (slots : List (String × Value)) : Value :=
  if t.grouping.isEmpty then .wrapper .noGroupBy else .groupKey slots

theorem Transformation.isExact_keyOf (t : Transformation) {slots : List (String × Value)}
    (h : ∀ s ∈ slots, s.2.isDiscrete = true) : (t.keyOf slots).IsExact := by
  unfold keyOf
  split
  · exact Value.isExact_noGroupBy
  · exact Value.isExact_groupKey h

section Key

variable [External] {t : Transformation} {ctx : Context} {slots : List (String × Expr)} {key : Lambda}
  (hslots : (GroupingProperty.bindSlots t.grouping ctx).1 = .ok slots)
  (hkey : (t.bindKey ctx).1 = .ok key)
include hslots hkey

/-- The key of a record is made of the values of what is grouped by. -/
theorem Transformation.function_key (env : Env) (v : Value) :
    Expr.function key env v =
      Expr.evalSlots slots ((key.param.id, v) :: env) >>= fun values => .ok (t.keyOf values) := by
  unfold bindKey at hkey
  unfold keyOf
  by_cases hempty : t.grouping.isEmpty = true
  · simp only [if_pos hempty] at hkey ⊢
    rw [List.isEmpty_iff.mp hempty] at hslots
    cases hslots
    cases hkey
    rfl
  · simp only [if_neg hempty] at hkey ⊢
    obtain ⟨slots', c, hslots', hkey⟩ := BindM.exists_of_bind_eq_ok (Prod.ext hkey rfl)
    rw [hslots'] at hslots
    cases hslots
    cases hkey
    exact Expr.eval_key _ _

omit hkey in
/-- Keys are the same if the values of what is grouped by are. -/
theorem Transformation.keyOf_eq_iff {xs ys : List (String × Value)} {env₁ env₂ : Env}
    (hx : Expr.evalSlots slots env₁ = .ok xs) (hy : Expr.evalSlots slots env₂ = .ok ys) :
    t.keyOf xs = t.keyOf ys ↔ xs = ys := by
  unfold keyOf
  split
  · rename_i hempty
    rw [List.isEmpty_iff.mp hempty] at hslots
    cases hslots
    cases hx
    cases hy
    simp
  · simp [Value.groupKey, Wrapper.groupBy]

end Key

/-- Slots of the same names are the same if their values are equal across widths and have the same
widths. -/
theorem Value.slots_eq_iff {xs ys : List (String × Value)} (hnames : xs.map Prod.fst = ys.map Prod.fst)
    (hx : ∀ s ∈ xs, s.2.isDiscrete = true) (hy : ∀ s ∈ ys, s.2.isDiscrete = true) :
    List.Forall₂ (fun x y => x.2.looselyEquals y.2 = true) xs ys ∧
        List.Forall₂ (fun x y => x.2.SameWidth y.2) xs ys ↔ xs = ys := by
  induction xs generalizing ys with
  | nil => cases ys <;> simp
  | cons x xs ih =>
    cases ys with
    | nil => simp
    | cons y ys =>
      rw [List.forall_mem_cons] at hx hy
      rw [List.map_cons, List.map_cons, List.cons.injEq] at hnames
      have hhead := looselyEquals_and_sameWidth_iff hx.1 hy.1
      have htail := ih hnames.2 hx.2 hy.2
      rw [List.forall₂_cons, List.forall₂_cons, and_and_and_comm, hhead, htail, List.cons.injEq,
        Prod.ext_iff]
      exact and_congr_left fun _ => (and_iff_right hnames.1).symm

/-- **Records group by value and width.** In any context, let a transformation be bound to a key, and
let what it groups by have a value at every record of a source. Then the records are grouped, and any
two of them whose values are null, booleans, integers, strings or dates stand in one group if and only
if the values are equal across numeric kinds, slot by slot, and those that are integers have the same
widths. -/
theorem records_group_by_value_and_width [External] {t : Transformation} {ctx : Context}
    {slots : List (String × Expr)} {key : Lambda}
    (hslots : (GroupingProperty.bindSlots t.grouping ctx).1 = .ok slots)
    (hkey : (t.bindKey ctx).1 = .ok key) {source : Expr} {env : Env} {items : List Value}
    (hsource : source.eval env = .ok (.collection items))
    (hvalues : ∀ v ∈ items, ∃ xs, Expr.evalSlots slots ((key.param.id, v) :: env) = .ok xs) :
    ∃ groups : List Group,
      (Expr.mkCollection .groupBy [source, key.toExpr]).eval env = .ok (.ofGroups groups) ∧
      ∀ a ∈ items, ∀ b ∈ items, ∀ xs ys,
        Expr.evalSlots slots ((key.param.id, a) :: env) = .ok xs →
        Expr.evalSlots slots ((key.param.id, b) :: env) = .ok ys →
        (∀ s ∈ xs, s.2.isDiscrete = true) → (∀ s ∈ ys, s.2.isDiscrete = true) →
        (Together groups a b ↔
          List.Forall₂ (fun x y => x.2.looselyEquals y.2 = true) xs ys ∧
            List.Forall₂ (fun x y => x.2.SameWidth y.2) xs ys) := by
  have hfunction := t.function_key hslots hkey env
  have hitems : ∀ v ∈ items, ∃ k, Expr.function key env v = .ok k := by
    intro v hv
    obtain ⟨xs, hxs⟩ := hvalues v hv
    exact ⟨t.keyOf xs, by rw [hfunction, hxs]; rfl⟩
  obtain ⟨keys, hkeys⟩ := Outcome.exists_mapM_eq_ok hitems
  obtain ⟨groups, hgroups⟩ : ∃ groups, groupItems (Expr.function key env) items = .ok groups := by
    rw [groupItems_eq, hkeys]
    exact ⟨_, rfl⟩
  refine ⟨groups, Outcome.toOption_eq_some.mp ?_, fun a ha b hb xs ys hxs hys hx hy => ?_⟩
  · rw [Expr.eval_groupBy, hsource]
    show Option.map _ (groupItems (Expr.function key env) items).toOption = _
    rw [hgroups]
    rfl
  · have hka : Expr.function key env a = .ok (t.keyOf xs) := by rw [hfunction, hxs]; rfl
    have hkb : Expr.function key env b = .ok (t.keyOf ys) := by rw [hfunction, hys]; rfl
    have hnames : xs.map Prod.fst = ys.map Prod.fst :=
      (Expr.evalSlots_eq_ok hxs).1.trans (Expr.evalSlots_eq_ok hys).1.symm
    rw [groupItems_together_iff hgroups ha hb hka hkb (t.isExact_keyOf hx),
      t.keyOf_eq_iff hslots hxs hys, Value.slots_eq_iff hnames hx hy]

/-! ### Items by rank -/

/-- Open items by rank. -/
def byRank : Transformation := .groupBy [.mk "Rank" (some (openMember "Rank")) []] []

/-- An open item of a rank. -/
def itemOfRank (count : Int) (rank : Value) : Value :=
  .record "Item" [("Count", .int32 count), ("Bag", .dictionary [("Rank", rank)])]

theorem items_of_one_rank_in_one_group :
    ∃ key groups, (byRank.bindKey openContext).1 = .ok key ∧
      (Expr.mkCollection .groupBy
          [.mkConst (.collection [itemOfRank 1 (.int32 3), itemOfRank 2 (.int32 3)]), key.toExpr]).eval [] =
        .ok (.ofGroups groups) ∧
      Together groups (itemOfRank 1 (.int32 3)) (itemOfRank 2 (.int32 3)) := by
  obtain ⟨slots, hslots⟩ :
      ∃ slots, (GroupingProperty.bindSlots byRank.grouping openContext).1 = .ok slots := ⟨_, rfl⟩
  obtain ⟨key, hkey⟩ : ∃ key, (byRank.bindKey openContext).1 = .ok key := ⟨_, rfl⟩
  have hrank (count : Int) :
      Expr.evalSlots slots [(key.param.id, itemOfRank count (.int32 3))] = .ok [("Rank", .int32 3)] := by
    cases hslots
    cases hkey
    rfl
  have hdiscrete : ∀ s ∈ [("Rank", Value.int32 3)], s.2.isDiscrete = true := by
    simp [Value.isDiscrete, Value.int32]
  have hvalues : ∀ v ∈ [itemOfRank 1 (.int32 3), itemOfRank 2 (.int32 3)],
      ∃ xs, Expr.evalSlots slots [(key.param.id, v)] = .ok xs := by
    simp only [List.forall_mem_cons]
    exact ⟨⟨_, hrank 1⟩, ⟨_, hrank 2⟩, by simp⟩
  have hsource : (Expr.mkConst (.collection [itemOfRank 1 (.int32 3), itemOfRank 2 (.int32 3)])).eval [] =
      .ok (.collection [itemOfRank 1 (.int32 3), itemOfRank 2 (.int32 3)]) := rfl
  obtain ⟨groups, heval, htogether⟩ := records_group_by_value_and_width hslots hkey hsource hvalues
  refine ⟨key, groups, hkey, heval, (htogether _ (by simp) _ (by simp) _ _ (hrank 1) (hrank 2) hdiscrete
    hdiscrete).mpr ⟨.cons (by rfl) .nil, .cons (fun m n hm hn => ?_) .nil⟩⟩
  cases hm
  cases hn
  rfl

/-- Two items whose ranks are both 3 stand in two groups if one of them has it as a wide integer. -/
theorem items_of_equal_ranks_in_two_groups :
    ∃ slots key groups xs ys,
      (GroupingProperty.bindSlots byRank.grouping openContext).1 = .ok slots ∧
      (byRank.bindKey openContext).1 = .ok key ∧
      (Expr.mkCollection .groupBy
          [.mkConst (.collection [itemOfRank 1 (.int32 3), itemOfRank 2 (.int64 3)]), key.toExpr]).eval [] =
        .ok (.ofGroups groups) ∧
      Expr.evalSlots slots [(key.param.id, itemOfRank 1 (.int32 3))] = .ok xs ∧
      Expr.evalSlots slots [(key.param.id, itemOfRank 2 (.int64 3))] = .ok ys ∧
      List.Forall₂ (fun x y => x.2.looselyEquals y.2 = true) xs ys ∧
      ¬ Together groups (itemOfRank 1 (.int32 3)) (itemOfRank 2 (.int64 3)) := by
  refine ⟨_, _, [⟨.groupKey [("Rank", .int32 3)], [itemOfRank 1 (.int32 3)]⟩,
    ⟨.groupKey [("Rank", .int64 3)], [itemOfRank 2 (.int64 3)]⟩], _, _, rfl, rfl, rfl, rfl, rfl,
    .cons (by rfl) .nil, ?_⟩
  rintro ⟨g, hg, hnarrow, hwide⟩
  simp only [List.mem_cons, List.not_mem_nil, or_false] at hg
  have hne : itemOfRank 1 (.int32 3) ≠ itemOfRank 2 (.int64 3) := fun h => by cases h
  rcases hg with rfl | rfl
  · exact hne (List.mem_singleton.mp hwide).symm
  · exact hne (List.mem_singleton.mp hnarrow)

end TypedQuery
