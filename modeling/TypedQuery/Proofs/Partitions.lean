import TypedQuery.Proofs.GroupKeys

/-!
# Groups as a partition

Items are put into groups one by one, each into the first group whose key equals its own, or else into a group of its
own behind the others. Keys are compared across numeric kinds, and that equality is not transitive: a float may equal
two integers that differ. So a group is no class of equal keys; its key is that of its first item, equals those of its
other items, and no group before it has a key that equals any of them.

* `groupPlace`: the place of the group that takes an item.
* `Partitions`: groups that divide items by their keys, with the place of the group of every item.
* `Partitions.add`, `partitions_foldl`: what one item changes, and what all of them come to.
* **`groups_partition_their_source`**: the groups of a source, and the distinct ones of its keys.
-/

namespace TypedQuery

/-! ## One item -/

/-- The place of the first group whose key equals a key; behind all groups if there is none. -/
def groupPlace (key : Value) (groups : List Group) : Nat := groups.findIdx (·.key.looselyEquals key)

/-- An item is put behind those of the group at its place, and no other group changes. -/
theorem getElem?_addToGroups (key item : Value) (groups : List Group) (j : Nat) :
    (addToGroups key item groups)[j]? =
      if j = groupPlace key groups then
        some ⟨groups[j]?.elim key Group.key, groups[j]?.elim [] Group.items ++ [item]⟩
      else groups[j]? := by
  induction groups generalizing j with
  | nil => cases j <;> simp [addToGroups, groupPlace]
  | cons g rest ih =>
    unfold groupPlace at ih ⊢
    rw [addToGroups, List.findIdx_cons]
    cases g.key.looselyEquals key with
    | true => cases j <;> simp
    | false =>
      cases j with
      | zero => simp
      | succ j => simpa using ih j

/-- A key that no group has is the key of a group of its own. -/
theorem keys_addToGroups (key item : Value) (groups : List Group) :
    (addToGroups key item groups).map Group.key =
      if groupPlace key groups < groups.length then groups.map Group.key
      else groups.map Group.key ++ [key] := by
  induction groups with
  | nil => rfl
  | cons g rest ih =>
    unfold groupPlace at ih ⊢
    rw [addToGroups, List.findIdx_cons]
    cases g.key.looselyEquals key with
    | true => simp
    | false =>
      simp only [Bool.false_eq_true, if_false, List.map_cons, ih, cond_false, List.length_cons,
        Nat.add_lt_add_iff_right]
      split_ifs <;> rfl

theorem groupPlace_le (key : Value) (groups : List Group) : groupPlace key groups ≤ groups.length :=
  List.findIdx_le_length

/-- There is a group for every item. -/
theorem lt_length_addToGroups {key item : Value} {groups : List Group} {j : Nat} :
    j < (addToGroups key item groups).length ↔ j < groups.length ∨ j = groupPlace key groups := by
  have hkeys := congrArg List.length (keys_addToGroups key item groups)
  have hle := groupPlace_le key groups
  rw [List.length_map] at hkeys
  rw [hkeys]
  split_ifs <;> simp only [List.length_append, List.length_map, List.length_singleton] <;> omega

/-- A group was there before, with fewer items if it takes the item, or it is a group of its own for the item. -/
theorem group_of_addToGroups {key item : Value} {groups : List Group} {j : Nat} {g : Group}
    (h : (addToGroups key item groups)[j]? = some g) :
    (∃ g₀, groups[j]? = some g₀ ∧ g.key = g₀.key ∧
      g.items = g₀.items ++ if j = groupPlace key groups then [item] else []) ∨
    j = groups.length ∧ j = groupPlace key groups ∧ g = ⟨key, [item]⟩ := by
  rw [getElem?_addToGroups] at h
  cases hj : groups[j]? with
  | some g₀ =>
    rw [hj] at h
    refine .inl ⟨g₀, rfl, ?_⟩
    split_ifs at h ⊢ <;> cases h
    · exact ⟨rfl, rfl⟩
    · exact ⟨rfl, (List.append_nil _).symm⟩
  | none =>
    rw [hj] at h
    split_ifs at h with hplace
    cases h
    have hle := groupPlace_le key groups
    have hge : groups.length ≤ j := List.getElem?_eq_none_iff.mp hj
    exact .inr ⟨by omega, hplace, rfl⟩

/-- The groups have distinct keys of those that were found. -/
theorem keys_foldl_addToGroups (pairs : List (Value × Value)) :
    (pairs.foldl (fun groups p => addToGroups p.1 p.2 groups) []).map Group.key =
      distinctItems (pairs.map Prod.fst) := by
  induction pairs using List.reverseRecOn with
  | nil => rfl
  | append_singleton pairs p ih =>
    have hany (groups : List Group) : groupPlace p.1 groups < groups.length ↔
        (groups.map Group.key).any (·.looselyEquals p.1) = true := by
      rw [groupPlace, List.findIdx_lt_length, List.any_map, List.any_eq_true]
      rfl
    unfold distinctItems at ih ⊢
    rw [List.foldl_append, List.map_append, List.foldl_append, List.foldl_cons, List.foldl_nil, List.map_singleton,
      List.foldl_cons, List.foldl_nil, keys_addToGroups, if_congr (hany _) rfl rfl, ih]

/-! ## All items -/

/-- Groups that divide items by their keys, where the group of every item stands at one of some places. -/
structure Partitions (keys items : List Value) (groups : List Group) (places : List Nat) : Prop where
  length_keys : keys.length = items.length
  /-- Every item has one place. -/
  length_places : places.length = items.length
  /-- The places of items are those of groups: no item is without a group, and no group without an item. -/
  mem_places (j : Nat) : j ∈ places ↔ j < groups.length
  /-- A group has the items at its place, in their order. -/
  items_eq {j : Nat} {g : Group} : groups[j]? = some g →
    g.items = ((items.zip places).filter (·.2 == j)).map Prod.fst
  /-- The groups stand in the order of their first items. -/
  ordered {j j' : Nat} : j < j' → j' < groups.length → places.idxOf j < places.idxOf j'
  /-- The key of a group is that of its first item. -/
  first {j : Nat} {g : Group} : groups[j]? = some g → keys[places.idxOf j]? = some g.key
  /-- The key of a group equals those of its later items. -/
  later {i j : Nat} {k : Value} {g : Group} : keys[i]? = some k → places[i]? = some j → groups[j]? = some g →
    places.idxOf j < i → g.key.looselyEquals k = true
  /-- No group before that of an item has a key that equals the key of the item. -/
  before {i j j' : Nat} {k : Value} {g : Group} : keys[i]? = some k → places[i]? = some j →
    groups[j']? = some g → j' < j → g.key.looselyEquals k = false

namespace Partitions

variable {keys items : List Value} {groups : List Group} {places : List Nat}

theorem empty : Partitions [] [] [] [] where
  length_keys := rfl
  length_places := rfl
  mem_places := by simp
  items_eq := by simp
  ordered := by simp
  first := by simp
  later := by simp
  before := by simp

section Add

variable (h : Partitions keys items groups places) {key item : Value} {i j j' : Nat} {k : Value} {g : Group}
include h

theorem mem_of_getElem? (hg : groups[j]? = some g) : j ∈ places :=
  (h.mem_places j).mpr (List.getElem?_eq_some_iff.mp hg).1

/-- The first item of a group that was there is the same. -/
theorem idxOf_of_getElem? (hg : groups[j]? = some g) (p : Nat) : (places ++ [p]).idxOf j = places.idxOf j := by
  rw [List.idxOf_append, if_pos (h.mem_of_getElem? hg)]

theorem length_notMem : groups.length ∉ places := fun hj => Nat.lt_irrefl _ ((h.mem_places _).mp hj)

/-- The first item of a new group is the one that is added. -/
theorem idxOf_length : (places ++ [groups.length]).idxOf groups.length = places.length := by
  rw [List.idxOf_append, if_neg h.length_notMem, List.idxOf_cons_self, Nat.zero_add]

/-- A position is one that was there, or that of the item that is added. -/
theorem position_of_add {p : Nat} (hk : (keys ++ [key])[i]? = some k) (hj : (places ++ [p])[i]? = some j) :
    (keys[i]? = some k ∧ places[i]? = some j) ∨ i = places.length ∧ k = key ∧ j = p := by
  have hlength : places.length = keys.length := h.length_places.trans h.length_keys.symm
  by_cases hi : i < places.length
  · rw [List.getElem?_append_left (hlength ▸ hi)] at hk
    rw [List.getElem?_append_left hi] at hj
    exact .inl ⟨hk, hj⟩
  · have hlt := (List.getElem?_eq_some_iff.mp hj).1
    rw [List.length_append, List.length_singleton] at hlt
    obtain rfl : i = places.length := by omega
    rw [hlength, List.getElem?_concat_length] at hk
    rw [List.getElem?_concat_length] at hj
    cases hk
    cases hj
    exact .inr ⟨rfl, rfl, rfl⟩

theorem items_of_add (hg : (addToGroups key item groups)[j]? = some g) :
    g.items = (((items ++ [item]).zip (places ++ [groupPlace key groups])).filter (·.2 == j)).map Prod.fst := by
  rw [List.zip_append h.length_places.symm, List.zip_cons_cons, List.zip_nil_left, List.filter_append,
    List.map_append]
  obtain ⟨g₀, hg₀, -, hitems⟩ | ⟨rfl, hplace, rfl⟩ := group_of_addToGroups hg
  · rw [hitems, h.items_eq hg₀]
    by_cases hj : j = groupPlace key groups
    · simp [hj]
    · simp [hj, Ne.symm hj]
  · have hnone : (items.zip places).filter (·.2 == groups.length) = [] := by
      refine List.filter_eq_nil_iff.mpr fun p hp heq => h.length_notMem ?_
      rw [← beq_iff_eq.mp heq]
      exact (List.of_mem_zip hp).2
    simp [hnone, ← hplace]

theorem ordered_of_add (hjj' : j < j') (hj' : j' < (addToGroups key item groups).length) :
    (places ++ [groupPlace key groups]).idxOf j < (places ++ [groupPlace key groups]).idxOf j' := by
  have hplace := groupPlace_le key groups
  have hlt := lt_length_addToGroups.mp hj'
  have hj : j ∈ places := (h.mem_places j).mpr (by omega)
  rw [List.idxOf_append, if_pos hj, List.idxOf_append]
  split_ifs with hmem
  · exact h.ordered hjj' ((h.mem_places j').mp hmem)
  · have hfirst := List.idxOf_lt_length_of_mem hj
    omega

theorem first_of_add (hg : (addToGroups key item groups)[j]? = some g) :
    (keys ++ [key])[(places ++ [groupPlace key groups]).idxOf j]? = some g.key := by
  have hlength : places.length = keys.length := h.length_places.trans h.length_keys.symm
  obtain ⟨g₀, hg₀, hkey, -⟩ | ⟨rfl, hplace, rfl⟩ := group_of_addToGroups hg
  · have hlt := List.idxOf_lt_length_of_mem (h.mem_of_getElem? hg₀)
    rw [h.idxOf_of_getElem? hg₀, hkey, List.getElem?_append_left (hlength ▸ hlt)]
    exact h.first hg₀
  · rw [← hplace, h.idxOf_length, hlength, List.getElem?_concat_length]

theorem later_of_add (hk : (keys ++ [key])[i]? = some k) (hj : (places ++ [groupPlace key groups])[i]? = some j)
    (hg : (addToGroups key item groups)[j]? = some g)
    (hfirst : (places ++ [groupPlace key groups]).idxOf j < i) : g.key.looselyEquals k = true := by
  obtain ⟨g₀, hg₀, hkey, -⟩ | ⟨rfl, hplace, rfl⟩ := group_of_addToGroups hg
  · rw [hkey]
    rw [h.idxOf_of_getElem? hg₀] at hfirst
    rcases h.position_of_add hk hj with ⟨hk, hj⟩ | ⟨-, rfl, rfl⟩
    · exact h.later hk hj hg₀ hfirst
    · obtain ⟨hlt, rfl⟩ := List.getElem?_eq_some_iff.mp hg₀
      exact List.findIdx_getElem (w := hlt)
  · -- the item that is added is the first of its group
    rw [← hplace, h.idxOf_length] at hfirst
    have hi := (List.getElem?_eq_some_iff.mp hj).1
    rw [List.length_append, List.length_singleton] at hi
    omega

theorem before_of_add (hk : (keys ++ [key])[i]? = some k) (hj : (places ++ [groupPlace key groups])[i]? = some j)
    (hg : (addToGroups key item groups)[j']? = some g) (hj' : j' < j) : g.key.looselyEquals k = false := by
  obtain ⟨g₀, hg₀, hkey, -⟩ | ⟨rfl, hplace, rfl⟩ := group_of_addToGroups hg
  · rw [hkey]
    rcases h.position_of_add hk hj with ⟨hk, hj⟩ | ⟨-, rfl, rfl⟩
    · exact h.before hk hj hg₀ hj'
    · obtain ⟨-, rfl⟩ := List.getElem?_eq_some_iff.mp hg₀
      exact List.not_of_lt_findIdx hj'
  · -- no item stands behind the group of the item that is added
    rcases h.position_of_add hk hj with ⟨-, hj⟩ | ⟨-, rfl, rfl⟩
    · have hlt := (h.mem_places j).mp (List.mem_of_getElem? hj)
      omega
    · omega

/-- **An item that is added** stands at its place, behind the items that were there. -/
theorem add (key item : Value) : Partitions (keys ++ [key]) (items ++ [item]) (addToGroups key item groups)
    (places ++ [groupPlace key groups]) where
  length_keys := by simp [h.length_keys]
  length_places := by simp [h.length_places]
  mem_places j := by simp [lt_length_addToGroups, h.mem_places]
  items_eq := h.items_of_add
  ordered := h.ordered_of_add
  first := h.first_of_add
  later := h.later_of_add
  before := h.before_of_add

end Add

/-- No group is empty. -/
theorem items_ne_nil (h : Partitions keys items groups places) {g : Group} (hg : g ∈ groups) : g.items ≠ [] := by
  obtain ⟨j, hj⟩ := List.getElem?_of_mem hg
  have hplace := (h.mem_places j).mpr (List.getElem?_eq_some_iff.mp hj).1
  rw [← List.map_snd_zip (Nat.le_of_eq h.length_places)] at hplace
  obtain ⟨p, hp, rfl⟩ := List.mem_map.mp hplace
  rw [h.items_eq hj]
  exact List.ne_nil_of_mem (List.mem_map_of_mem (List.mem_filter.mpr ⟨hp, beq_self_eq_true p.2⟩))

end Partitions

/-- **Items that are added one by one are divided by their keys.** -/
theorem partitions_foldl (pairs : List (Value × Value)) : ∃ places,
    Partitions (pairs.map Prod.fst) (pairs.map Prod.snd)
      (pairs.foldl (fun groups p => addToGroups p.1 p.2 groups) []) places := by
  induction pairs using List.reverseRecOn with
  | nil => exact ⟨[], .empty⟩
  | append_singleton pairs p ih =>
    obtain ⟨places, h⟩ := ih
    rw [List.map_append, List.map_append, List.foldl_append]
    exact ⟨_, h.add p.1 p.2⟩

namespace Expr

variable [External] {source : Expr} {env : Env} {v : Value} {items : List Value}

/-- The function of one value that a lambda is, which takes it for its first parameter. -/
def applied (params : List Param) (body : Expr) (env : Env) (v : Value) : Outcome Value := do
  body.eval (← env.bindFirst params v)

theorem eval_groupBy_of_keys {params : List Param} {body : Expr} {keys : List Value} (hsource : source.eval env = .ok v)
    (hitems : v.asItems? = some items) (hkeys : items.mapM (applied params body env) = .ok keys) :
    (mkCollection .groupBy [source, .lambda params body]).eval env =
      .ok (.ofGroups ((keys.zip items).foldl (fun groups p => addToGroups p.1 p.2 groups) [])) := by
  have hgroups : groupItems (applied params body env) items =
      .ok ((keys.zip items).foldl (fun groups p => addToGroups p.1 p.2 groups) []) := by
    rw [groupItems_eq, hkeys]
    rfl
  have happly : (mkCollection .groupBy [source, .lambda params body]).eval env =
      Operand.items (.collection .groupBy) (operands [source, .lambda params body] env) >>= fun items =>
        groupItems (applied params body env) items >>= fun groups => .ok (.ofGroups groups) := by
    rw [mkCollection, mkCall, eval, operands_cons (isLambda_of_eval hsource)]
    rfl
  have hread : Operand.items (.collection .groupBy) (operands [source, .lambda params body] env) = .ok items := by
    rw [operands_cons (isLambda_of_eval hsource), hsource]
    cases v <;> cases hitems <;> rfl
  rw [happly, hread, Outcome.ok_bind, hgroups, Outcome.ok_bind]

theorem eval_distinct (hsource : source.eval env = .ok v) (hitems : v.asItems? = some items) :
    (mkCollection .distinct [source]).eval env = .ok (.collection (distinctItems items)) := by
  rw [eval_collection (isLambda_of_eval hsource), hsource]
  cases v <;> cases hitems <;> rfl

end Expr

/-- **Groups divide their source.** Let a function give a key for every item of a collection or a group. Then grouping
by the function evaluates; no group is empty, and for some places, one for each item, the groups have the items at their
places in the order of the source, they stand in the order of their first items, the key of a group is that of its first
item and equals those of the others, and no group before that of an item has a key that equals the key of the item. The
keys of the groups, in their order, are the distinct ones of the keys of the items. -/
theorem groups_partition_their_source [External] {source : Expr} {env : Env} {v : Value}
    {items keys : List Value}
    {params : List Param} {body : Expr} (hsource : source.eval env = .ok v) (hitems : v.asItems? = some items)
    (hkeys : items.mapM (Expr.applied params body env) = .ok keys) :
    ∃ groups : List Group,
      (Expr.mkCollection .groupBy [source, .lambda params body]).eval env = .ok (.ofGroups groups) ∧
      (∀ g ∈ groups, g.items ≠ []) ∧
      (∃ places, Partitions keys items groups places) ∧
      ∀ list env' w, list.eval env' = .ok w → w.asItems? = some keys →
        (Expr.mkCollection .distinct [list]).eval env' = .ok (.collection (groups.map Group.key)) := by
  have hpairs := Outcome.forall₂_of_mapM hkeys
  have hfst : (keys.zip items).map Prod.fst = keys := List.map_fst_zip (Nat.le_of_eq hpairs.length_eq.symm)
  have hsnd : (keys.zip items).map Prod.snd = items := List.map_snd_zip (Nat.le_of_eq hpairs.length_eq)
  obtain ⟨places, hplaces⟩ := partitions_foldl (keys.zip items)
  rw [hfst, hsnd] at hplaces
  refine ⟨_, Expr.eval_groupBy_of_keys hsource hitems hkeys, fun g hg => hplaces.items_ne_nil hg, ⟨places, hplaces⟩,
    fun list env' w hlist hw => ?_⟩
  rw [keys_foldl_addToGroups, hfst]
  exact Expr.eval_distinct hlist hw

/-! ### Wide integers and a float -/

theorem Value.ofGroups_injective : Function.Injective Value.ofGroups := by
  intro as bs h
  refine List.map_injective_iff.mpr ?_ (Value.collection.inj h)
  rintro ⟨k, items⟩ ⟨k', items'⟩ hgroup
  cases hgroup
  rfl

/-- An integer, a float and another integer: the float equals both integers, which differ. -/
def wideNumbers : List Value :=
  [.int64 9007199254740993, .ofDouble (.ofInt 9007199254740992), .int64 9007199254740992]

/-- A number. -/
def numberParam : Param := ⟨1, "number", .object⟩

/-- The float is put into the group of the integer that came before it, and the other integer is not. -/
theorem groups_partition_wide_numbers :
    ∃ groups : List Group,
      groups.map Group.items =
        [[.int64 9007199254740993, .ofDouble (.ofInt 9007199254740992)], [.int64 9007199254740992]] ∧
      (Expr.mkCollection .groupBy [.mkConst (.collection wideNumbers), .lambda [numberParam] (.param numberParam)]).eval
        [] = .ok (.ofGroups groups) ∧
      (∃ places, Partitions wideNumbers wideNumbers groups places) ∧
      (Expr.mkCollection .distinct [.mkConst (.collection wideNumbers)]).eval [] =
        .ok (.collection (groups.map Group.key)) := by
  have hkeys : wideNumbers.mapM (Expr.applied [numberParam] (.param numberParam) []) = .ok wideNumbers := rfl
  obtain ⟨groups, heval, -, hplaces, hdistinct⟩ :=
    @groups_partition_their_source _ (.mkConst (.collection wideNumbers)) [] _ _ _ _ _ rfl rfl hkeys
  have hgroups : groups =
      [⟨.int64 9007199254740993, [.int64 9007199254740993, .ofDouble (.ofInt 9007199254740992)]⟩,
        ⟨.int64 9007199254740992, [.int64 9007199254740992]⟩] :=
    Value.ofGroups_injective (Except.ok.inj (heval.symm.trans rfl))
  exact ⟨groups, by rw [hgroups]; rfl, heval, hplaces, hdistinct _ _ _ rfl rfl⟩

end TypedQuery
