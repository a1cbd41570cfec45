import TypedQuery.Bind.Aggregation
import TypedQuery.Proofs.Agreement

/-!
# Groups and their rows

What a bound aggregation gives on a collection: the items are grouped by the key, and each group
gives a row. Groups are followed here only through the functions of keys and of groups; what those
are is a matter of binding.

* `Transformation.BoundAggregation.overSource`, `Transformation.BoundAggregation.rows`: the aggregation of
  a collection, as an expression and as a function of its items.
* `Transformation.BoundAggregation.overSource_eval_toOption`: the two are the same.
* `groupItems_related`: grouping of items that stand for others.
* `mem_of_groupItems`: no item is lost.
-/

namespace TypedQuery

/-! ## Outcomes -/

namespace Outcome

variable {α β : Type}

theorem ok_bind (a : α) (f : α → Outcome β) : ((.ok a : Outcome α) >>= f) = f a := rfl

theorem error_bind (e : Error) (f : α → Outcome β) :
    ((.error e : Outcome α) >>= f) = .error e := rfl

theorem bind_eq_ok {x : Outcome α} {f : α → Outcome β} {b : β} :
    x >>= f = .ok b ↔ ∃ a, x = .ok a ∧ f a = .ok b := by
  cases x with
  | ok a => simp [ok_bind]
  | error e => simp [error_bind]

theorem toOption_bind (x : Outcome α) (f : α → Outcome β) :
    (x >>= f).toOption = x.toOption.bind fun a => (f a).toOption := by
  cases x <;> rfl

theorem toOption_eq_some {x : Outcome α} {a : α} : x.toOption = some a ↔ x = .ok a := by
  cases x with
  | ok b => simp [Except.toOption]
  | error e => simp [Except.toOption]

/-- A traversal fails if it fails at one of its items. -/
theorem mapM_toOption_eq_none {f : α → Outcome β} {items : List α} {a : α} (ha : a ∈ items)
    (h : (f a).toOption = none) : (items.mapM f).toOption = none := by
  induction items with
  | nil => simp at ha
  | cons b rest ih =>
    rw [List.mapM_cons, toOption_bind]
    rcases List.mem_cons.mp ha with rfl | ha
    · rw [h]
      rfl
    · simp only [toOption_bind, ih ha]
      cases (f b).toOption <;> rfl

theorem mapM_toOption_exists {f : α → Outcome β} {items : List α}
    (h : (items.mapM f).toOption = none) : ∃ a ∈ items, (f a).toOption = none := by
  by_contra hnone
  push Not at hnone
  induction items with
  | nil => cases h
  | cons a rest ih =>
    obtain ⟨b, hb⟩ := Option.ne_none_iff_exists'.mp (hnone a (by simp))
    rw [List.mapM_cons, toOption_eq_some.mp hb, ok_bind, toOption_bind] at h
    cases hrest : (rest.mapM f).toOption with
    | none => exact ih hrest fun c hc => hnone c (by simp [hc])
    | some bs =>
      rw [hrest] at h
      cases h

/-- A traversal gives something if it does so at each of its items. -/
theorem exists_mapM_eq_ok {f : α → Outcome β} {items : List α} (h : ∀ a ∈ items, ∃ b, f a = .ok b) :
    ∃ bs, items.mapM f = .ok bs := by
  cases hitems : items.mapM f with
  | ok bs => exact ⟨bs, rfl⟩
  | error e =>
    obtain ⟨a, ha, hnone⟩ := mapM_toOption_exists (congrArg Except.toOption hitems)
    obtain ⟨b, hb⟩ := h a ha
    rw [hb] at hnone
    cases hnone

/-- What a traversal gives, it gives item by item. -/
theorem forall₂_of_mapM {f : α → Outcome β} {items : List α} {results : List β}
    (h : items.mapM f = .ok results) : List.Forall₂ (fun a b => f a = .ok b) items results := by
  induction items generalizing results with
  | nil =>
    cases h
    exact .nil
  | cons a rest ih =>
    rw [List.mapM_cons] at h
    obtain ⟨b, hb, h⟩ := bind_eq_ok.mp h
    obtain ⟨bs, hbs, h⟩ := bind_eq_ok.mp h
    cases h
    exact .cons hb (ih hbs)

theorem mapM_of_forall₂ {f : α → Outcome β} {items : List α} {results : List β}
    (h : List.Forall₂ (fun a b => f a = .ok b) items results) : items.mapM f = .ok results := by
  induction h with
  | nil => rfl
  | cons hb _ ih =>
    rw [List.mapM_cons, hb, ih]
    rfl

theorem forall₂_getElem? {R : α → β → Prop} {as : List α} {bs : List β} (h : List.Forall₂ R as bs)
    {i : Nat} {a : α} (ha : as[i]? = some a) : ∃ b, bs[i]? = some b ∧ R a b := by
  induction h generalizing i with
  | nil => simp at ha
  | cons hab _ ih =>
    cases i with
    | zero =>
      cases ha
      exact ⟨_, rfl, hab⟩
    | succ i => exact ih ha

theorem forall₂_mem {R : α → β → Prop} {as : List α} {bs : List β} (h : List.Forall₂ R as bs) {a : α}
    (ha : a ∈ as) : ∃ b ∈ bs, R a b := by
  obtain ⟨i, hi⟩ := List.mem_iff_getElem?.mp ha
  obtain ⟨b, hb, hab⟩ := forall₂_getElem? h hi
  exact ⟨b, List.mem_of_getElem? hb, hab⟩

theorem forall₂_and {R S : α → β → Prop} {as : List α} {bs : List β} (hR : List.Forall₂ R as bs)
    (hS : List.Forall₂ S as bs) : List.Forall₂ (fun a b => R a b ∧ S a b) as bs := by
  induction hR with
  | nil => exact .nil
  | cons hr _ ih =>
    cases hS with
    | cons hs hS => exact .cons ⟨hr, hs⟩ (ih hS)

/-- Traversals of related items give the same, if they do so at each of them. -/
theorem mapM_toOption_congr {α₁ α₂ : Type} {S : α₁ → α₂ → Prop} {f : α₁ → Outcome β}
    {g : α₂ → Outcome β} {items₁ : List α₁} {items₂ : List α₂} (h : List.Forall₂ S items₁ items₂)
    (hfg : ∀ a b, S a b → (f a).toOption = (g b).toOption) :
    (items₁.mapM f).toOption = (items₂.mapM g).toOption := by
  induction h with
  | nil => rfl
  | cons hab _ ih => simp only [List.mapM_cons, toOption_bind, hfg _ _ hab, ih]

theorem mapM_bind_ok {γ : Type} (f : α → Outcome β) (g : β → γ) (items : List α) :
    (items.mapM fun a => f a >>= fun b => .ok (g b)) = items.mapM f >>= fun bs => .ok (bs.map g) := by
  induction items with
  | nil => rfl
  | cons a rest ih =>
    rw [List.mapM_cons, List.mapM_cons, ih]
    cases f a with
    | error e => rfl
    | ok b => cases rest.mapM f <;> rfl

theorem mapM_congr {f g : α → Outcome β} {items : List α} (h : ∀ a ∈ items, f a = g a) :
    items.mapM f = items.mapM g := by
  induction items with
  | nil => rfl
  | cons a rest ih =>
    rw [List.mapM_cons, List.mapM_cons, h a (by simp), ih fun b hb => h b (by simp [hb])]

end Outcome

/-! ## Operators with a function -/

/-- The first argument of a call has the value of the expression, also if that is a lambda. -/
theorem Expr.operands_head [External] (e : Expr) (rest : List Expr) (env : Env) :
    ∃ f, Expr.operands (e :: rest) env = ⟨e.eval env, f⟩ :: Expr.operands rest env := by
  cases e <;> exact ⟨_, rfl⟩

theorem Operand.items_toOption (m : Method) (o : Operand) (rest : List Operand) :
    (Operand.items m (o :: rest)).toOption = o.value.toOption.bind Value.asItems? := by
  unfold Operand.items
  rw [Outcome.toOption_bind]
  congr 1
  funext v
  cases v <;> rfl

namespace Expr

variable [External] (source : Expr) (l : Lambda) (env : Env)

/-- The function of one value that a lambda is in an environment. -/
def function : Value → Outcome Value := fun v => l.body.eval ((l.param.id, v) :: env)

/-- What is made of the items of the first argument. -/
theorem toOption_items_bind {α : Type} (m : Method) (rest : List Expr) (make : List Value → Outcome α) :
    (Operand.items m (operands (source :: rest) env) >>= make).toOption =
      (source.eval env).toOption.bind fun v => v.asItems?.bind fun items => (make items).toOption := by
  obtain ⟨f, hf⟩ := operands_head source rest env
  rw [hf, Outcome.toOption_bind, Operand.items_toOption, Option.bind_assoc]

theorem eval_select :
    ((mkCollection .select [source, l.toExpr]).eval env).toOption =
      (source.eval env).toOption.bind fun v => v.asItems?.bind fun items =>
        (items.mapM (function l env)).toOption.map .collection := by
  obtain ⟨f, hf⟩ := operands_head source [l.toExpr] env
  have happly : (mkCollection .select [source, l.toExpr]).eval env =
      (Operand.items (.collection .select) (operands [source, l.toExpr] env) >>= fun items =>
        items.mapM (function l env)) >>= fun items => pure (.collection items) := by
    rw [mkCollection, mkCall, eval, hf]
    rfl
  rw [happly, bind_assoc, toOption_items_bind]
  refine Option.bind_congr fun v _ => Option.bind_congr fun items _ => ?_
  rw [Outcome.toOption_bind]
  cases (items.mapM (function l env)).toOption <;> rfl

theorem eval_groupBy :
    ((mkCollection .groupBy [source, l.toExpr]).eval env).toOption =
      (source.eval env).toOption.bind fun v => v.asItems?.bind fun items =>
        (groupItems (function l env) items).toOption.map fun groups =>
          .collection (groups.map fun g => .grouping g.key g.items) := by
  obtain ⟨f, hf⟩ := operands_head source [l.toExpr] env
  have happly : (mkCollection .groupBy [source, l.toExpr]).eval env =
      Operand.items (.collection .groupBy) (operands [source, l.toExpr] env) >>= fun items =>
        groupItems (function l env) items >>= fun groups =>
          pure (.collection (groups.map fun g => .grouping g.key g.items)) := by
    rw [mkCollection, mkCall, eval, hf]
    rfl
  rw [happly, toOption_items_bind]
  refine Option.bind_congr fun v _ => Option.bind_congr fun items _ => ?_
  rw [Outcome.toOption_bind]
  cases (groupItems (function l env) items).toOption <;> rfl

end Expr

/-! ## The aggregation of a collection -/

namespace Transformation.BoundAggregation

/-- The aggregation of a collection. -/
def overSource (bound : BoundAggregation) (source : Expr) : Expr :=
  .mkCollection .select [.mkCollection .groupBy [source, bound.key.toExpr], bound.result.toExpr]

/-- The row of a group. -/
def row [External] (bound : BoundAggregation) (g : Group) : Outcome Value :=
  bound.result.invoke (.grouping g.key g.items)

/-- The rows of items, one for each group. -/
def rows [External] (bound : BoundAggregation) (items : List Value) : Outcome (List Value) := do
  let groups ← groupItems bound.key.invoke items
  groups.mapM bound.row

/-- The aggregation of a collection gives the rows of its items. -/
theorem overSource_eval_toOption [External] (bound : BoundAggregation) (source : Expr) :
    ((bound.overSource source).eval []).toOption =
      (source.eval []).toOption.bind fun v => v.asItems?.bind fun items =>
        (bound.rows items).toOption.map .collection := by
  rw [overSource, Expr.eval_select, Expr.eval_groupBy, Option.bind_assoc]
  refine Option.bind_congr fun v _ => ?_
  rw [Option.bind_assoc]
  refine Option.bind_congr fun items _ => ?_
  rw [rows, Outcome.toOption_bind]
  change Option.bind (Option.map _ (groupItems bound.key.invoke items).toOption) _ = _
  cases (groupItems bound.key.invoke items).toOption with
  | none => rfl
  | some groups =>
    dsimp only [Option.map_some, Option.bind_some, Value.asItems?]
    rw [List.mapM_map]
    rfl

end Transformation.BoundAggregation

/-! ## Grouping -/

/-- The groups have the same key, and items that are related one by one. -/
def Group.Related (S : Value → Value → Prop) (g₁ g₂ : Group) : Prop :=
  g₁.key = g₂.key ∧ List.Forall₂ S g₁.items g₂.items

theorem addToGroups_related {S : Value → Value → Prop} {groups₁ groups₂ : List Group} (key : Value)
    {v w : Value} (hvw : S v w) (h : List.Forall₂ (Group.Related S) groups₁ groups₂) :
    List.Forall₂ (Group.Related S) (addToGroups key v groups₁) (addToGroups key w groups₂) := by
  induction h with
  | nil => exact .cons ⟨rfl, .cons hvw .nil⟩ .nil
  | @cons g₁ g₂ rest₁ rest₂ hg hrest ih =>
    rw [addToGroups, addToGroups, hg.1]
    split
    · exact .cons ⟨rfl, List.rel_append hg.2 (.cons hvw .nil)⟩ hrest
    · exact .cons hg ih

/-- **Items that stand for others, with the same keys, are grouped as those are.** -/
theorem groupItems_related {S : Value → Value → Prop} {key₁ key₂ : Value → Outcome Value}
    {items₁ items₂ : List Value} (h : List.Forall₂ S items₁ items₂)
    (hkey : ∀ v w, S v w → key₁ v = key₂ w) :
    Follows (fun _ => True) (List.Forall₂ (Group.Related S)) (groupItems key₁ items₁)
      (groupItems key₂ items₂) := by
  -- the groups so far are related
  have run : ∀ (groups₁ groups₂ : List Group), List.Forall₂ (Group.Related S) groups₁ groups₂ →
      Follows (fun _ => True) (List.Forall₂ (Group.Related S))
        (items₁.foldlM (fun groups item => do return addToGroups (← key₁ item) item groups) groups₁)
        (items₂.foldlM (fun groups item => do return addToGroups (← key₂ item) item groups) groups₂) := by
    induction h with
    | nil => exact fun _ _ hgroups => hgroups
    | @cons v w _ _ hvw _ ih =>
      intro groups₁ groups₂ hgroups
      rw [List.foldlM_cons, List.foldlM_cons, hkey v w hvw]
      cases key₂ w with
      | error e => exact Follows.error e
      | ok k => exact ih _ _ (addToGroups_related k hvw hgroups)
  exact run [] [] .nil

theorem mem_addToGroups {key item v : Value} {groups : List Group} :
    (∃ g ∈ addToGroups key item groups, v ∈ g.items) ↔ v = item ∨ ∃ g ∈ groups, v ∈ g.items := by
  induction groups with
  | nil => simp [addToGroups]
  | cons g rest ih =>
    rw [addToGroups]
    split
    · simp only [List.mem_cons, exists_eq_or_imp, List.mem_append, List.mem_nil_iff, or_false]
      tauto
    · simp only [List.mem_cons, exists_eq_or_imp]
      rw [ih]
      tauto

/-- **Grouping loses no item and makes none up.** -/
theorem mem_of_groupItems {key : Value → Outcome Value} {items : List Value} {groups : List Group}
    (h : groupItems key items = .ok groups) (v : Value) :
    (∃ g ∈ groups, v ∈ g.items) ↔ v ∈ items := by
  have run : ∀ (items : List Value) (start : List Group),
      items.foldlM (fun groups item => do return addToGroups (← key item) item groups) start
        = .ok groups →
      ((∃ g ∈ groups, v ∈ g.items) ↔ (∃ g ∈ start, v ∈ g.items) ∨ v ∈ items) := by
    intro items
    induction items with
    | nil =>
      intro start h
      cases h
      simp
    | cons w rest ih =>
      intro start h
      rw [List.foldlM_cons] at h
      obtain ⟨next, hnext, hrest⟩ := Outcome.bind_eq_ok.mp h
      obtain ⟨k, -, hk⟩ := Outcome.bind_eq_ok.mp hnext
      cases hk
      rw [ih _ hrest, mem_addToGroups, List.mem_cons, or_assoc, or_left_comm]
  simpa using run items [] h

end TypedQuery
