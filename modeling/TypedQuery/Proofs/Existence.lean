import TypedQuery.Proofs.Aggregates
import TypedQuery.Proofs.ItemPredicates

/-!
# Existence and counting

Whether a collection has an item with a predicate is asked with the predicate on a variable, and their number with the
predicate on the record of a clause of its own. The variable is guarded and the record is not, and the quantifier
stops at the first item that it finds: each can have a value where the other fails. As far as both have values, they
agree.

* `Expr.eval_anyWhere`, `Expr.eval_countWhere`: both operators on the items of a collection.
* `Context.Quantifies`: a clause in which the variable is new.
* `ItemPredicate.Counted`: a quantifier and a count with predicates that track each other.
* `ItemPredicate.any_alike_countWhere`, `ItemPredicate.counted_boolLiteral`: how both are bound.
* `Context.Quantifies.source`: the collection at a path of the record of the clause.
* **`existence_agrees_with_counting`**: their values.
-/

namespace TypedQuery

open BindM (Keeps)

/-! ## Items -/

section Items

variable {f g : Value → Outcome Value} {items kept : List Value} {b : Bool}

theorem exists_someItem (h : ∀ v ∈ items, ∃ u, f v = .ok u) : ∃ b, someItem f items = .ok b := by
  induction items with
  | nil => exact ⟨_, rfl⟩
  | cons v rest ih =>
    obtain ⟨u, hu⟩ := h v List.mem_cons_self
    obtain ⟨b, hb⟩ := ih fun w hw => h w (List.mem_cons_of_mem _ hw)
    rw [someItem, hu, Outcome.ok_bind]
    split_ifs
    · exact ⟨_, rfl⟩
    · exact ⟨b, hb⟩

theorem exists_keepItems_iff : (∃ kept, keepItems g items = .ok kept) ↔ ∀ v ∈ items, ∃ u, g v = .ok u := by
  induction items with
  | nil => exact ⟨fun _ => by simp, fun _ => ⟨_, rfl⟩⟩
  | cons v rest ih =>
    rw [List.forall_mem_cons, ← ih, keepItems]
    constructor
    · rintro ⟨kept, hkept⟩
      obtain ⟨u, hu, hkept⟩ := Outcome.bind_eq_ok.mp hkept
      obtain ⟨rest', hrest, -⟩ := Outcome.bind_eq_ok.mp hkept
      exact ⟨⟨u, hu⟩, rest', hrest⟩
    · rintro ⟨⟨u, hu⟩, rest', hrest⟩
      rw [hu, Outcome.ok_bind, hrest]
      exact ⟨_, rfl⟩

/-- Where no item satisfies a predicate, it has a value at all of them. -/
theorem exists_of_someItem_false (h : someItem f items = .ok false) : ∀ v ∈ items, ∃ u, f v = .ok u := by
  induction items with
  | nil => simp
  | cons v rest ih =>
    obtain ⟨u, hu, h⟩ := Outcome.bind_eq_ok.mp h
    split_ifs at h
    · cases h
    · exact List.forall_mem_cons.mpr ⟨⟨u, hu⟩, ih h⟩

theorem length_keepItems_le (h : keepItems g items = .ok kept) : kept.length ≤ items.length := by
  induction items generalizing kept with
  | nil =>
    cases h
    exact Nat.le_refl _
  | cons v rest ih =>
    obtain ⟨u, -, h⟩ := Outcome.bind_eq_ok.mp h
    obtain ⟨rest', hrest, h⟩ := Outcome.bind_eq_ok.mp h
    have hle := ih hrest
    cases h
    rw [List.length_cons]
    split_ifs
    · exact Nat.succ_le_succ hle
    · exact Nat.le_succ_of_le hle

/-- **Some item satisfies a predicate if items are kept**, where predicates have the same values as far as both have
values. -/
theorem someItem_of_keepItems {surely : Value → Prop} {strict : Prop} {P : Value → Prop}
    (h : ∀ v ∈ items, (f v).Tracks (surely v) strict P (g v)) (hsome : someItem f items = .ok b)
    (hkept : keepItems g items = .ok kept) : b = decide (0 < kept.length) := by
  induction items generalizing b kept with
  | nil =>
    cases hsome
    cases hkept
    rfl
  | cons v rest ih =>
    obtain ⟨u, hu, hsome⟩ := Outcome.bind_eq_ok.mp hsome
    obtain ⟨u', hu', hkept⟩ := Outcome.bind_eq_ok.mp hkept
    obtain ⟨rest', hrest, hkept⟩ := Outcome.bind_eq_ok.mp hkept
    obtain ⟨hsame, -⟩ := (h v List.mem_cons_self).forward hu (.inr ⟨u', hu'⟩)
    cases hsame.symm.trans hu'
    cases hkept
    cases htrue : u.isTrue with
    | true =>
      rw [htrue, if_pos rfl] at hsome
      cases hsome
      simp
    | false =>
      rw [htrue, if_neg Bool.false_ne_true] at hsome
      exact ih (fun w hw => h w (List.mem_cons_of_mem _ hw)) hsome hrest

theorem someItem_const (b : Bool) (items : List Value) :
    someItem (fun _ => .ok (.bool b)) items = .ok (b && !items.isEmpty) := by
  induction items with
  | nil => cases b <;> rfl
  | cons v rest ih =>
    rw [someItem, Outcome.ok_bind]
    cases b with
    | true => rfl
    | false => exact ih

end Items

/-! ## Operators on a collection -/

namespace Expr

variable [External] {source result : Expr} {env : Env} {v : Value} {items : List Value} (l : Lambda)

theorem eval_anyWhere (hsource : source.eval env = .ok (.collection items)) :
    (mkCollection .any [source, l.toExpr]).eval env =
      someItem (fun v => l.body.eval ((l.param.id, v) :: env)) items >>= fun b => .ok (.bool b) := by
  rw [mkCollection, mkCall, eval, operands_cons (isLambda_of_eval hsource), operands_lambda, hsource]
  rfl

theorem eval_countWhere (hsource : source.eval env = .ok (.collection items)) :
    (mkCollection .longCount [mkCollection .filter [source, l.toExpr]]).eval env =
      keepItems (fun v => l.body.eval ((l.param.id, v) :: env)) items >>= fun kept => .ok (.int64 kept.length) := by
  have hfilter : (mkCollection .filter [source, l.toExpr]).eval env =
      keepItems (fun v => l.body.eval ((l.param.id, v) :: env)) items >>= fun kept => .ok (.collection kept) := by
    rw [mkCollection, mkCall, eval, operands_cons (isLambda_of_eval hsource), operands_lambda, hsource]
    rfl
  rw [eval_collection rfl, hfilter]
  cases keepItems (fun v => l.body.eval ((l.param.id, v) :: env)) items with
  | error err => rfl
  | ok kept => exact Accumulator.run_count _ _

/-- A guard of a collection that is there changes nothing. -/
theorem eval_guardIfNeeded {ctx : Context} (hsource : source.eval env = .ok v) (hnull : v.isNull = false)
    (hkind : result.type.nonNullable.isValueType = true)
    (hsuits : ∀ u, result.eval env = .ok u → u.Suits result.type) :
    (ctx.guardIfNeeded source result).eval env = result.eval env := by
  rw [Context.guardIfNeeded_eq, List.filter_singleton]
  cases ctx.needsGuard source with
  | false => rfl
  | true =>
    have hnone : someNull env [source] = .ok false :=
      someNull_of_nonNull (List.forall_mem_singleton.mpr ⟨v, hsource, hnull⟩)
    rw [Bool.cond_true, eval_guardCall, hnone, Outcome.ok_bind, if_neg Bool.false_ne_true]
    cases hresult : result.eval env with
    | error err => exact eval_convertTo_of_error hresult _
    | ok u =>
      have hu := hsuits u hresult
      rw [eval_convertTo_of_suits hresult hu hkind]
      exact hu.convert_self hkind (HostType.nonNullable_toNullable _).symm fun _ => HostType.isNullable_toNullable _

end Expr

/-! ## Chains of properties -/

/-- A chain is bound without a trace. -/
theorem Node.bindWithin_chain_context {node : Node} {v : RangeVariable} {path : List String} {levels : Nat}
    {c c' : Context} {e : Expr} (hchain : node.chain? = some (v, path))
    (h : node.bindWithin levels c = (.ok e, c')) : c' = c := by
  induction levels generalizing node path c c' e with
  | zero => cases h
  | succ levels ih =>
    have hlt : c.depth < c.settings.maxDepth := by
      by_contra hle
      rw [bindWithin, BindM.descend_of_le (Nat.le_of_not_lt hle)] at h
      cases h
    rw [bindWithin, BindM.descend_of_lt hlt] at h
    obtain ⟨hok, rfl⟩ := Prod.mk.inj h
    suffices hsame : (Bind.step (bindWithin levels) node c.deeper).2 = c.deeper by
      rw [hsame]
      rfl
    cases node with
    | rangeVariable w => rfl
    | property source name kind =>
      obtain ⟨⟨w, init⟩, hinit, heq⟩ := Option.map_eq_some_iff.mp hchain
      obtain ⟨rfl, rfl⟩ := Prod.mk.inj heq
      obtain ⟨c₁, hc₁⟩ : ∃ c₁, Bind.step (bindWithin levels) (.property source name kind) c.deeper = (.ok e, c₁) :=
        ⟨_, Prod.ext hok rfl⟩
      rw [hc₁]
      obtain ⟨_, _, hcontext, hstep⟩ := BindM.exists_of_bind_eq_ok hc₁
      cases hcontext
      cases hread : c.deeper.flattenedRead? (.property source name kind) with
      | some read =>
        rw [hread] at hstep
        cases hstep
        rfl
      | none =>
        rw [hread] at hstep
        obtain ⟨s, c₂, hs, haccess⟩ := BindM.exists_of_bind_eq_ok hstep
        obtain rfl := ih hinit hs
        exact (Prod.mk.inj haccess).2.symm
    | _ => cases hchain

/-- What a chain of members is bound to is of the declared type at its path, as it is read, and neither the record of
the clause nor a literal. -/
theorem Context.type_of_path {ctx : Context} (hflat : ctx.flatteningSource = none) {path : List String}
    (hpath : path ≠ [])
    {source e : Expr} {u : HostType} (htype : ctx.schema.typeAt? source.type path = some u)
    (he : path.foldlM ctx.memberAccess source = .ok e) :
    (e.type = u.common ∨ e.type = u.common.toNullable) ∧ ctx.isCurrent e = false ∧ e.isNonNullConst = false := by
  induction path generalizing source with
  | nil => exact absurd rfl hpath
  | cons name rest ih =>
    rw [List.foldlM_cons] at he
    obtain ⟨access, haccess, he⟩ := Outcome.bind_eq_ok.mp he
    obtain ⟨typeName, m, hsource, hm, hname, rfl⟩ := exists_of_memberAccess haccess
    have hmember : ctx.schema.memberType? source.type name = some m.type := by
      rw [hsource]
      exact Option.map_eq_some_iff.mpr ⟨m, hm, rfl⟩
    rw [Schema.typeAt?_cons, hmember, Option.bind_some] at htype
    cases rest with
    | nil =>
      cases he
      cases htype
      refine ⟨?_, memberAccess_plain hflat source m⟩
      rw [type_guardIfNeeded, Expr.type_widenPrimitive]
      split_ifs
      · exact .inr rfl
      · exact .inl rfl
    | cons second rest =>
      have hsecond := he
      rw [List.foldlM_cons] at hsecond
      obtain ⟨_, hsecond, -⟩ := Outcome.bind_eq_ok.mp hsecond
      obtain ⟨next, _, hnext, -⟩ := exists_of_memberAccess hsecond
      refine ih (by simp) ?_ he
      rwa [hnext, ← type_of_memberAccess hnext]

/-! ## Binding -/

/-- The boolean that a predicate is, if it is a literal one. -/
def ItemPredicate.boolLiteral? : ItemPredicate → Option Bool
  | .constant (.bool b) _ => some b
  | _ => none

theorem ItemPredicate.exists_of_boolLiteral? {p : ItemPredicate} {b : Bool} (h : p.boolLiteral? = some b) :
    ∃ type, p = .constant (.bool b) type := by
  unfold boolLiteral? at h
  split at h
  · cases h
    exact ⟨_, rfl⟩
  · cases h

/-- A clause without flattened properties, in which `x` is new and `it` is a current record of the type. -/
structure Context.Quantifies (ctx : Context) (x it : RangeVariable) (record : String) : Prop where
  propagation : ctx.settings.nullPropagation = true
  namesEnums : ctx.schema.NamesEnums
  flattened : ctx.flattened = []
  flatteningSource : ctx.flatteningSource = none
  currentId : ctx.current.id < ctx.nextId
  notThis : x.name ≠ RangeVariable.thisName
  notIt : x.name ≠ RangeVariable.itName
  fresh : Entries.get? ctx.scope x.name = none
  item : it.name = RangeVariable.itName
  itemType : ctx.schema.hostType? it.type = some (.record record)

namespace Context.Quantifies

variable {ctx : Context} {x it : RangeVariable} {record : String} (h : ctx.Quantifies x it record)
include h

theorem deeper : ctx.deeper.Quantifies x it record := { h with }

/-- The variable and the current record of a nested clause stand for the same item. -/
theorem itemwise :
    (ctx.push x.name (.record record)).Itemwise (ctx.derive (.record record)) x it ctx.nextId record where
  schema := rfl
  settings := rfl
  propagation := h.propagation
  flattenedLeft := h.flattened
  flattenedRight := rfl
  sourceLeft := h.flatteningSource
  sourceRight := rfl
  left := by
    refine ⟨ctx.newParam x.name (.record record), ?_, fun hcurrent => ?_, rfl, rfl⟩
    · unfold resolve push
      rw [if_neg h.notThis, if_neg h.notIt, Entries.get?_insert, if_pos rfl]
    · have hid : ctx.nextId = ctx.current.id := congrArg Param.id hcurrent
      exact absurd h.currentId (by rw [hid]; exact Nat.lt_irrefl _)
  right := by
    unfold resolve
    rw [h.item, if_neg (by decide), if_pos rfl, if_pos (.inr (.inr h.itemType))]
    rfl
  currentId := rfl
  currentType := rfl

end Context.Quantifies

/-- A quantifier and a count of a collection, with functions for the predicate on either side. The first function has a
value where the predicate on a variable, as it is bound, has a truth. -/
structure ItemPredicate.Counted [External] (p : ItemPredicate) (s : Schema) (id : Nat) (record : String)
    (bound : Outcome Expr) (source a c : Expr) (f g : Value → Env → Outcome Value) : Prop where
  tracks : ∀ env v, s.admits (.record record) v = true →
    (f v env).Tracks (v.isNull = false) (p.hasConnective = false) Value.IsBool (g v env)
  truth : ∀ e, bound = .ok e → ∀ env v, (∃ τ : Truth, e.eval ((id, v) :: env) = .ok τ.toValue) → ∃ u, f v env = .ok u
  anyNull : ∀ env, source.eval env = .ok .null →
    a.eval env = .ok (if p.boolLiteral? = some false then .bool false else .null)
  countNull : ∀ env, source.eval env = .ok .null → c.eval env = .ok .null
  any : ∀ env items, source.eval env = .ok (.collection items) →
    a.eval env = someItem (f · env) items >>= fun b => .ok (.bool b)
  count : ∀ env items, source.eval env = .ok (.collection items) →
    c.eval env = keepItems (g · env) items >>= fun kept => .ok (.int64 kept.length)

namespace Bind

variable {ctx : Context} {source : Expr} {env : Env} {items : List Value}

/-- What is done with a function that a clause is bound to. -/
theorem fst_bind_guarded {x : BindM Lambda} (hx : Keeps x) (source : Expr) (result : Lambda → Expr) :
    ((x >>= fun l => guarded source (result l)) ctx).1 =
      (x ctx).1 >>= fun l => .ok (ctx.guardIfNeeded source (result l)) := by
  have hframe := hx ctx
  rcases hl : x ctx with ⟨err | l, c⟩
  · rw [BindM.bind_of_error hl]
    rfl
  · rw [hl] at hframe
    rw [BindM.bind_of_ok hl]
    change Except.ok (c.guardIfNeeded source (result l)) = .ok (ctx.guardIfNeeded source (result l))
    unfold Context.guardIfNeeded Context.needsGuard
    rw [hframe.settings, hframe.sameClause.isCurrent]

theorem eval_guarded_any [External] (l : Lambda) (hsource : source.eval env = .ok (.collection items)) :
    (ctx.guardIfNeeded source (.mkCollection .any [source, l.toExpr])).eval env =
      someItem (fun v => l.body.eval ((l.param.id, v) :: env)) items >>= fun b => .ok (.bool b) := by
  rw [Expr.eval_guardIfNeeded hsource rfl rfl fun u hu => ?_, Expr.eval_anyWhere l hsource]
  rw [Expr.eval_anyWhere l hsource] at hu
  obtain ⟨b, -, hu⟩ := Outcome.bind_eq_ok.mp hu
  cases hu
  exact .of_isInstanceOf rfl

theorem eval_guarded_count [External] (l : Lambda) (hsource : source.eval env = .ok (.collection items)) :
    (ctx.guardIfNeeded source (.mkCollection .longCount [.mkCollection .filter [source, l.toExpr]])).eval env =
      keepItems (fun v => l.body.eval ((l.param.id, v) :: env)) items >>= fun kept => .ok (.int64 kept.length) := by
  rw [Expr.eval_guardIfNeeded hsource rfl rfl fun u hu => ?_, Expr.eval_countWhere l hsource]
  rw [Expr.eval_countWhere l hsource] at hu
  obtain ⟨kept, -, hu⟩ := Outcome.bind_eq_ok.mp hu
  cases hu
  exact .of_isInstanceOf rfl

end Bind

namespace Bind

section Collections

variable {sub : Node → BindM Expr} {ctx : Context} {source : Node} {s : Expr} {record : String}
  (hs : sub source ctx = (.ok s, ctx)) (htype : s.type = .collection (.record record))
include hs htype

omit hs in
theorem ofOutcome_itemType : BindM.ofOutcome (itemType s) ctx = (.ok (.record record), ctx) := by
  unfold BindM.ofOutcome itemType
  rw [htype]

/-- A count with a predicate, whose function is of the current record of a nested clause. -/
theorem countWhere_eq (body : Node) :
    (countWhere sub source body ctx).1 = (filterLambda sub body (ctx.derive (.record record))).1 >>= fun l =>
      .ok (ctx.guardIfNeeded s (.mkCollection .longCount [.mkCollection .filter [s, l.toExpr]])) := by
  unfold countWhere
  rw [BindM.bind_of_ok hs]
  refine (congrArg Prod.fst (BindM.bind_of_ok (ofOutcome_itemType htype))).trans ?_
  exact fst_bind_guarded (Keeps.inChild _ _) s _

/-- A quantifier with a predicate, whose function is of a new variable. -/
theorem any_eq (hsub : ∀ n, Keeps (sub n)) {x : RangeVariable} (hfresh : Entries.get? ctx.scope x.name = none)
    {p : ItemPredicate}
    (hp : p.boolLiteral? = none) :
    (any sub source x (some (p.toNode x)) ctx).1 =
      (predicate sub (p.toNode x) (ctx.newParam x.name (.record record)) (ctx.push x.name (.record record))).1 >>=
        fun l => .ok (ctx.guardIfNeeded s (.mkCollection .any [s, l.toExpr])) := by
  have hbody : any sub source x (some (p.toNode x)) = (do
      let source ← sub source
      let element ← BindM.ofOutcome (itemType source)
      let l ← BindM.withRangeVariable x.name element fun q => predicate sub (p.toNode x) q
      guarded source (.mkCollection .any [source, l.toExpr])) := by
    cases p with
    | path p => cases p <;> rfl
    | constant l type => cases l <;> first | rfl | cases hp
    | _ => rfl
  rw [hbody, BindM.bind_of_ok hs]
  refine (congrArg Prod.fst (BindM.bind_of_ok (ofOutcome_itemType htype))).trans ?_
  rw [fst_bind_guarded (Keeps.withRangeVariable _ _ fun q => predicate_keeps hsub _ q),
    BindM.withRangeVariable_of_none hfresh]

/-- A quantifier with a literal boolean. -/
theorem any_boolLiteral (x : RangeVariable) (b : Bool) (type : Option LogicalType) :
    (any sub source x (some (.constant (.bool b) type)) ctx).1 =
      .ok (if b then ctx.guardIfNeeded s (.mkCollection .any [s]) else .mkBool false) := by
  cases b <;>
  · unfold any
    rw [BindM.bind_of_ok hs]
    exact congrArg Prod.fst (BindM.bind_of_ok (ofOutcome_itemType htype))

end Collections

/-! ### Literal predicates -/

/-- The filter with a literal boolean. -/
theorem filterLambda_boolLiteral [External] {levels : Nat} {b : Bool} {type : Option LogicalType}
    {d : Context} {l : Lambda}
    (h : (filterLambda (Node.bindWithin levels) (.constant (.bool b) type) d).1 = .ok l) :
    ∀ env, l.body.eval env = .ok (.bool b) := by
  obtain ⟨e, c₁, he, hfilter⟩ := BindM.exists_of_bind_eq_ok (Prod.ext h rfl)
  have hliteral : e.IsLiteral (.bool b) .bool := by
    cases levels with
    | zero => cases he
    | succ levels =>
      obtain ⟨c₂, he⟩ := BindM.exists_of_descend_eq_ok he
      obtain ⟨declared, c₃, -, he⟩ := BindM.exists_of_bind_eq_ok he
      change BindM.constant (.bool b) .bool c₃ = _ at he
      obtain ⟨e', he', hliteral⟩ := BindM.exists_literal (.bool b) .bool c₃
      rw [he] at he'
      cases he'
      exact hliteral
  obtain ⟨e', c₂, hnormal, hresult⟩ := BindM.exists_of_bind_eq_ok hfilter
  have hsame : e' = e := by
    have hnormal : c₁.normalizePredicate e = .ok e' := (Prod.mk.inj hnormal).1
    unfold Context.normalizePredicate at hnormal
    rw [hliteral.type] at hnormal
    cases hnormal
    rfl
  subst hsame
  rw [if_pos hliteral.type] at hresult
  cases hresult
  exact fun env => Expr.eval_of_constValue? hliteral.constValue env

end Bind

section Counted

variable [External] {ctx : Context} {x it : RangeVariable} {record : String}
    (h : ctx.Quantifies x it record) {levels : Nat}
  {source : Node} {s : Expr} (hs : source.bindWithin levels ctx = (.ok s, ctx))
  (htype : s.type = .collection (.record record)) (hguard : ctx.needsGuard s = true)
include h hs htype hguard

/-- A predicate that is no literal boolean. -/
theorem ItemPredicate.any_alike_countWhere {p : ItemPredicate} (heven : p.isEven ctx.schema record = true)
    (hp : p.boolLiteral? = none) :
    ((Bind.any (Node.bindWithin levels) source x (some (p.toNode x)) ctx).1).Alike
      (fun a c => ∃ f g, p.Counted ctx.schema ctx.nextId record
        ((p.toNode x).bindWithin levels (ctx.push x.name (.record record))).1 s a c f g)
      (Bind.countWhere (Node.bindWithin levels) source (p.toNode it) ctx).1 := by
  rw [Bind.any_eq hs htype (Node.bindWithin_keeps levels) h.fresh hp, Bind.countWhere_eq hs htype]
  have hwithin : (ctx.push x.name (.record record)).Within (ctx.derive (.record record))
      (ctx.push x.name (.record record)) (ctx.derive (.record record)) := ⟨.refl _, .refl _, rfl⟩
  have hpair := (p.filter_relates h.itemwise h.namesEnums heven levels (ctx.newParam x.name (.record record))).alike
    hwithin
  refine hpair.traced.bind fun l₁ l₂ ⟨⟨hleft, hright, htracks⟩, hpredicate⟩ => ?_
  have hid₁ : l₁.param.id = ctx.nextId := congrArg Param.id hleft
  have hid₂ : l₂.param.id = ctx.nextId := congrArg Param.id hright
  refine ⟨fun v env => l₁.body.eval ((ctx.nextId, v) :: env), fun v env => l₂.body.eval ((ctx.nextId, v) :: env),
    fun env v hv => ?_, fun e he env v ⟨τ, hτ⟩ => ?_, fun env hnull => ?_, fun env hnull => ?_,
    fun env items hitems => ?_, fun env items hitems => ?_⟩
  · have hlookup : List.lookup ctx.nextId ((ctx.nextId, v) :: env) = some v := by simp
    exact (htracks _ ⟨v, hlookup, hv⟩).of_surely fun hnull => ⟨v, hlookup, hnull⟩
  · obtain ⟨e', c₁, he', hpredicate⟩ := BindM.exists_of_bind_eq_ok (Prod.ext hpredicate rfl)
    rw [he'] at he
    cases he
    obtain ⟨q, c₂, hq, hpredicate⟩ := BindM.exists_of_bind_eq_ok hpredicate
    cases hpredicate
    have hpropagation : c₁.settings.nullPropagation = true := by
      rw [((Node.bindWithin_keeps levels (p.toNode x)).frame he').settings]
      exact h.propagation
    exact Context.exists_eval_of_normalizePredicate hpropagation (Prod.mk.inj hq).1 hτ
  · rw [Context.guardIfNeeded_eval_of_null hguard hnull, hp]
    rfl
  · exact Context.guardIfNeeded_eval_of_null hguard hnull _
  · rw [Bind.eval_guarded_any l₁ hitems, hid₁]
  · rw [Bind.eval_guarded_count l₂ hitems, hid₂]

omit h in
/-- A literal boolean. -/
theorem ItemPredicate.counted_boolLiteral {b : Bool} {type : Option LogicalType} {a c : Expr}
    (ha : (Bind.any (Node.bindWithin levels) source x (some (.constant (.bool b) type)) ctx).1 = .ok a)
    (hc : (Bind.countWhere (Node.bindWithin levels) source (.constant (.bool b) type) ctx).1 = .ok c)
    (bound : Outcome Expr) :
    ∃ f g, (constant (.bool b) type).Counted ctx.schema ctx.nextId record bound s a c f g := by
  rw [Bind.any_boolLiteral hs htype] at ha
  rw [Bind.countWhere_eq hs htype] at hc
  obtain ⟨l, hl, hc⟩ := Outcome.bind_eq_ok.mp hc
  have hbody := Bind.filterLambda_boolLiteral hl
  cases ha
  cases hc
  refine ⟨fun _ _ => .ok (.bool b), fun v env => l.body.eval ((l.param.id, v) :: env), fun env v _ => ?_,
    fun _ _ _ _ _ => ⟨_, rfl⟩, fun env hnull => ?_, fun env hnull => ?_, fun env items hitems => ?_,
    fun env items hitems => ?_⟩
  · rw [hbody]
    exact .ok ⟨b, rfl⟩
  · cases b with
    | false => rfl
    | true => exact Context.guardIfNeeded_eval_of_null hguard hnull _
  · exact Context.guardIfNeeded_eval_of_null hguard hnull _
  · rw [someItem_const, Outcome.ok_bind]
    cases b with
    | false => rfl
    | true =>
      have heval : (Expr.mkCollection .any [s]).eval env = .ok (.bool !items.isEmpty) := by
        rw [Expr.eval_collection (Expr.isLambda_of_eval hitems), hitems]
        rfl
      rw [if_pos rfl, Expr.eval_guardIfNeeded hitems rfl rfl fun u hu => ?_]
      · exact heval
      · cases heval.symm.trans hu
        exact .of_isInstanceOf rfl
  · exact Bind.eval_guarded_count l hitems

theorem ItemPredicate.exists_any_of_countWhere {p : ItemPredicate} (heven : p.isEven ctx.schema record = true)
    (hc : ∃ c, (Bind.countWhere (Node.bindWithin levels) source (p.toNode it) ctx).1 = .ok c) :
    ∃ a, (Bind.any (Node.bindWithin levels) source x (some (p.toNode x)) ctx).1 = .ok a := by
  cases hp : p.boolLiteral? with
  | none => exact (p.any_alike_countWhere h hs htype hguard heven hp).isOk_iff.mpr hc
  | some b =>
    obtain ⟨type, rfl⟩ := p.exists_of_boolLiteral? hp
    exact ⟨_, Bind.any_boolLiteral hs htype x b type⟩

/-- Any predicate. -/
theorem ItemPredicate.exists_counted {p : ItemPredicate} (heven : p.isEven ctx.schema record = true) {a c : Expr}
    (ha : (Bind.any (Node.bindWithin levels) source x (some (p.toNode x)) ctx).1 = .ok a)
    (hc : (Bind.countWhere (Node.bindWithin levels) source (p.toNode it) ctx).1 = .ok c) :
    ∃ f g, p.Counted ctx.schema ctx.nextId record
      ((p.toNode x).bindWithin levels (ctx.push x.name (.record record))).1 s a c f g := by
  cases hp : p.boolLiteral? with
  | none =>
    obtain ⟨_, hc', hcounted⟩ := (p.any_alike_countWhere h hs htype hguard heven hp).exists_right ha
    cases hc.symm.trans hc'
    exact hcounted
  | some b =>
    obtain ⟨type, rfl⟩ := p.exists_of_boolLiteral? hp
    exact counted_boolLiteral hs htype hguard ha hc _

end Counted

/-! ## Agreement -/

namespace ItemPredicate.Counted

variable [External] {p : ItemPredicate} {s : Schema} {id : Nat} {record : String} {bound : Outcome Expr}
    {source a c : Expr}
  {f g : Value → Env → Outcome Value} (h : p.Counted s id record bound source a c f g) {env : Env} {items : List Value}
  (hsource : source.eval env = .ok (.collection items)) (hitems : ∀ v ∈ items, s.admits (.record record) v = true)
include h hsource hitems

/-- Where both have values, there is an item if the count is not zero. -/
theorem agree {u w : Value} (hu : a.eval env = .ok u) (hw : c.eval env = .ok w) :
    ∃ n : Nat, n ≤ items.length ∧ w = .int64 n ∧ u = .bool (0 < n) := by
  rw [h.any env items hsource] at hu
  rw [h.count env items hsource] at hw
  obtain ⟨b, hsome, hu⟩ := Outcome.bind_eq_ok.mp hu
  obtain ⟨kept, hkept, hw⟩ := Outcome.bind_eq_ok.mp hw
  cases hu
  cases hw
  refine ⟨kept.length, length_keepItems_le hkept, rfl, ?_⟩
  rw [someItem_of_keepItems (fun v hv => h.tracks env v (hitems v hv)) hsome hkept]

/-- Without null items the count has a value where the predicate has values at all items. -/
theorem count_of_values (hnull : ∀ v ∈ items, v.isNull = false) (hvalues : ∀ v ∈ items, ∃ u, f v env = .ok u) :
    ∃ w, c.eval env = .ok w := by
  obtain ⟨kept, hkept⟩ := exists_keepItems_iff.mpr fun v hv => by
    obtain ⟨u, hu⟩ := hvalues v hv
    exact ⟨u, ((h.tracks env v (hitems v hv)).forward hu (.inl (hnull v hv))).1⟩
  rw [h.count env items hsource, hkept]
  exact ⟨_, rfl⟩

/-- Without null items both have values where the predicate on a variable has a truth. -/
theorem total (htruth : ∀ v ∈ items, v.isNull = false ∧
      ∃ e, bound = .ok e ∧ ∃ τ : Truth, e.eval ((id, v) :: env) = .ok τ.toValue) :
    (∃ u, a.eval env = .ok u) ∧ ∃ w, c.eval env = .ok w := by
  have hvalues : ∀ v ∈ items, ∃ u, f v env = .ok u := fun v hv => by
    obtain ⟨-, e, he, hτ⟩ := htruth v hv
    exact h.truth e he env v hτ
  refine ⟨?_, h.count_of_values hsource hitems (fun v hv => (htruth v hv).1) hvalues⟩
  obtain ⟨b, hb⟩ := exists_someItem hvalues
  rw [h.any env items hsource, hb]
  exact ⟨_, rfl⟩

/-- Without null items none is counted where none satisfies the predicate. -/
theorem count_of_not_any (hnull : ∀ v ∈ items, v.isNull = false) (ha : a.eval env = .ok (.bool false)) :
    c.eval env = .ok (.int64 0) := by
  have hsome := ha
  rw [h.any env items hsource] at hsome
  obtain ⟨b, hsome, hb⟩ := Outcome.bind_eq_ok.mp hsome
  cases hb
  obtain ⟨w, hw⟩ := h.count_of_values hsource hitems hnull (exists_of_someItem_false hsome)
  obtain ⟨n, -, rfl, hn⟩ := h.agree hsource hitems ha hw
  cases n with
  | zero => exact hw
  | succ n => cases hn

/-- Without connectives the quantifier has a value where the count has. -/
theorem any_of_count (hp : p.hasConnective = false) (hc : ∃ w, c.eval env = .ok w) : ∃ u, a.eval env = .ok u := by
  obtain ⟨w, hw⟩ := hc
  rw [h.count env items hsource] at hw
  obtain ⟨kept, hkept, -⟩ := Outcome.bind_eq_ok.mp hw
  obtain ⟨b, hb⟩ := exists_someItem fun v hv => by
    obtain ⟨u, hu⟩ := exists_keepItems_iff.mp ⟨kept, hkept⟩ v hv
    exact (h.tracks env v (hitems v hv)).backward hp hu
  rw [h.any env items hsource, hb]
  exact ⟨_, rfl⟩

end ItemPredicate.Counted

/-- A collection at a path of the record of a clause. -/
theorem Context.Quantifies.source [External] {ctx : Context} {x it : RangeVariable} {record : String}
    (h : ctx.Quantifies x it record) {source : Node} {v : RangeVariable} {path : List String}
    (hchain : source.chain? = some (v, path)) (hv : ctx.resolve v = .ok (.param ctx.current)) (hpath : path ≠ [])
    (htype : ctx.schema.typeAt? ctx.current.type path = some (.collection (.record record))) {levels : Nat} {s : Expr}
    {c : Context} (hs : source.bindWithin levels ctx = (.ok s, c)) :
    c = ctx ∧ s.type = .collection (.record record) ∧ ctx.needsGuard s = true ∧
      ∀ {env item}, (Expr.param ctx.current).eval env = .ok item → ctx.schema.admits ctx.current.type item = true →
        item.isNull = false →
          (item.NullBefore path ∧ s.eval env = .ok .null) ∨
          ∃ w, item.follow? path = some w ∧ ctx.schema.admits (.collection (.record record)) w = true ∧
            s.eval env = .ok w := by
  obtain ⟨r, hr, he⟩ := Node.bindWithin_chain hchain (by simp [h.flattened, Entries.get?]) hs
  cases hv.symm.trans hr
  have hat : ctx.schema.typeAt? (Expr.param ctx.current).type path = some (.collection (.record record)) := htype
  obtain ⟨hstype, hcurrent, hconst⟩ := type_of_path h.flatteningSource hpath hat he
  have hcollection : s.type = .collection (.record record) := hstype.elim (fun hs => hs) fun hs => hs
  refine ⟨Node.bindWithin_chain_context hchain hs, hcollection, ?_, fun {env item} hitem hadmits hnull => ?_⟩
  · simp [needsGuard, h.propagation, hcollection, hcurrent, hconst, HostType.isNullable, HostType.isValueType]
  · obtain ⟨typeName, hrecord⟩ : ∃ typeName, ctx.current.type = .record typeName := by
      cases path with
      | nil => exact absurd rfl hpath
      | cons name rest =>
        rw [List.foldlM_cons] at he
        obtain ⟨_, hfirst, -⟩ := Outcome.bind_eq_ok.mp he
        obtain ⟨typeName, _, hrecord, -⟩ := exists_of_memberAccess hfirst
        exact ⟨typeName, hrecord⟩
    have hadmits' : ctx.schema.admits (.record typeName) item = true := hrecord ▸ hadmits
    have hstands : (Expr.param ctx.current).StandsFor ctx env typeName (some item) :=
      ⟨hrecord, hitem, fun w hw => by cases hw; exact hadmits', fun _ => ⟨item, rfl, hnull⟩, rfl⟩
    obtain ⟨t, ht, hreads⟩ := path_reads h.flatteningSource hpath hstands he
    rw [hrecord] at htype
    cases ht.symm.trans htype
    rw [Option.bind_some, h.propagation] at hreads
    rcases Schema.follow?_of_admits hadmits' htype with ⟨hbefore, hnone⟩ | ⟨-, w, hw, hwadmits⟩
    · rw [hnone] at hreads
      exact .inl ⟨hbefore, hreads⟩
    · rw [hw] at hreads
      exact .inr ⟨w, hw, hwadmits, hreads⟩

section Levels

variable {ctx : Context} (hlt : ctx.depth < ctx.settings.maxDepth) (source : Node) (v : RangeVariable)
include hlt

theorem Node.fst_bind_any (body : Option Node) : ((Node.any source v body).bind ctx).1 =
    (Bind.any (Node.bindWithin ctx.deeper.levelsLeft) source v body ctx.deeper).1 := by
  rw [Node.bind_of_lt _ hlt]
  rfl

theorem Node.fst_bind_countWhere (body : Node) : ((Node.countWhere source body v).bind ctx).1 =
    (Bind.countWhere (Node.bindWithin ctx.deeper.levelsLeft) source body ctx.deeper).1 := by
  rw [Node.bind_of_lt _ hlt]
  rfl

end Levels

/-- The predicate on a new variable has a truth at an item. -/
def ItemPredicate.HasTruth [External] (p : ItemPredicate) (ctx : Context) (x : RangeVariable)
    (record : String) (env : Env) (v : Value) : Prop :=
  ∃ e, ((p.toNode x).bind (ctx.deeper.push x.name (.record record))).1 = .ok e ∧
    ∃ τ : Truth, e.eval ((ctx.nextId, v) :: env) = .ok τ.toValue

/-- **Existence agrees with counting.** For a collection of records at a path of the record of a clause, and a
predicate on its items:

* A quantifier `any` is bound where a count is, and only there unless the predicate is a literal boolean.
* Where the collection is missing both are null; only for the literal false the quantifier is false.
* Else, where both have values, the quantifier holds exactly if the count is not zero, null items included.
* Both have values where no item is null and the predicate has a truth at all of them. The count has one where no item
  is null and the quantifier does not hold, and the quantifier has one where the count has and there is no `and` or
  `or` in the predicate.

The comparisons may not depend on a type with null. -/
theorem existence_agrees_with_counting [External] {ctx : Context} {x it : RangeVariable} {record : String}
    (h : ctx.Quantifies x it record) {source : Node} {v : RangeVariable} {path : List String}
    (hchain : source.chain? = some (v, path)) (hv : ctx.resolve v = .ok (.param ctx.current)) (hpath : path ≠ [])
    (htype : ctx.schema.typeAt? ctx.current.type path = some (.collection (.record record))) {p : ItemPredicate}
    (heven : p.isEven ctx.schema record = true) :
    ((∃ c, ((Node.countWhere source (p.toNode it) it).bind ctx).1 = .ok c) →
      ∃ a, ((Node.any source x (some (p.toNode x))).bind ctx).1 = .ok a) ∧
    (p.boolLiteral? = none → (∃ a, ((Node.any source x (some (p.toNode x))).bind ctx).1 = .ok a) →
      ∃ c, ((Node.countWhere source (p.toNode it) it).bind ctx).1 = .ok c) ∧
    ∀ {a c}, ((Node.any source x (some (p.toNode x))).bind ctx).1 = .ok a →
      ((Node.countWhere source (p.toNode it) it).bind ctx).1 = .ok c →
      ∀ {env item}, (Expr.param ctx.current).eval env = .ok item → ctx.schema.admits ctx.current.type item = true →
        item.isNull = false →
        ((item.NullBefore path ∨ item.follow? path = some .null) ∧
          a.eval env = .ok (if p.boolLiteral? = some false then .bool false else .null) ∧ c.eval env = .ok .null) ∨
        ∃ items, item.follow? path = some (.collection items) ∧
          (∀ u w, a.eval env = .ok u → c.eval env = .ok w →
            ∃ n : Nat, n ≤ items.length ∧ w = .int64 n ∧ u = .bool (0 < n)) ∧
          ((∀ v ∈ items, v.isNull = false ∧ p.HasTruth ctx x record env v) →
            (∃ u, a.eval env = .ok u) ∧ ∃ w, c.eval env = .ok w) ∧
          ((∀ v ∈ items, v.isNull = false) → a.eval env = .ok (.bool false) → c.eval env = .ok (.int64 0)) ∧
          (p.hasConnective = false → (∃ w, c.eval env = .ok w) → ∃ u, a.eval env = .ok u) := by
  by_cases hlt : ctx.depth < ctx.settings.maxDepth
  swap
  · rw [Node.bind_of_le (Nat.le_of_not_lt hlt), Node.bind_of_le (Nat.le_of_not_lt hlt)]
    exact ⟨nofun, fun _ => nofun, nofun⟩
  rw [Node.fst_bind_any hlt, Node.fst_bind_countWhere hlt]
  have hdeeper := h.deeper
  obtain ⟨o, c', hs⟩ : ∃ o c', source.bindWithin ctx.deeper.levelsLeft ctx.deeper = (o, c') := ⟨_, _, rfl⟩
  cases o with
  | error err =>
    have hleft : Bind.any (Node.bindWithin ctx.deeper.levelsLeft) source x (some (p.toNode x)) ctx.deeper =
        (.error err, c') := BindM.bind_of_error hs
    have hright : Bind.countWhere (Node.bindWithin ctx.deeper.levelsLeft) source (p.toNode it) ctx.deeper =
        (.error err, c') := BindM.bind_of_error hs
    rw [hleft, hright]
    exact ⟨nofun, fun _ => nofun, nofun⟩
  | ok s =>
    have hv' : ctx.deeper.resolve v = .ok (.param ctx.deeper.current) :=
      ((Context.SameClause.refl ctx).deeper.resolve v).trans hv
    obtain ⟨rfl, hstype, hguard, hvalues⟩ := hdeeper.source hchain hv' hpath htype hs
    refine ⟨p.exists_any_of_countWhere hdeeper hs hstype hguard heven,
      fun hp => (p.any_alike_countWhere hdeeper hs hstype hguard heven hp).isOk_iff.mp,
      fun ha hc env item hitem hadmits hnull => ?_⟩
    obtain ⟨f, g, hcounted⟩ := p.exists_counted hdeeper hs hstype hguard heven ha hc
    rcases hvalues hitem hadmits hnull with ⟨hbefore, hnone⟩ | ⟨w, hw, hwadmits, hsome⟩
    · exact .inl ⟨.inl hbefore, hcounted.anyNull env hnone, hcounted.countNull env hnone⟩
    · cases hwnull : w.isNull with
      | true =>
        obtain rfl := Value.eq_null hwnull
        exact .inl ⟨.inr hw, hcounted.anyNull env hsome, hcounted.countNull env hsome⟩
      | false =>
        obtain ⟨items, rfl, hitems⟩ := (Schema.admits_collection_iff rfl hwnull).mp hwadmits
        exact .inr ⟨items, hw, fun u w => hcounted.agree hsome hitems, hcounted.total hsome hitems,
          hcounted.count_of_not_any hsome hitems, hcounted.any_of_count hsome hitems⟩

/-! ### Kits of parts -/

/-- Sizes, numbered by bytes. -/
def sizeType : EnumType := ⟨"Size", .int .byte, [("Small", 1)], false⟩

/-- Kits of parts with a size and a mark. -/
def kitSchema : Schema :=
  (((Schema.empty.addEnum sizeType).addEnum markType).addRecord (.closed "Part" [("Sold", .bool),
    ("Size", .ofEnum sizeType), ("Bin", .int .int16), ("Mark", .ofEnum markType)])).addRecord
      (.closed "Kit" [("Parts", .collection (.record "Part"))])

/-- The clause over kits. -/
def kitContext : Context := .initial kitSchema {} (.record "Kit")

/-- The parts of a kit. -/
def kitParts : Node := .property (.rangeVariable ⟨RangeVariable.itName, .entity "Kit" true⟩) "Parts" .navigation

/-- The variable of a quantifier over parts. -/
def partVariable : RangeVariable := ⟨"x", .entity "Part" true⟩

/-- The record of a clause over parts. -/
def partRecord : RangeVariable := ⟨RangeVariable.itName, .entity "Part" true⟩

/-- Whether a kit has some part with a predicate. -/
def anyPart (p : ItemPredicate) : Node := .any kitParts partVariable (some (p.toNode partVariable))

/-- The number of such parts. -/
def countParts (p : ItemPredicate) : Node := .countWhere kitParts (p.toNode partRecord) partRecord

/-- A kit with a collection of parts. -/
def kitOf (parts : Value) : Value := .record "Kit" [("Parts", parts)]

/-- A part in the first bin. -/
def part (sold : Bool) (size mark : Int64) : Value :=
  .record "Part" [("Sold", .bool sold), ("Size", .enum "Size" size), ("Bin", .int ⟨.int16, 1, by decide⟩),
    ("Mark", .enum "Mark" mark)]

/-- A property of a part. -/
def partProperty (name : String) : ItemPredicate := .path (.property .item name .single)

/-- The parts that are small. -/
def smallPart : ItemPredicate := .compare .eq rfl (partProperty "Size") (.constant (.string "Small") none)

/-- The small parts that are sold. -/
def soldSmallPart : ItemPredicate := .logic .and rfl (partProperty "Sold") smallPart

theorem kitContext_quantifies : kitContext.Quantifies partVariable partRecord "Part" where
  propagation := rfl
  namesEnums := (((Schema.namesEnums_empty.addEnum _).addEnum _).addRecord _).addRecord _
  flattened := rfl
  flatteningSource := rfl
  currentId := by decide
  notThis := by decide
  notIt := by decide
  fresh := rfl
  item := rfl
  itemType := by decide +kernel

/-- A kit of two sold parts, of which one is small. -/
def soldKit : Value := kitOf (.collection [part true 0 0, part true 1 0])

theorem soldSmallPart_hasTruth {v : Value} (hv : v ∈ [part true 0 0, part true 1 0]) :
    v.isNull = false ∧ soldSmallPart.HasTruth kitContext partVariable "Part" [(0, soldKit)] v := by
  have hcomputed : ((((soldSmallPart.toNode partVariable).bind
      (kitContext.deeper.push partVariable.name (.record "Part"))).1.toOption.bind fun e =>
        (e.eval [(kitContext.nextId, v), (0, soldKit)]).toOption.bind Value.asBool?).isSome) = true := by
    rcases List.mem_pair.mp hv with rfl | rfl <;> decide +kernel
  obtain ⟨b, hb⟩ := Option.isSome_iff_exists.mp hcomputed
  obtain ⟨e, he, hb⟩ := Option.bind_eq_some_iff.mp hb
  obtain ⟨u, hu, hb⟩ := Option.bind_eq_some_iff.mp hb
  refine ⟨by rcases List.mem_pair.mp hv with rfl | rfl <;> rfl, e, Outcome.toOption_eq_some.mp he, .ofBool b, ?_⟩
  rw [Outcome.toOption_eq_some.mp hu]
  cases u <;> cases hb
  cases b <;> rfl

/-- Some part of a kit is sold and small if their count is not zero; without a collection neither is known. -/
theorem sold_small_parts_exist_as_counted :
    ∃ a c, ((anyPart soldSmallPart).bind kitContext).1 = .ok a ∧
      ((countParts soldSmallPart).bind kitContext).1 = .ok c ∧
      (∃ n : Nat, n ≤ 2 ∧ a.eval [(0, soldKit)] = .ok (.bool (0 < n)) ∧ c.eval [(0, soldKit)] = .ok (.int64 n)) ∧
      a.eval [(0, kitOf .null)] = .ok .null ∧ c.eval [(0, kitOf .null)] = .ok .null := by
  have hcomputed : ((countParts soldSmallPart).bind kitContext).1.toOption.isSome = true := by decide +kernel
  obtain ⟨c, hc⟩ := Option.isSome_iff_exists.mp hcomputed
  have hc := Outcome.toOption_eq_some.mp hc
  obtain ⟨hany, -, hagree⟩ := existence_agrees_with_counting kitContext_quantifies
    (show kitParts.chain? = some (⟨RangeVariable.itName, .entity "Kit" true⟩, ["Parts"]) from rfl) rfl (by simp)
    (by decide +kernel) (show soldSmallPart.isEven kitContext.schema "Part" = true by decide +kernel)
  obtain ⟨a, ha⟩ := hany ⟨c, hc⟩
  refine ⟨a, c, ha, hc, ?_, ?_⟩
  · rcases hagree ha hc (show (Expr.param kitContext.current).eval [(0, soldKit)] = _ from rfl) (by decide +kernel) rfl
      with ⟨hmissing, -⟩ | ⟨items, hitems, hagree, htotal, -⟩
    · rcases hmissing with hbefore | hnull
      · simp [Value.nullBefore_cons, Value.not_nullBefore_nil, soldKit, kitOf] at hbefore
      · cases hnull
    · cases hitems
      obtain ⟨⟨u, hu⟩, w, hw⟩ := htotal fun v hv => soldSmallPart_hasTruth hv
      obtain ⟨n, hn, rfl, rfl⟩ := hagree u w hu hw
      exact ⟨n, hn, hu, hw⟩
  · rcases hagree ha hc (show (Expr.param kitContext.current).eval [(0, kitOf .null)] = _ from rfl) (by decide +kernel)
      rfl with ⟨-, hnull⟩ | ⟨items, hitems, -⟩
    · exact hnull
    · cases hitems

/-- What a quantifier and a count of parts give for a kit: nothing where they fail, else a boolean and a number, if
they are not null. -/
def kitAnswers (p : ItemPredicate) (parts : Value) : Option (Option (Option Bool) × Option (Option Int)) := do
  let a ← ((anyPart p).bind kitContext).1.toOption
  let c ← ((countParts p).bind kitContext).1.toOption
  let env := [(0, kitOf parts)]
  return ((a.eval env).toOption.map Value.asBool?, (c.eval env).toOption.map Value.asInt?)

/-- Only a quantifier can do without a value at an item that is null, or after one with the predicate; only a count can
do without the rest of a conjunction. Where the collection is missing, a literal false is false. Next to the literal
null, and for wide marks, they disagree. -/
theorem quantifiers_disagree_with_counts :
    kitSchema.admits (.record "Kit") (kitOf .null) = true ∧
      kitSchema.admits (.record "Kit") (kitOf (.collection [.null, part false 300 9007199254740992])) = true ∧
      kitAnswers (partProperty "Sold") (.collection [.null]) = some (some (some false), none) ∧
      kitAnswers smallPart (.collection [part true 1 0, part true 300 0]) = some (some (some true), none) ∧
      kitAnswers soldSmallPart (.collection [part false 300 0]) = some (none, some (some 0)) ∧
      kitAnswers (.constant (.bool false) none) .null = some (some (some false), some none) ∧
      kitAnswers (.compare .ne rfl (partProperty "Bin") (.constant .null none)) (.collection [part true 1 0]) =
        some (some (some true), some (some 0)) ∧
      kitAnswers (.compare .eq rfl (partProperty "Mark") (.constant (.string "9007199254740993") none))
        (.collection [part true 1 9007199254740992]) = some (some (some true), some (some 0)) ∧
      ((anyPart (.constant (.bool true) (some (.entity "Gift" true)))).bind kitContext).1.toOption.isSome = true ∧
      ((countParts (.constant (.bool true) (some (.entity "Gift" true)))).bind kitContext).1.toOption.isNone =
        true := by
  refine ⟨?_, ?_, ?_, ?_, ?_, ?_, ?_, ?_, ?_, ?_⟩ <;> decide +kernel

end TypedQuery
