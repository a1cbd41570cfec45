import TypedQuery.Proofs.Equality
import TypedQuery.Proofs.IntegerOperators
import TypedQuery.Proofs.Parameterization

/-!
# Membership

Whether an integer is among the items of a collection. Before they are compared, the items are brought to the
type of the integer, whether it is wider or narrower, while a comparison by `eq` brings both sides to
the wider one. So membership agrees with `eq` where every item fits the type of the integer, and fails at
the first item that does not.

* `Value.convertItems_int`: integers brought to a width.
* `Context.exists_eq_int`: two integers compared by `eq`.
* **`membership_agrees_with_equality`**: membership is equality with some item.
* `narrow_probe_fails`: an integer that is an item, where a later item does not fit.
-/

namespace TypedQuery

/-! ## Items of a width -/

namespace Value

variable {target : HostType} {w : IntWidth}

theorem convert_int_overflow {n : SizedInt} (ht : target.nonNullable = .int w) (hn : ¬w.Holds n.val) :
    (Value.int n).convert target = EvalError.fail (.overflow n.val (.int w)) := by
  rw [convert_integral rfl ht, SizedInt.ofInt?, dif_neg hn]
  rfl

/-- The first of some integers that a width does not hold. -/
def firstMisfit? (w : IntWidth) (ns : List SizedInt) : Option SizedInt := ns.find? fun n => ¬w.Holds n.val

/-- The outcome of looking for an integer among others that are brought to a width. -/
def isAmong (w : IntWidth) (ns : List SizedInt) (p : SizedInt) : Outcome Bool :=
  match firstMisfit? w ns with
  | some n => EvalError.fail (.overflow n.val (.int w))
  | none => .ok (ns.any fun n => n.val = p.val)

/-- Integers are brought to a width one by one, up to the first that does not fit. -/
theorem convertItems_int (ht : target.nonNullable = .int w) (ns : List SizedInt) :
    match firstMisfit? w ns with
    | some n => convertItems (ns.map .int) target = EvalError.fail (.overflow n.val (.int w))
    | none => ∃ ms : List SizedInt, convertItems (ns.map .int) target = .ok (ms.map .int) ∧
        ms.map SizedInt.val = ns.map SizedInt.val := by
  induction ns with
  | nil => exact ⟨[], rfl, rfl⟩
  | cons n rest ih =>
    by_cases hn : w.Holds n.val
    · have hfirst : firstMisfit? w (n :: rest) = firstMisfit? w rest := by
        simp [firstMisfit?, hn]
      rw [hfirst]
      simp only [List.map_cons, convertItems, convert_int ht hn]
      cases hrest : firstMisfit? w rest with
      | some m =>
        rw [hrest] at ih
        dsimp only at ih ⊢
        rw [ih]
        rfl
      | none =>
        rw [hrest] at ih
        obtain ⟨ms, hms, hvals⟩ := ih
        refine ⟨⟨w, n.val, hn⟩ :: ms, ?_, by rw [List.map_cons, hvals]⟩
        rw [hms]
        rfl
    · have hfirst : firstMisfit? w (n :: rest) = some n := by
        simp [firstMisfit?, hn]
      rw [hfirst]
      simp only [List.map_cons, convertItems, convert_int_overflow ht hn]
      rfl

/-- An integer equals some of others if it has the value of one of them. -/
theorem any_looselyEquals_int (ns : List SizedInt) (p : SizedInt) :
    ((ns.map Value.int).any (·.looselyEquals (.int p))) = (ns.map SizedInt.val).any (· = p.val) := by
  rw [List.any_map, List.any_map]
  exact congrArg ns.any (funext fun n => looselyEquals_int n p)

end Value

/-! ## Comparisons by `eq` -/

namespace Context

variable {ctx : Context} {l r : Expr} {u w : IntWidth} {env : Env} {m n : SizedInt}

/-- A comparison by `eq` of two integers is bound, and is true if they have one value. -/
theorem exists_eq_int [External] (hl : l.type.nonNullable = .int u) (hr : r.type.nonNullable = .int w)
    (hu : u ≠ .uint64)
    (hw : w ≠ .uint64) (hm : l.eval env = .ok (.int m)) (hmu : m.width = u) (hn : r.eval env = .ok (.int n))
    (hnw : n.width = w) :
    ∃ e, ctx.binary .eq l r = .ok e ∧ e.eval env = .ok (.bool (m.val = n.val)) := by
  obtain ⟨e, he, heval⟩ := exists_integer_comparison ctx hl hr hu hw (Expr.isNullConst_of_eval hm rfl)
    (Expr.isNullConst_of_eval hn rfl) (show QueryOp.eq.isComparison = true from rfl)
  subst hmu hnw
  have hcompared : QueryOp.eq.compared ctx.settings.nullPropagation (some m.val) (some n.val) =
      .bool (m.val = n.val) := by
    show Value.bool (decide (compare m.val n.val = .eq)) = _
    simp
  refine ⟨e, he, ?_⟩
  rw [← hcompared]
  exact heval env _ _ ⟨hl, m.fits, hm⟩ ⟨hr, n.fits, hn⟩

end Context

/-! ## Membership -/

namespace Context

variable {ctx : Context} {source result : Expr} {env : Env} {v : Value} {o : Outcome Bool}

/-- A guard changes no boolean where what it asks about is not null. -/
theorem eval_guardIfNeeded_bool [External] (htype : result.type = .bool)
    (hresult : result.eval env = o.map .bool) (hv : source.eval env = .ok v) (hnull : v.isNull = false) :
    (ctx.guardIfNeeded source result).eval env = o.map .bool := by
  rw [guardIfNeeded_eq, List.filter_singleton]
  cases ctx.needsGuard source with
  | false => exact hresult
  | true =>
    have hnone : Expr.someNull env [source] = .ok false :=
      Expr.someNull_of_nonNull (List.forall_mem_singleton.mpr ⟨v, hv, hnull⟩)
    rw [Bool.cond_true, Expr.eval_guardCall, hnone, Outcome.ok_bind, if_neg Bool.false_ne_true, htype,
      Expr.convertTo, htype, if_neg (by decide), Expr.eval, hresult]
    rcases o with err | b <;> rfl

end Context

namespace Node

/-- The items are bound after the value that is looked for. -/
theorem bind_isIn {ctx : Context} {probe items : Node} {x c : Expr} {element : HostType}
    (hx : (probe.bind ctx.deeper).1 = .ok x)
    (hc : (items.bind (probe.bind ctx.deeper).2).1 = .ok c) (htype : c.type = .collection element)
    (hnull : x.isNullConst = false) :
    ((Node.isIn probe items).bind ctx).1 =
      .ok ((items.bind (probe.bind ctx.deeper).2).2.guardIfNeeded c (.mkCollection .contains
        [if x.type = element then c else .mkCollection (.cast x.type) [c], x])) := by
  have hlt : ctx.depth < ctx.settings.maxDepth := Nat.lt_of_succ_lt (lt_of_bind_eq_ok hx)
  rw [bind_of_lt _ hlt, Bind.step, Bind.isIn]
  have hprobe : probe.bindWithin ctx.deeper.levelsLeft ctx.deeper = (.ok x, (probe.bind ctx.deeper).2) :=
    Prod.ext hx rfl
  have hitem : Bind.itemType c = .ok element := by
    unfold Bind.itemType
    rw [htype]
  rw [BindM.bind_of_ok hprobe, BindM.bind_of_ok ((bindWithin_after probe items).trans (Prod.ext hc rfl)),
    BindM.bind_of_ok (show BindM.ofOutcome _ _ = _ from by rw [BindM.ofOutcome, hitem]), hnull]
  rfl

end Node

namespace Expr

variable [External] {x c : Expr} {w : IntWidth} {env : Env} {p : SizedInt} {ns : List SizedInt}

theorem eval_contains {items : Expr} (hitems : items.isLambda = false) (hx : x.isLambda = false) (env : Env) :
    (mkCollection .contains [items, x]).eval env =
      CollectionOperator.apply .contains .bool [⟨items.eval env, none⟩, ⟨x.eval env, none⟩] := by
  rw [mkCollection, mkCall, eval, operands_cons hitems, operands_cons hx]
  rfl

/-- An integer looked for among the items of a collection. -/
theorem eval_isIn {element : HostType} (hx : x.type.nonNullable = .int w) (hp : x.eval env = .ok (.int p))
    (hc : c.eval env = .ok (.collection (ns.map .int)))
    (helement : x.type = element → ∀ n ∈ ns, w.Holds n.val) :
    (mkCollection .contains [if x.type = element then c else .mkCollection (.cast x.type) [c], x]).eval env =
      (Value.isAmong w ns p).map .bool := by
  have hfound {items : Expr} {ms : List SizedInt} (hitems : items.isLambda = false)
      (hms : items.eval env = .ok (.collection (ms.map .int))) :
      (mkCollection .contains [items, x]).eval env = .ok (.bool ((ms.map SizedInt.val).any (· = p.val))) := by
    rw [eval_contains hitems (isLambda_of_eval hp), hms, hp, ← Value.any_looselyEquals_int]
    rfl
  split_ifs with htype
  · have hnone : Value.firstMisfit? w ns = none := by
      simpa [Value.firstMisfit?] using helement htype
    rw [hfound (isLambda_of_eval hc) hc, Value.isAmong, hnone, List.any_map]
    rfl
  · have hcast : (mkCollection (.cast x.type) [c]).eval env =
        (Value.convertItems (ns.map .int) x.type).map .collection := by
      rw [eval_collection (isLambda_of_eval hc), hc]
      change Value.convertItems (ns.map .int) x.type >>= (fun vs => Except.ok (Value.collection vs)) = _
      cases Value.convertItems (ns.map .int) x.type <;> rfl
    have hitems := Value.convertItems_int hx ns
    unfold Value.isAmong
    cases hfirst : Value.firstMisfit? w ns with
    | some n =>
      rw [hfirst] at hitems
      dsimp only at hitems ⊢
      rw [hitems] at hcast
      rw [eval_contains rfl (isLambda_of_eval hp), hcast]
      rfl
    | none =>
      rw [hfirst] at hitems
      obtain ⟨ms, hms, hvals⟩ := hitems
      rw [hms] at hcast
      rw [hfound rfl hcast, hvals, List.any_map]
      rfl

end Expr

/-- **Membership agrees with equality**: looked for among integers, which are brought to its type, an integer is
found if one of them has its value, which is when a comparison of one of them with it by `eq` is true; but the
first of them that does not fit its type is an overflow. -/
theorem membership_agrees_with_equality [External] {ctx : Context} {probe items : Node} {x c : Expr}
    {element : HostType} {w u : IntWidth} {env : Env} {p : SizedInt} {ns : List SizedInt}
    (hprobe : (probe.bind ctx.deeper).1 = .ok x)
    (hitems : (items.bind (probe.bind ctx.deeper).2).1 = .ok c)
    (hx : x.type.nonNullable = .int w) (hc : c.type = .collection element)
    (helement : element.nonNullable = .int u) (hw : w ≠ .uint64) (hu : u ≠ .uint64)
    (hp : x.eval env = .ok (.int p)) (hpw : p.width = w)
    (hns : c.eval env = .ok (.collection (ns.map .int))) (hnu : ∀ n ∈ ns, n.width = u) :
    ∃ e, ((Node.isIn probe items).bind ctx).1 = .ok e ∧
      ((∀ n ∈ ns, w.Holds n.val) → e.eval env = .ok (.bool (ns.any fun n => n.val = p.val))) ∧
      (∀ n, ns.find? (fun n => ¬w.Holds n.val) = some n →
        e.eval env = .error (.evaluation (.overflow n.val (.int w)))) ∧
      ∀ n ∈ ns, ∀ y : Expr, y.type = element → y.eval env = .ok (.int n) →
        ∃ q, ctx.binary .eq y x = .ok q ∧ q.eval env = .ok (.bool (n.val = p.val)) := by
  have hsame (htype : x.type = element) : ∀ n ∈ ns, w.Holds n.val := by
    intro n hn
    rw [htype, helement] at hx
    cases hx
    rw [← hnu n hn]
    exact n.fits
  refine ⟨_, Node.bind_isIn hprobe hitems hc (Expr.isNullConst_of_eval hp rfl), ?_⟩
  rw [Context.eval_guardIfNeeded_bool rfl (Expr.eval_isIn hx hp hns hsame) hns rfl]
  refine ⟨fun hfits => ?_, fun n hn => ?_, fun n hn y hy hyn => ?_⟩
  · have hnone : Value.firstMisfit? w ns = none := by
      simpa [Value.firstMisfit?] using hfits
    rw [Value.isAmong, hnone]
    rfl
  · rw [Value.isAmong, show Value.firstMisfit? w ns = some n from hn]
    rfl
  · exact Context.exists_eq_int (hy ▸ helement) hx hu hw hyn (hnu n hn) hp hpw

/-! ### Levels -/

/-- Doors with a level, a small number that may be missing. -/
def doorSchema : Schema :=
  ⟨[("Door", ⟨"Door", [("Level", (HostType.int .sbyte).toNullable)], none⟩)], [], []⟩

/-- A filter of doors. -/
def doorContext : Context := .initial doorSchema {} (.record "Door")

/-- The level of a door. -/
def levelNode : Node :=
  .property (.rangeVariable ⟨RangeVariable.itName, .entity "Door" true⟩) "Level" .single

/-- Some levels, as wider numbers. -/
def levelsNode (levels : List Int32) : Node :=
  .collectionConstant (levels.map .int32) (.primitive .int32 false)

/-- The door of level 1. -/
def firstDoor : Value := .record "Door" [("Level", .int ⟨.sbyte, 1, by decide⟩)]

/-- The level of a door among wider numbers, of which all are small. -/
theorem membership_agrees_with_equality_of_levels :
    ∃ e, ((Node.isIn levelNode (levelsNode [2, 1])).bind doorContext).1 = .ok e ∧
      e.eval [(0, firstDoor)] = .ok (.bool true) := by
  have hlevels : ((levelsNode [2, 1]).bind (levelNode.bind doorContext.deeper).2).1 =
      .ok (.const (.collection ([SizedInt.int32 2, SizedInt.int32 1].map .int))
        (.collection (.int .int32))) := rfl
  obtain ⟨x, hx⟩ : ∃ x, (levelNode.bind doorContext.deeper).1 = .ok x := ⟨_, rfl⟩
  have hlevel : x.type.nonNullable = .int .sbyte ∧
      x.eval [(0, firstDoor)] = .ok (.int ⟨.sbyte, 1, by decide⟩) := by
    cases hx
    exact ⟨rfl, rfl⟩
  obtain ⟨e, he, hfits, -⟩ := membership_agrees_with_equality hx hlevels hlevel.1 rfl rfl (by decide)
    (by decide) hlevel.2 rfl rfl (by decide)
  exact ⟨e, he, hfits (by decide)⟩

/-- The level of a door is among numbers of which a later one is too large for a level, and a comparison by `eq`
with the first of them is true, but the question whether it is among them is an overflow. -/
theorem narrow_probe_fails :
    ∃ x e q, (levelNode.bind doorContext.deeper).1 = .ok x ∧
      x.type.nonNullable = .int .sbyte ∧ x.eval [(0, firstDoor)] = .ok (.int ⟨.sbyte, 1, by decide⟩) ∧
      ((Node.isIn levelNode (levelsNode [1, 1000])).bind doorContext).1 = .ok e ∧
      e.eval [(0, firstDoor)] = .error (.evaluation (.overflow 1000 (.int .sbyte))) ∧
      doorContext.binary .eq (.mkConst (.int32 1)) x = .ok q ∧ q.eval [(0, firstDoor)] = .ok (.bool true) :=
  ⟨_, _, _, rfl, rfl, rfl, rfl, rfl, rfl, rfl⟩

end TypedQuery
