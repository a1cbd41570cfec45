import TypedQuery.Proofs.Aggregates
import TypedQuery.Proofs.Locality

/-!
# Aggregates of corresponding groups

Two clauses may range over different records that stand for the same: over records and over flattened
records, or over the same related items under parameters of different numbers. If what is read from a
record agrees in both, then so does what is aggregated over groups whose records correspond one by one.

* `Context.SameGroup`: a group in two environments, with records that correspond.
* `Expr.AgreeOn`: aggregates of such groups.
* `Expr.eval_related`: what an aggregate over related items is, without its operators.
* **`PropertyAggregate.simulates`**, **`AggregateExpr.entitySet_simulates`**: the two kinds of aggregates
  agree, if their parts do.
-/

namespace TypedQuery

open BindM (Simulates)

/-! ## Related items -/

/-- Items of one key are one group. -/
theorem groupItems_const {k : Value} (hk : k.looselyEquals k = true) (items : List Value) :
    groupItems (fun _ => .ok k) items = .ok (if items.isEmpty then [] else [⟨k, items⟩]) := by
  have run : ∀ (items before : List Value),
      items.foldlM (fun groups item => do return addToGroups (← (.ok k : Outcome Value)) item groups)
        [⟨k, before⟩] = .ok [⟨k, before ++ items⟩] := by
    intro items
    induction items with
    | nil => intro before; simp [List.foldlM_nil]; rfl
    | cons v rest ih =>
      intro before
      rw [List.foldlM_cons]
      have hadd : addToGroups k v [⟨k, before⟩] = [⟨k, before ++ [v]⟩] := by simp [addToGroups, hk]
      show (do let groups ← (.ok (addToGroups k v [⟨k, before⟩]) : Outcome (List Group)); _) = _
      rw [hadd, Outcome.ok_bind, ih, List.append_assoc]
      rfl
  cases items with
  | nil => rfl
  | cons v rest => exact run rest [v]

namespace Expr

variable [External]

theorem eval_selectMany (source : Expr) (l : Lambda) (env : Env) :
    ((mkCollection .selectMany [source, l.toExpr]).eval env).toOption =
      (source.eval env).toOption.bind fun v => v.asItems?.bind fun items =>
        (items.mapM (function l env) >>= joinItems).toOption.map .collection := by
  obtain ⟨f, hf⟩ := operands_head source [l.toExpr] env
  have happly : (mkCollection .selectMany [source, l.toExpr]).eval env =
      (Operand.items (.collection .selectMany) (operands [source, l.toExpr] env) >>= fun items =>
        items.mapM (function l env)) >>= fun lists => joinItems lists >>= fun items =>
          pure (.collection items) := by
    rw [mkCollection, mkCall, eval, hf]
    rfl
  rw [happly, bind_assoc, toOption_items_bind]
  refine Option.bind_congr fun v _ => Option.bind_congr fun items _ => ?_
  rw [Outcome.toOption_bind, Outcome.toOption_bind]
  cases (items.mapM (function l env)).toOption with
  | none => rfl
  | some lists =>
    dsimp only [Option.bind_some]
    rw [Outcome.toOption_bind]
    cases (joinItems lists).toOption <;> rfl

theorem eval_toList {e : Expr} (h : e.isLambda = false) (env : Env) :
    ((mkCollection .toList [e]).eval env).toOption =
      (e.eval env).toOption.bind fun v => v.asItems?.map .collection := by
  have happly : (mkCollection .toList [e]).eval env =
      Operand.items (.collection .toList) [⟨e.eval env, none⟩] >>= fun items =>
        .ok (.collection items) := by
    rw [eval_collection h]
    rfl
  rw [happly, Outcome.toOption_bind, Operand.items_toOption, Option.bind_assoc]
  refine Option.bind_congr fun v _ => ?_
  cases v.asItems? <;> rfl

/-- **The related items of the records of a group, one record after the other, give one row**, or none
if there are no related items. -/
theorem eval_related (group navigation body : Expr) (p inner g : Param) (env : Env) :
    ((mkCollection .toList [mkCollection .select
        [relatedGroup group p inner navigation, mkLambda g body]]).eval env).toOption =
      (group.eval env).toOption.bind fun v => v.asItems?.bind fun items =>
        (PropertyAggregate.valuesIn env p items navigation >>= joinItems).toOption.bind fun related =>
          if related.isEmpty then some (.collection [])
          else (body.eval ((g.id, .grouping (.wrapper .noGroupBy) related) :: env)).toOption.map
            fun row => .collection [row] := by
  have hrelated := eval_selectMany group ⟨p, navigation⟩ env
  have hgroups := eval_groupBy (mkCollection .selectMany [group, .mkLambda p navigation])
    ⟨inner, .wrapper .noGroupBy⟩ env
  have hrows := eval_select (relatedGroup group p inner navigation) ⟨g, body⟩ env
  unfold Lambda.toExpr at hrelated hgroups hrows
  rw [eval_toList rfl, hrows, relatedGroup, hgroups, hrelated]
  simp only [Option.bind_assoc, Option.bind_map]
  refine Option.bind_congr fun v _ => Option.bind_congr fun items _ => Option.bind_congr fun related _ => ?_
  -- all related items have one key
  have hone : groupItems (function ⟨inner, .wrapper .noGroupBy⟩ env) related = _ := groupItems_const rfl related
  simp only [Function.comp_apply, Value.asItems?, Option.bind_some, hone]
  cases related with
  | nil => rfl
  | cons item rest =>
    have hrow (v : Value) : ([v].mapM (function ⟨g, body⟩ env)).toOption =
        (body.eval ((g.id, v) :: env)).toOption.map fun row => [row] := by
      rw [List.mapM_cons, List.mapM_nil, Outcome.toOption_bind, function]
      cases (body.eval ((g.id, v) :: env)).toOption <;> rfl
    refine (congrArg (Option.bind · _) (hrow (.grouping (.wrapper .noGroupBy) (item :: rest)))).trans ?_
    cases (body.eval ((g.id, .grouping (.wrapper .noGroupBy) (item :: rest)) :: env)).toOption <;> rfl

end Expr

/-! ## Groups -/

/-- The parameters stand for groups of one key, and `V` holds as the records of both become the current
ones, one by one. -/
def Context.SameGroup (d₁ d₂ : Context) (V : Env → Env → Prop) (g₁ g₂ : Param) (env₁ env₂ : Env) : Prop :=
  ∃ key items₁ items₂, env₁.lookup g₁.id = some (.grouping key items₁) ∧
    env₂.lookup g₂.id = some (.grouping key items₂) ∧
    List.Forall₂ (fun v w => V ((d₁.current.id, v) :: env₁) ((d₂.current.id, w) :: env₂)) items₁ items₂

/-- The current records of two clauses have the same value. -/
def Context.SameItem (k₁ k₂ : Context) (env₁ env₂ : Env) : Prop :=
  env₁.lookup k₁.current.id = env₂.lookup k₂.current.id

/-- Expressions that have the same value for groups whose records correspond. -/
def Expr.AgreeOn [External] (d₁ d₂ : Context) (V : Env → Env → Prop) (g₁ g₂ : Param) (e₁ e₂ : Expr) : Prop :=
  ∀ ⦃env₁ env₂⦄, d₁.SameGroup d₂ V g₁ g₂ env₁ env₂ → (e₁.eval env₁).toOption = (e₂.eval env₂).toOption

/-- Slots have the same names, and aggregates that agree. -/
abbrev Expr.SlotsAgreeOn [External] (d₁ d₂ : Context) (V : Env → Env → Prop) (g₁ g₂ : Param) :
    List (String × Expr) → List (String × Expr) → Prop :=
  List.Forall₂ fun s₁ s₂ => s₁.1 = s₂.1 ∧ s₁.2.AgreeOn d₁ d₂ V g₁ g₂ s₂.2

section Groups

variable [External] {d₁ d₂ : Context} {V : Env → Env → Prop} {g₁ g₂ : Param} {env₁ env₂ : Env}

/-- What agrees at a record has the same values at corresponding records. -/
theorem PropertyAggregate.valuesIn_agree {e₁ e₂ : Expr} (he : Expr.Agree d₁ d₂ V e₁ e₂)
    {items₁ items₂ : List Value}
    (h : List.Forall₂ (fun v w => V ((d₁.current.id, v) :: env₁) ((d₂.current.id, w) :: env₂)) items₁ items₂) :
    valuesIn env₁ d₁.current items₁ e₁ = valuesIn env₂ d₂.current items₂ e₂ := by
  unfold valuesIn
  induction h with
  | nil => rfl
  | cons hv _ ih => rw [List.mapM_cons, List.mapM_cons, he.eval hv, ih]

/-- The rows of corresponding groups are made of the same values. -/
theorem Expr.SlotsAgreeOn.eval {slots₁ slots₂ : List (String × Expr)}
    (h : Expr.SlotsAgreeOn d₁ d₂ V g₁ g₂ slots₁ slots₂) (hgroup : d₁.SameGroup d₂ V g₁ g₂ env₁ env₂) :
    (Expr.evalSlots slots₁ env₁).toOption = (Expr.evalSlots slots₂ env₂).toOption :=
  Expr.evalSlots_toOption (h.imp fun _ _ hs => ⟨hs.1, hs.2 hgroup⟩)

/-- A row of aggregates that agree. -/
theorem aggregationExpr_agree {slots₁ slots₂ : List (String × Expr)} (key₁ key₂ : Option Expr)
    (h : Expr.SlotsAgreeOn d₁ d₂ V g₁ g₂ slots₁ slots₂) (hgroup : d₁.SameGroup d₂ V g₁ g₂ env₁ env₂)
    (hkey : Expr.evalMember key₁ env₁ = Expr.evalMember key₂ env₂) :
    ((aggregationExpr slots₁ key₁).eval env₁).toOption =
      ((aggregationExpr slots₂ key₂).eval env₂).toOption := by
  have hempty : slots₁.isEmpty = slots₂.isEmpty := by cases h <;> rfl
  rw [aggregationExpr_eval, aggregationExpr_eval, hkey, h.eval hgroup, hempty]

/-! ## Aggregates -/

theorem PropertyAggregate.combine_agree {a : PropertyAggregate} {s : Schema} {e₁ e₂ : Expr}
    (hcount : a.method ≠ .count) (he : Expr.Agree d₁ d₂ V e₁ e₂) :
    Follows (fun _ => False) (Expr.AgreeOn d₁ d₂ V g₁ g₂) (a.combine s (.param g₁) d₁.current e₁)
      (a.combine s (.param g₂) d₂.current e₂) := by
  cases h₁ : a.combine s (.param g₁) d₁.current e₁ with
  | error e => exact fun hfalse => hfalse.elim
  | ok slot₁ =>
    obtain ⟨slot₂, h₂⟩ := combine_of_type he.type h₁ (.param g₂) d₂.current
    rw [h₂]
    rintro env₁ env₂ ⟨key, items₁, items₂, hg₁, hg₂, hitems⟩
    rw [combine_eval hg₁ hcount h₁, combine_eval hg₂ hcount h₂, valuesIn_agree he hitems, he.type]

/-- **Aggregates of a property agree**, if the property does. -/
theorem PropertyAggregate.simulates {a : PropertyAggregate} (hschema : d₁.schema = d₂.schema)
    (hinput : ∀ n, a.input = some n →
      Simulates (d₁.Within d₂) (fun _ => False) (Expr.Agree d₁ d₂ V) n.bind n.bind) :
    Simulates (d₁.Within d₂) (fun _ => False) (Expr.AgreeOn d₁ d₂ V g₁ g₂) (a.bind (.param g₁))
      (a.bind (.param g₂)) := by
  unfold PropertyAggregate.bind
  split
  · refine Simulates.pure ?_
    rintro env₁ env₂ ⟨key, items₁, items₂, hg₁, hg₂, hitems⟩
    rw [Expr.eval_count_group hg₁, Expr.eval_count_group hg₂, hitems.length_eq]
  · refine Simulates.bind (R := Expr.Agree d₁ d₂ V) Context.Within.frame ?_ fun e₁ e₂ he => ?_
    · unfold PropertyAggregate.bindInput
      split
      · exact hinput _ ‹_›
      · exact Simulates.fail _
    · refine Simulates.reads fun hc => ?_
      rw [hc.left.schema, hc.right.schema, hc.left.current, hc.right.current, ← hschema]
      exact combine_agree ‹_› he

namespace AggregateExpr

/-- The aggregates of a group agree, if each of them does. -/
theorem bindSlots_simulates {aggregates : List AggregateExpr}
    (h : ∀ a ∈ aggregates, Simulates (d₁.Within d₂) (fun _ => False) (Expr.AgreeOn d₁ d₂ V g₁ g₂)
      (a.bind (.param g₁)) (a.bind (.param g₂))) :
    Simulates (d₁.Within d₂) (fun _ => False) (Expr.SlotsAgreeOn d₁ d₂ V g₁ g₂)
      (bindSlots aggregates (.param g₁)) (bindSlots aggregates (.param g₂)) := by
  induction aggregates with
  | nil =>
    rw [bindSlots, bindSlots]
    exact Simulates.pure .nil
  | cons a rest ih =>
    obtain ⟨ha, hrest⟩ := List.forall_mem_cons.mp h
    rw [bindSlots, bindSlots]
    refine Simulates.bind Context.Within.frame ha fun _ _ he => ?_
    refine Simulates.bind Context.Within.frame (ih hrest) fun _ _ hslots => ?_
    exact Simulates.pure (.cons ⟨rfl, he⟩ hslots)

omit [External] in
/-- The same related items are one group in two environments. -/
theorem sameGroup_related {k₁ k₂ : Context} {key : Value} {related : List Value} :
    k₁.SameGroup k₂ (k₁.SameItem k₂) g₁ g₂
      ((g₁.id, .grouping key related) :: env₁) ((g₂.id, .grouping key related) :: env₂) :=
  ⟨key, related, related, Expr.lookup_group, Expr.lookup_group,
    List.forall₂_same.mpr fun v _ => by simp [Context.SameItem]⟩

/-- The values of aggregates over related items, if the collections agree and the rows do. -/
theorem related_agree {navigation₁ navigation₂ : Expr} {inner₁ inner₂ h₁ h₂ : Param} {k₁ k₂ : Context}
    {slots₁ slots₂ : List (String × Expr)} (hnavigation : Expr.Agree d₁ d₂ V navigation₁ navigation₂)
    (hslots : Expr.SlotsAgreeOn k₁ k₂ (k₁.SameItem k₂) h₁ h₂ slots₁ slots₂) :
    Expr.AgreeOn d₁ d₂ V g₁ g₂
      (.mkCollection .toList [.mkCollection .select [relatedGroup (.param g₁) d₁.current inner₁ navigation₁,
        .mkLambda h₁ (aggregationExpr slots₁ none)]])
      (.mkCollection .toList [.mkCollection .select [relatedGroup (.param g₂) d₂.current inner₂ navigation₂,
        .mkLambda h₂ (aggregationExpr slots₂ none)]]) := by
  rintro env₁ env₂ ⟨key, items₁, items₂, hg₁, hg₂, hitems⟩
  rw [Expr.eval_related, Expr.eval_related, Expr.eval_group hg₁, Expr.eval_group hg₂]
  change (_ >>= joinItems).toOption.bind _ = (_ >>= joinItems).toOption.bind _
  rw [PropertyAggregate.valuesIn_agree hnavigation hitems]
  refine Option.bind_congr fun related _ => ?_
  rw [aggregationExpr_agree none none hslots sameGroup_related rfl]

/-- **Aggregates over related items agree**, if the collections do, and if the aggregates agree on the same
items in the clauses over them. -/
theorem entitySet_simulates {source : Node} {name : String} {children : List AggregateExpr}
    (hsource : Simulates (d₁.Within d₂) (fun _ => False) (Expr.Agree d₁ d₂ V) source.bind source.bind)
    (hchildren : ∀ {c c' a₁ a₂ : Context} {navigation : Expr} {element : HostType}, d₁.SameClause c →
      source.bind c = (.ok navigation, c') → relatedType navigation = .ok element → d₁.Within d₂ a₁ a₂ →
        let k₁ := a₁.derive element
        let k₂ := a₂.derive element
        ∀ a ∈ children, ∀ h₁ h₂, Simulates (k₁.Within k₂) (fun _ => False)
          (Expr.AgreeOn k₁ k₂ (k₁.SameItem k₂) h₁ h₂) (a.bind (.param h₁)) (a.bind (.param h₂))) :
    Simulates (d₁.Within d₂) (fun _ => False) (Expr.AgreeOn d₁ d₂ V g₁ g₂)
      ((entitySet source name children).bind (.param g₁)) ((entitySet source name children).bind (.param g₂)) := by
  rw [bind, bind]
  refine Simulates.bind Context.Within.frame hsource.traced fun n₁ n₂ hn => ?_
  obtain ⟨hn, c, _, c', hc, hbound⟩ := hn
  refine Simulates.bind (R := fun t₁ t₂ => t₁ = t₂ ∧ relatedType n₁ = .ok t₁) Context.Within.frame
    (Simulates.ofOutcome ?_) fun element _ helement => ?_
  · unfold relatedType
    rw [← hn.type]
    cases n₁.type.elementType? with
    | none => exact Follows.error _
    | some t => exact ⟨rfl, rfl⟩
  obtain ⟨rfl, hrelated⟩ := helement
  refine Simulates.bind Context.Within.frame Simulates.context fun a₁ a₂ ha => ?_
  refine Simulates.inChild element fun {b₁ b₂} hb => ⟨_, Context.Within.refl hb.depth, ?_⟩
  refine Simulates.bind Context.Within.frame Simulates.context fun _ _ _ => ?_
  refine Simulates.bind Context.Within.frame (Simulates.fresh _ _ _ _) fun h₁ h₂ _ => ?_
  refine Simulates.bind Context.Within.frame
    (bindSlots_simulates fun a ha => hchildren hc.left hbound hrelated hb a ha h₁ h₂) fun _ _ hslots => ?_
  rw [ha.left.current, ha.right.current]
  exact Simulates.pure (related_agree hn hslots)

end AggregateExpr

end Groups

end TypedQuery
