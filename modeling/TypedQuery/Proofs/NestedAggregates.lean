import TypedQuery.Proofs.NestedClauses

/-!
# Aggregates over related items of flattened records

The aggregates of related items are bound in a nested clause, whose record is the related item. Over
records and over flattened records the nested clauses differ in the root record only, so aggregates
that do not name it agree; and the collection that the items are from is bound in the clause itself,
where it agrees if its node does.

* `AggregateExpr.Rootless`: aggregates of related items that do not name the root record.
* `Context.Child.aggregate_simulates`: such an aggregate in two nested clauses.
* `AggregateExpr.OfClause`: the aggregates of a clause.
* **`AggregateExpr.OfClause.simulates`**: they agree over records and over flattened records.
-/

namespace TypedQuery

open BindM (Simulates)

/-! ## Aggregates in nested clauses -/

/-- In clauses over records of a type, the aggregate names no root record: neither what it combines or
ranges over does, nor do the aggregates of its related items, in the clause over these. -/
inductive AggregateExpr.Rootless [External] (s : Schema) : HostType → AggregateExpr → Prop
  | property {t : HostType} {a : PropertyAggregate} (hinput : ∀ n, a.input = some n → n.Rootless s t) :
    Rootless s t (.property a)
  | entitySet {t : HostType} {source : Node} {name : String} {children : List AggregateExpr}
    (hsource : source.Rootless s t)
    (hchildren : ∀ (c c' : Context) (navigation : Expr) (element : HostType), c.Over s t →
      source.bind c = (.ok navigation, c') → relatedType navigation = .ok element →
        ∀ a ∈ children, Rootless s element a) : Rootless s t (.entitySet source name children)

namespace Context.Child

variable [External] {k₁ k₂ : Context} {s : Schema} {t : HostType}

/-- In nested clauses without variables, nodes that do not name the root record have the same value where
the current records do. -/
theorem bind_simulates {node : Node} (h : Child k₁ k₂) (hover : k₁.Over s t) (hscope : k₁.scope = [])
    (hnode : node.Rootless s t) :
    Simulates (k₁.Within k₂) (fun _ => False) (Expr.Agree k₁ k₂ (k₁.SameItem k₂)) node.bind node.bind := by
  have hshared {env₁ env₂ : Env} (hV : k₁.SameItem k₂ env₁ env₂) : k₁.EnvShared k₂ env₁ env₂ := by
    refine ⟨hV, fun p₁ p₂ hp => ?_⟩
    obtain ⟨name, hp, -⟩ := hp
    rw [hscope] at hp
    cases hp
  refine Node.bind_simulates h.settings fun levels => ?_
  refine ((h.agree (hnode.ignoresRoot hover) levels).forResults fun _ hfalse => hfalse.elim).mono
    fun e₁ e₂ he => ?_
  exact { he with eval := fun hV => he.eval (hshared hV) }

/-- **In nested clauses, aggregates that do not name the root record agree** on groups of the same
items. -/
theorem aggregate_simulates {a : AggregateExpr} (ha : a.Rootless s t) (h : Child k₁ k₂)
    (hover : k₁.Over s t) (hscope : k₁.scope = []) (g₁ g₂ : Param) :
    Simulates (k₁.Within k₂) (fun _ => False) (Expr.AgreeOn k₁ k₂ (k₁.SameItem k₂) g₁ g₂)
      (a.bind (.param g₁)) (a.bind (.param g₂)) := by
  induction ha generalizing k₁ k₂ g₁ g₂ with
  | property hinput =>
    rw [AggregateExpr.bind, AggregateExpr.bind]
    exact PropertyAggregate.simulates h.schema fun n hn => h.bind_simulates hover hscope (hinput n hn)
  | entitySet hsource _ ih =>
    refine AggregateExpr.entitySet_simulates (h.bind_simulates hover hscope hsource)
      fun hc hbound hrelated hd a ha h₁ h₂ => ?_
    exact ih _ _ _ _ (hover.sameClause hc) hbound hrelated a ha
      ((h.toParallel.sameClause hd.left hd.right).child _) ((hover.sameClause hd.left).derive _)
      (hd.left.scope.trans hscope) h₁ h₂

end Context.Child

/-! ## Aggregates of a clause -/

/-- The nodes of an aggregate that are bound in the clause of a context satisfy a predicate: the input of
an aggregate of a property, which a count does not have, or the collection of related items. The
aggregates of related items do not name the root record. -/
def AggregateExpr.OfClause [External] (ctx : Context) (P : Node → Prop) : AggregateExpr → Prop
  | .property a => (∀ n, a.input = some n → P n) ∧ (a.method = .count → a.input = none)
  | .entitySet source _ children => P source ∧
    ∀ (c c' : Context) (navigation : Expr) (element : HostType), ctx.SameClause c →
      source.bind c = (.ok navigation, c') → relatedType navigation = .ok element →
        ∀ a ∈ children, a.Rootless ctx.schema element

namespace AggregateExpr.OfClause

variable [External] {ctx d : Context} {P : Node → Prop} {V : Env → Env → Prop} {a : AggregateExpr}

/-- **The aggregates of a clause agree over records and over flattened records**, if the nodes do. -/
theorem simulates (ha : a.OfClause ctx P) (hfresh : ctx.Fresh) (hparallel : ctx.Parallel d)
    (hP : ∀ n, P n → Simulates (ctx.Within d) (fun _ => False) (Expr.Agree ctx d V) n.bind n.bind)
    (g₁ g₂ : Param) :
    Simulates (ctx.Within d) (fun _ => False) (Expr.AgreeOn ctx d V g₁ g₂) (a.bind (.param g₁))
      (a.bind (.param g₂)) := by
  have hover : ctx.Over ctx.schema ctx.current.type :=
    ⟨rfl, rfl, hfresh.flatteningSource, hfresh.flattened, hfresh.computed⟩
  cases a with
  | property p =>
    rw [AggregateExpr.bind, AggregateExpr.bind]
    exact PropertyAggregate.simulates hparallel.schema fun n hn => hP n (ha.1 n hn)
  | entitySet source name children =>
    refine AggregateExpr.entitySet_simulates (hP source ha.1) fun hc hbound hrelated hd a hmem h₁ h₂ => ?_
    exact Context.Child.aggregate_simulates (ha.2 _ _ _ _ hc hbound hrelated a hmem)
      ((hparallel.sameClause hd.left hd.right).child _) ((hover.sameClause hd.left).derive _)
      (hd.left.scope.trans hfresh.scope) h₁ h₂

end AggregateExpr.OfClause

end TypedQuery
