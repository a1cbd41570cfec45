import TypedQuery.Proofs.Limits
import TypedQuery.Proofs.NestedClauses

/-!
# Nesting of transformations

The limit on nesting holds for each expression that a transformation binds, and for each of them on its
own: neither the parts of a property to group by nor the aggregates of related items use up levels.

* `Node.nesting`: how deep the expressions are nested that have to be bound with a node.
* `Bind.reached_of_step`: a node is bound only if the expressions inside it are.
* `Node.nesting_le_of_bindWithin`: a node that is bound has the levels it needs.
* `Transformation.expressions`: the expressions of a transformation, with the levels of parts above them.
* **`expressions_keep_the_limit`**: the expressions of a transformation that is bound.
-/

namespace TypedQuery

open BindM (Keeps)

/-! ## Expressions inside a node -/

namespace Node

/-- Whether a function takes the name of a type as its last argument. -/
def takesType (function : String) : Bool :=
  Text.asciiLower function = "cast" ∨ Text.asciiLower function = "isof"

/-- What stands for a chain of properties among the reads. -/
def readAmong? (reads : Entries Expr) (node : Node) : Option Expr :=
  node.path?.bind fun path => Entries.get? reads (pathKey path)

/-- The expressions inside a node that have to be bound with it, each with the reads that stand for
chains there. A chain that has a read is bound to it, the name of a type is no expression, and the
predicate of a filtered count is one of a clause of its own, where chains have no reads. -/
def operandsIn (reads : Entries Expr) : Node → List (Entries Expr × Node)
  | .property source name kind =>
    if (readAmong? reads (.property source name kind)).isSome then [] else [(reads, source)]
  | .countWhere source predicate _ => [(reads, source), ([], predicate)]
  | .call function args | .resourceCall function args =>
    (if takesType function then args.dropLast else args).map (reads, ·)
  | node => node.children.map (reads, ·)

theorem mem_children_of_operandsIn {reads : Entries Expr} {node : Node} {p : Entries Expr × Node}
    (h : p ∈ node.operandsIn reads) : p.2 ∈ node.children := by
  have hmap {nodes : List Node} (h : p ∈ nodes.map (reads, ·)) : p.2 ∈ nodes := by
    obtain ⟨n, hn, rfl⟩ := List.mem_map.mp h
    exact hn
  cases node with
  | property source name kind =>
    simp only [operandsIn] at h
    split_ifs at h
    · cases h
    · cases List.mem_singleton.mp h
      exact List.mem_singleton.mpr rfl
  | countWhere source predicate v =>
    rcases List.mem_cons.mp h with rfl | h
    · exact List.mem_cons_self
    · cases List.mem_singleton.mp h
      exact List.mem_cons_of_mem _ List.mem_cons_self
  | call function args | resourceCall function args =>
    simp only [operandsIn] at h
    split_ifs at h
    · exact (List.dropLast_sublist _).subset (hmap h)
    · exact hmap h
  | _ => exact hmap h

/-- How deep expressions that have to be bound are nested inside a node, itself included. -/
def nesting (reads : Entries Expr) (node : Node) : Nat :=
  ((node.operandsIn reads).attach.map fun p => p.val.2.nesting p.val.1).foldr max 0 + 1
termination_by sizeOf node
decreasing_by exact sizeOf_lt_of_mem_children (mem_children_of_operandsIn p.property)

variable {reads : Entries Expr} {node : Node}

theorem nesting_eq (reads : Entries Expr) (node : Node) :
    node.nesting reads = ((node.operandsIn reads).map fun p => p.2.nesting p.1).foldr max 0 + 1 := by
  have hmap : ((node.operandsIn reads).attach.map fun p => p.val.2.nesting p.val.1) =
      (node.operandsIn reads).map fun p => p.2.nesting p.1 :=
    List.attach_map_val (f := fun p : Entries Expr × Node => p.2.nesting p.1)
  rw [nesting, hmap]

theorem nesting_le_iff {n : Nat} :
    node.nesting reads ≤ n + 1 ↔ ∀ p ∈ node.operandsIn reads, p.2.nesting p.1 ≤ n := by
  rw [nesting_eq, Nat.add_le_add_iff_right]
  constructor
  · intro h p hp
    exact (List.le_max_of_le (List.mem_map_of_mem hp) (le_refl _)).trans h
  · intro h
    refine List.max_le_of_forall_le _ _ fun m hm => ?_
    obtain ⟨p, hp, rfl⟩ := List.mem_map.mp hm
    exact h p hp

theorem nesting_pos : 0 < node.nesting reads := by
  rw [nesting_eq]
  exact Nat.succ_pos _

end Node

/-! ## Nodes that are bound -/

namespace Bind

variable {sub : Node → BindM Expr} {c c' : Context} {e : Expr}

/-- A node was bound by a function, in a context with some reads. -/
def Bound (sub : Node → BindM Expr) (p : Entries Expr × Node) : Prop :=
  ∃ c e c', c.flattened = p.1 ∧ sub p.2 c = (.ok e, c')

theorem bound_of_ok {n : Node} (h : sub n c = (.ok e, c')) : Bound sub (c.flattened, n) :=
  ⟨c, e, c', rfl, h⟩

/-- A node was bound, or it has nothing inside and another one was bound in its place. -/
def Reached (sub : Node → BindM Expr) (p : Entries Expr × Node) : Prop :=
  Bound sub p ∨ p.2.operandsIn p.1 = [] ∧ ∃ q, Bound sub q

/-- The first of several computations binds a node. -/
theorem bound_of_first {α : Type} {n : Node} {f : Expr → BindM α} {a : α}
    (h : (sub n >>= f) c = (.ok a, c')) : Bound sub (c.flattened, n) := by
  obtain ⟨e, c₁, hn, -⟩ := BindM.exists_of_bind_eq_ok h
  exact bound_of_ok hn

theorem bound_of_property {source : Node} {name : String} {kind : PropertyKind}
    (h : property sub (.property source name kind) source name c = (.ok e, c')) :
    ∀ p ∈ (Node.property source name kind).operandsIn c.flattened, Bound sub p := by
  intro p hp
  obtain ⟨_, _, hcontext, h⟩ := BindM.exists_of_bind_eq_ok h
  cases hcontext
  have hread : c.flattenedRead? (.property source name kind) =
      Node.readAmong? c.flattened (.property source name kind) := rfl
  rw [hread] at h
  simp only [Node.operandsIn] at hp
  cases hr : Node.readAmong? c.flattened (.property source name kind) with
  | some read =>
    rw [hr] at hp
    cases hp
  | none =>
    rw [hr] at h hp
    cases List.mem_singleton.mp hp
    exact bound_of_first h

variable (hsub : ∀ n, Keeps (sub n))
include hsub

/-- What is bound after a node is bound with the same reads. -/
theorem flattened_after {n : Node} {c₁ : Context} (h : sub n c = (.ok e, c₁)) :
    c₁.flattened = c.flattened := by
  have hframe := hsub n c
  rw [h] at hframe
  exact hframe.flattened

theorem bound_of_arguments {function : String} {args : List Node} {kinds : List ArgKind}
    {es : List Expr} (hlength : args.length ≤ kinds.length)
    (h : arguments sub function args kinds c = (.ok es, c')) :
    ∀ arg ∈ args, Bound sub (c.flattened, arg) := by
  induction args generalizing kinds es c c' with
  | nil => exact fun arg harg => by cases harg
  | cons arg rest ih =>
    cases kinds with
    | nil => cases hlength
    | cons k ks =>
      obtain ⟨e, c₁, he, h⟩ := BindM.exists_of_bind_eq_ok h
      obtain ⟨_, c₂, hcoerce, h⟩ := BindM.exists_of_bind_eq_ok h
      cases (Prod.mk.inj hcoerce).2
      obtain ⟨es, c₃, hrest, -⟩ := BindM.exists_of_bind_eq_ok h
      have hafter := flattened_after hsub he
      refine List.forall_mem_cons.mpr ⟨bound_of_ok he, fun arg harg => ?_⟩
      rw [← hafter]
      exact ih (Nat.le_of_succ_le_succ hlength) hrest arg harg

theorem bound_of_call {function : String} {args : List Node}
    (h : call sub function args c = (.ok e, c')) :
    ∀ p ∈ (if Node.takesType function then args.dropLast else args).map (c.flattened, ·),
      Bound sub p := by
  intro p hp
  obtain ⟨arg, harg, rfl⟩ := List.mem_map.mp hp
  unfold call at h
  split_ifs at h with htype
  · rw [if_pos (by simpa [Node.takesType] using htype)] at harg
    unfold typeFunction at h
    split at h
    · cases harg
    · cases List.mem_singleton.mp harg
      obtain ⟨_, c₁, hread, h⟩ := BindM.exists_of_bind_eq_ok h
      cases (Prod.mk.inj hread).2
      exact bound_of_first h
    · cases h
  · rw [if_neg (by simpa [Node.takesType] using htype)] at harg
    cases hb : Builtin.ofName? (Text.asciiLower function) with
    | none =>
      rw [hb] at h
      cases h
    | some b =>
      rw [hb] at h
      dsimp only at h
      unfold builtinCall at h
      by_cases htakes : b.takes args.length = true
      · rw [if_pos htakes] at h
        obtain ⟨es, c₁, hargs, -⟩ := BindM.exists_of_bind_eq_ok h
        have hlength : args.length ≤ b.args.length := by
          simp only [Builtin.takes, Bool.and_eq_true, decide_eq_true_eq] at htakes
          exact htakes.2
        exact bound_of_arguments hsub hlength hargs arg harg
      · rw [if_neg htakes] at h
        cases h

omit hsub in
theorem bound_of_quantified {name : String} {body : Node} {element : HostType} {l : Lambda}
    (h : BindM.withRangeVariable name element (fun p => predicate sub body p) c = (.ok l, c')) :
    Bound sub (c.flattened, body) := by
  cases hscope : Entries.get? c.scope name with
  | some p =>
    rw [BindM.withRangeVariable_of_some hscope] at h
    exact bound_of_first h
  | none =>
    rw [BindM.withRangeVariable_of_none hscope] at h
    have hinner : predicate sub body (c.newParam name element) (c.push name element) =
      (.ok l, (predicate sub body (c.newParam name element) (c.push name element)).2) :=
      Prod.ext (Prod.mk.inj h).1 rfl
    exact bound_of_first (c := c.push name element) hinner

/-- Two nodes that are bound one after the other. -/
theorem reached_of_pair {left right : Node} {f : Expr → Expr → BindM Expr}
    (h : (sub left >>= fun l => sub right >>= f l) c = (.ok e, c')) :
    ∀ p ∈ [left, right].map (c.flattened, ·), Reached sub p := by
  obtain ⟨l, c₁, hl, h⟩ := BindM.exists_of_bind_eq_ok h
  have hafter := flattened_after hsub hl
  refine List.forall_mem_cons.mpr ⟨.inl (bound_of_ok hl), List.forall_mem_singleton.mpr (.inl ?_)⟩
  rw [← hafter]
  exact bound_of_first h

/-- A collection and a predicate on its items are bound one after the other. -/
theorem exists_of_overItems {α : Type} {source : Node} {f : Expr → HostType → BindM α} {a : α}
    (h : (do
      let s ← sub source
      let element ← BindM.ofOutcome (itemType s)
      f s element) c = (.ok a, c')) :
    ∃ s c₁ element, Bound sub (c.flattened, source) ∧ c₁.flattened = c.flattened ∧
      f s element c₁ = (.ok a, c') := by
  obtain ⟨s, c₁, hs, h⟩ := BindM.exists_of_bind_eq_ok h
  obtain ⟨element, c₂, htype, h⟩ := BindM.exists_of_bind_eq_ok h
  cases (Prod.mk.inj htype).2
  exact ⟨s, c₁, element, bound_of_ok hs, flattened_after hsub hs, h⟩

/-- **A node is bound only if what is inside it is.** -/
theorem reached_of_step {node : Node} (h : step sub node c = (.ok e, c')) :
    ∀ p ∈ node.operandsIn c.flattened, Reached sub p := by
  cases node with
  | property source name kind => exact fun p hp => .inl (bound_of_property h p hp)
  | call name args | resourceCall name args => exact fun p hp => .inl (bound_of_call hsub h p hp)
  | unary _ source | convert source _ | count source | collectionCast source _ | resourceCast source _ =>
    exact List.forall_mem_singleton.mpr (.inl (bound_of_first h))
  | openProperty source name | openCollection source name =>
    refine List.forall_mem_singleton.mpr ?_
    obtain ⟨_, _, hcontext, h⟩ := BindM.exists_of_bind_eq_ok h
    cases hcontext
    cases hcomputed : computed? c source name with
    | none =>
      rw [hcomputed] at h
      exact .inl (bound_of_first h)
    | some definition =>
      -- the definition of a column is bound in the place of a variable
      rw [hcomputed] at h
      cases source with
      | rangeVariable v => exact .inr ⟨rfl, _, bound_of_ok h⟩
      | _ => cases hcomputed
  | binary op left right => exact reached_of_pair hsub h
  | isIn probe items => exact reached_of_pair hsub h
  | all source v body =>
    obtain ⟨s, c₁, element, hsource, hafter, h⟩ := exists_of_overItems hsub h
    obtain ⟨l, c₂, hl, -⟩ := BindM.exists_of_bind_eq_ok h
    refine List.forall_mem_cons.mpr ⟨.inl hsource, List.forall_mem_singleton.mpr (.inl ?_)⟩
    exact hafter ▸ bound_of_quantified hl
  | any source v body =>
    obtain ⟨s, c₁, element, hsource, hafter, h⟩ := exists_of_overItems hsub h
    refine List.forall_mem_cons.mpr ⟨.inl hsource, ?_⟩
    -- the literals true and false are not bound, but the collection is
    split at h
    · exact fun p hp => by cases hp
    · exact List.forall_mem_singleton.mpr (.inr ⟨rfl, _, hsource⟩)
    · exact List.forall_mem_singleton.mpr (.inr ⟨rfl, _, hsource⟩)
    · obtain ⟨l, c₂, hl, -⟩ := BindM.exists_of_bind_eq_ok h
      exact List.forall_mem_singleton.mpr (.inl (hafter ▸ bound_of_quantified hl))
  | countWhere source predicate v =>
    obtain ⟨s, c₁, element, hsource, hafter, h⟩ := exists_of_overItems hsub h
    obtain ⟨l, c₂, hl, -⟩ := BindM.exists_of_bind_eq_ok h
    obtain ⟨k, hl⟩ := BindM.exists_of_inChild_eq_ok hl
    refine List.forall_mem_cons.mpr ⟨.inl hsource, List.forall_mem_singleton.mpr (.inl ?_)⟩
    exact bound_of_first (c := c₁.derive element) hl
  | keyLookup source keys => cases h
  | _ => exact fun p hp => by cases hp

end Bind

/-- **A node that is bound has the levels it needs.** -/
theorem Node.nesting_le_of_bindWithin {node : Node} {levels : Nat} {c c' : Context} {e : Expr}
    (h : node.bindWithin levels c = (.ok e, c')) : node.nesting c.flattened ≤ levels := by
  induction levels generalizing node c c' e with
  | zero => cases h
  | succ levels ih =>
    have ih {p : Entries Expr × Node} (hp : Bind.Bound (bindWithin levels) p) :
        p.2.nesting p.1 ≤ levels := by
      obtain ⟨c₁, e₁, c₂, hreads, hbound⟩ := hp
      exact hreads ▸ ih hbound
    obtain ⟨c₁, hstep⟩ := BindM.exists_of_descend_eq_ok h
    refine nesting_le_iff.mpr fun p hp => ?_
    rcases Bind.reached_of_step (bindWithin_keeps levels) hstep p hp with hbound | ⟨hleaf, q, hq⟩
    · exact ih hbound
    · have hlevels : 0 < levels := Nat.lt_of_lt_of_le nesting_pos (ih hq)
      have hone : p.2.nesting p.1 ≤ 0 + 1 := nesting_le_iff.mpr (by simp [hleaf])
      omega

/-! ## Expressions of transformations -/

/-- An expression of a transformation, with the number of properties or aggregates that it is a part of,
and the reads that stand for chains where it is bound. -/
structure Placed where
  level : Nat
  reads : Entries Expr
  node : Node

namespace Placed

/-- The expression as a part of one more property or aggregate. -/
def below (x : Placed) : Placed := { x with level := x.level + 1 }

/-- How deep the expression is nested, with what it is a part of. -/
def nesting (x : Placed) : Nat := x.level + x.node.nesting x.reads

/-- The expression has its levels in a context. -/
def FitsIn (ctx : Context) (x : Placed) : Prop := x.node.nesting x.reads ≤ ctx.levelsLeft

end Placed

namespace GroupingProperty

mutual

/-- The expressions that a property to group by is bound to; one with parts stands for them. -/
def expressions (reads : Entries Expr) : GroupingProperty → List Placed
  | .mk _ expression children =>
    if children.isEmpty then expression.toList.map (⟨0, reads, ·⟩)
    else (allExpressions reads children).map Placed.below

/-- The expressions of several properties. -/
def allExpressions (reads : Entries Expr) : List GroupingProperty → List Placed
  | [] => []
  | g :: rest => expressions reads g ++ allExpressions reads rest

end

end GroupingProperty

namespace AggregateExpr

mutual

/-- The expressions that an aggregate is bound to. A count has none, and aggregates of related items are
those of a clause of its own. -/
def expressions (reads : Entries Expr) : AggregateExpr → List Placed
  | .property a => if a.method = .count then [] else a.input.toList.map (⟨0, reads, ·⟩)
  | .entitySet source _ children => ⟨0, reads, source⟩ :: (allExpressions [] children).map Placed.below

/-- The expressions of several aggregates. -/
def allExpressions (reads : Entries Expr) : List AggregateExpr → List Placed
  | [] => []
  | a :: rest => expressions reads a ++ allExpressions reads rest

end

end AggregateExpr

namespace Transformation

/-- The expressions that a transformation groups by and aggregates. -/
def expressions (reads : Entries Expr) (t : Transformation) : List Placed :=
  GroupingProperty.allExpressions reads t.grouping ++ AggregateExpr.allExpressions reads t.aggregates

/-- How deep the expressions of a transformation are nested, with what they are parts of. -/
def nesting (reads : Entries Expr) (t : Transformation) : Nat :=
  ((t.expressions reads).map Placed.nesting).foldr max 0

end Transformation

/-! ## Transformations that are bound -/

namespace Placed

variable {ctx c c' : Context} {x : Placed}

theorem fitsIn_of_bind {node : Node} {e : Expr} (level : Nat) (h : node.bind c = (.ok e, c')) :
    FitsIn c ⟨level, c.flattened, node⟩ := Node.nesting_le_of_bindWithin h

/-- Levels are the same all over a clause. -/
theorem FitsIn.of_frame (hc : ctx.Frame c) (h : FitsIn c x) : FitsIn ctx x := by
  unfold FitsIn Context.levelsLeft at h ⊢
  rwa [hc.settings, hc.depth] at h

theorem forall_below {xs : List Placed} (h : ∀ x ∈ xs, FitsIn ctx x) : ∀ x ∈ xs.map below, FitsIn ctx x := by
  intro x hx
  obtain ⟨y, hy, rfl⟩ := List.mem_map.mp hx
  exact h y hy

end Placed

namespace GroupingProperty

mutual

theorem fitsIn_of_bindValue : ∀ (g : GroupingProperty) {c c' : Context} {e : Expr},
    bindValue g c = (.ok e, c') → ∀ x ∈ expressions c.flattened g, x.FitsIn c
  | .mk name expression children, c, c', e, h => by
    unfold bindValue at h
    unfold expressions
    split_ifs at h ⊢
    · cases expression with
      | none => cases h
      | some node => exact List.forall_mem_singleton.mpr (Placed.fitsIn_of_bind 0 h)
    · obtain ⟨slots, c₁, hslots, -⟩ := BindM.exists_of_bind_eq_ok h
      exact Placed.forall_below (fitsIn_of_bindSlots children hslots)
termination_by structural g => g

theorem fitsIn_of_bindSlots : ∀ (gs : List GroupingProperty) {c c' : Context} {slots : List (String × Expr)},
    bindSlots gs c = (.ok slots, c') → ∀ x ∈ allExpressions c.flattened gs, x.FitsIn c
  | [], _, _, _, _ => fun x hx => by cases hx
  | g :: rest, c, c', slots, h => by
    obtain ⟨e, c₁, he, h⟩ := BindM.exists_of_bind_eq_ok h
    obtain ⟨tail, c₂, htail, -⟩ := BindM.exists_of_bind_eq_ok h
    have hframe := (bindValue_keeps g).frame he
    refine List.forall_mem_append.mpr ⟨fitsIn_of_bindValue g he, fun x hx => .of_frame hframe ?_⟩
    exact fitsIn_of_bindSlots rest htail x (hframe.flattened ▸ hx)
termination_by structural gs => gs

end

end GroupingProperty

namespace AggregateExpr

variable [External]

mutual

theorem fitsIn_of_bind : ∀ (a : AggregateExpr) {group : Expr} {c c' : Context} {e : Expr},
    bind a group c = (.ok e, c') → ∀ x ∈ expressions c.flattened a, x.FitsIn c
  | .property a, group, c, c', e, h => by
    rw [bind] at h
    unfold expressions
    split_ifs with hcount
    · exact fun x hx => by cases hx
    · obtain ⟨node, e, c₁, hinput, he, -⟩ := PropertyAggregate.exists_of_bind hcount h
      rw [hinput]
      exact List.forall_mem_singleton.mpr (Placed.fitsIn_of_bind 0 he)
  | .entitySet source name children, group, c, c', e, h => by
    rw [bind] at h
    obtain ⟨navigation, c₁, hsource, h⟩ := BindM.exists_of_bind_eq_ok h
    obtain ⟨element, c₂, htype, h⟩ := BindM.exists_of_bind_eq_ok h
    cases (Prod.mk.inj htype).2
    obtain ⟨_, _, hcontext, h⟩ := BindM.exists_of_bind_eq_ok h
    cases hcontext
    obtain ⟨k, h⟩ := BindM.exists_of_inChild_eq_ok h
    obtain ⟨_, _, hcontext, h⟩ := BindM.exists_of_bind_eq_ok h
    cases hcontext
    obtain ⟨g, c₃, hg, h⟩ := BindM.exists_of_bind_eq_ok h
    cases hg
    obtain ⟨slots, c₄, hslots, -⟩ := BindM.exists_of_bind_eq_ok h
    -- a nested clause is as deep as the clause around it
    refine List.forall_mem_cons.mpr ⟨Placed.fitsIn_of_bind 0 hsource, Placed.forall_below fun x hx => ?_⟩
    exact .of_frame ((Node.bind_keeps source).frame hsource) (fitsIn_of_bindSlots children hslots x hx)
termination_by structural a => a

theorem fitsIn_of_bindSlots : ∀ (aggregates : List AggregateExpr) {group : Expr} {c c' : Context}
    {slots : List (String × Expr)}, bindSlots aggregates group c = (.ok slots, c') →
      ∀ x ∈ allExpressions c.flattened aggregates, x.FitsIn c
  | [], _, _, _, _, _ => fun x hx => by cases hx
  | a :: rest, group, c, c', slots, h => by
    rw [bindSlots] at h
    obtain ⟨e, c₁, he, h⟩ := BindM.exists_of_bind_eq_ok h
    obtain ⟨tail, c₂, htail, -⟩ := BindM.exists_of_bind_eq_ok h
    have hframe := (bind_keeps a group).frame he
    refine List.forall_mem_append.mpr ⟨fitsIn_of_bind a he, fun x hx => .of_frame hframe ?_⟩
    exact fitsIn_of_bindSlots rest htail x (hframe.flattened ▸ hx)
termination_by structural aggregates => aggregates

end

end AggregateExpr

theorem Transformation.fitsIn_of_bindKey {t : Transformation} {c c' : Context} {l : Lambda}
    (h : t.bindKey c = (.ok l, c')) :
    ∀ x ∈ GroupingProperty.allExpressions c.flattened t.grouping, x.FitsIn c := by
  unfold bindKey at h
  cases hgrouping : t.grouping with
  | nil => exact fun x hx => by cases hx
  | cons g rest =>
    rw [hgrouping] at h
    obtain ⟨slots, c₁, hslots, -⟩ := BindM.exists_of_bind_eq_ok h
    exact GroupingProperty.fitsIn_of_bindSlots _ hslots

/-- **Each expression of a transformation keeps the limit**, on its own: what a transformation binds
successfully has expressions that need no more levels than there are left. So its nesting exceeds them
by no more than the levels of parts, and not at all without parts. -/
theorem expressions_keep_the_limit [External] {t : Transformation} {ctx after : Context}
    {bound : Transformation.BoundAggregation} (h : t.bindAggregation ctx = (.ok bound, after)) :
    (∀ x ∈ t.expressions ctx.flattened, x.node.nesting x.reads ≤ ctx.levelsLeft) ∧
      ∀ parts, (∀ x ∈ t.expressions ctx.flattened, x.level ≤ parts) →
        t.nesting ctx.flattened ≤ parts + ctx.levelsLeft := by
  have hfits : ∀ x ∈ t.expressions ctx.flattened, x.FitsIn ctx := by
    obtain ⟨c₀, c₁, c₂, g, slots, hkey, hframe, hslots, -⟩ :=
      Transformation.exists_of_bindAggregation h
    refine List.forall_mem_append.mpr ⟨Transformation.fitsIn_of_bindKey hkey, fun x hx => ?_⟩
    exact .of_frame hframe (AggregateExpr.fitsIn_of_bindSlots _ hslots x (hframe.flattened ▸ hx))
  refine ⟨hfits, fun parts hparts => List.max_le_of_forall_le _ _ fun n hn => ?_⟩
  obtain ⟨x, hx, rfl⟩ := List.mem_map.mp hn
  exact Nat.add_le_add (hparts x hx) (hfits x hx)

/-! ### Parts of properties and of aggregates -/

/-- Sales by their limit, which is a part of the property to group by. -/
def salesByPart : Transformation :=
  .groupBy [.mk "Sale" none [.mk "Limit" (some (.property saleNode "Limit" .single)) []]] []

/-- The quantities of lines, summed up. -/
def lineTotals : Transformation :=
  .aggregate [.entitySet (.property saleNode "Lines" .navigationCollection) "Lines"
    [.property ⟨.sum, some (.property (.rangeVariable lineVariable) "Qty" .single), "Total"⟩]]

theorem part_keeps_the_limit :
    ∃ bound, (salesByPart.bindAggregation (lineContext.limited 2)).1 = .ok bound ∧
      (Node.property saleNode "Limit" .single).nesting [] ≤ 2 ∧ salesByPart.nesting [] ≤ 1 + 2 := by
  have hok : (salesByPart.bindAggregation (lineContext.limited 2)).1.toOption.isSome = true := by
    decide +kernel
  obtain ⟨bound, hbound⟩ := Option.isSome_iff_exists.mp hok
  have hbound := Outcome.toOption_eq_some.mp hbound
  obtain ⟨hfits, hnesting⟩ := expressions_keep_the_limit (t := salesByPart)
    (Prod.ext hbound rfl : _ = (_, (salesByPart.bindAggregation (lineContext.limited 2)).2))
  refine ⟨bound, hbound, hfits ⟨1, [], _⟩ ?_, hnesting 1 ?_⟩
  · exact List.mem_singleton.mpr rfl
  · exact List.forall_mem_singleton.mpr (le_refl 1)

/-- **Parts do not count.** A property to group by and an aggregate of related items are bound with
expressions that are nested three deep together with what they are parts of, under a limit of two. -/
theorem parts_escape_the_limit :
    (lineContext.limited 2).depth = 0 ∧ (lineContext.limited 2).settings.maxDepth = 2 ∧
      (lineContext.limited 2).flattened = [] ∧
      ((salesByPart.bindAggregation (lineContext.limited 2)).1.toOption.isSome = true ∧
        salesByPart.nesting [] = 3) ∧
      (lineTotals.bindAggregation (lineContext.limited 2)).1.toOption.isSome = true ∧
        lineTotals.nesting [] = 3 := by
  have htwo (v : RangeVariable) (name : String) (kind : PropertyKind) :
      (Node.property (.rangeVariable v) name kind).nesting [] = 2 := by
    have hone : (Node.rangeVariable v).nesting [] = 1 := Node.nesting_eq [] _
    rw [Node.nesting_eq]
    change max ((Node.rangeVariable v).nesting []) 0 + 1 = 2
    rw [hone]
    rfl
  refine ⟨rfl, rfl, rfl, ⟨by decide +kernel, ?_⟩, by decide +kernel, ?_⟩
  · change max (1 + (Node.property saleNode "Limit" .single).nesting []) 0 = 3
    rw [saleNode, htwo]
    rfl
  · change max (0 + (Node.property saleNode "Lines" .navigationCollection).nesting [])
      (max (1 + (Node.property (.rangeVariable lineVariable) "Qty" .single).nesting []) 0) = 3
    rw [saleNode, htwo, htwo]
    rfl

end TypedQuery
