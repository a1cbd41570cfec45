import Mathlib.Data.List.MinMax
import Mathlib.Order.Nat
import TypedQuery.Proofs.Parameterization
import TypedQuery.Proofs.Runs

/-!
# The limit on nesting

The limit cuts binding off and does nothing else. Where a run is not cut off, a run under a higher
limit does the same step by step; and a run is not cut off where the levels that are left suffice for
the nodes and for the definitions of computed columns that they name.

* `Context.limited`: a context with another limit.
* `Context.Raised.bindWithin`: a run under a higher limit, or less deep; `Node.bind_deeper`: a node
  bound one level deeper.
* `Node.levels`: the levels that a node needs, given what computed columns cost; `Node.height`: those
  that it needs without computed columns.
* `Node.bind_shallow`: a node that has the levels it needs is not cut off.
* **`limit_is_cutoff`**: the two together.
-/

namespace TypedQuery

open BindM (Relates)

/-! ## Higher limits -/

namespace Context

/-- The context with another limit. -/
def limited (ctx : Context) (limit : Nat) : Context :=
  { ctx with settings := ctx.settings.withMaxDepth limit }

/-- The second context is the first one with a limit that is not lower, at a depth that is not
greater. -/
structure Raised (limit : Nat) (c₁ c₂ : Context) : Prop where
  eq : c₂ = { c₁.limited limit with depth := c₂.depth }
  le : c₁.settings.maxDepth ≤ limit
  depth : c₂.depth ≤ c₁.depth

namespace Raised

variable {limit : Nat} {c₁ c₂ : Context}

theorem congruence (h : Raised limit c₁ c₂) : Congruence c₁ c₂ Eq := by
  have hcall {args₁ args₂ : List Expr} (m : Method) (t : HostType)
      (hargs : List.Forall₂ Eq args₁ args₂) : Expr.call m args₁ t = .call m args₂ t := by
    rw [List.forall₂_eq_eq_eq] at hargs
    rw [hargs]
  rw [h.eq]
  have hnode : NodeCongruence c₁ { c₁.limited limit with depth := c₂.depth } Eq := by
    constructor <;> intros <;> subst_vars <;> first | rfl | exact hcall _ _ (by assumption)
  exact { hnode with needsGuard := fun he => by rw [he]; rfl }

/-- Literals do not look at the limit. -/
theorem constant {E : Error → Prop} (v : Value) (t : HostType) :
    Relates (Raised limit) E Eq Eq (BindM.constant v t) (BindM.constant v t) where
  ok {c₁ c₂ a c₁'} hc hx := by
    rw [hc.eq]
    obtain ⟨-, -, h₁, h₂⟩ | ⟨h₁, h₂⟩ := BindM.constant_alike v t c₁
      { c₁.limited limit with depth := c₂.depth } rfl
    · cases hx.symm.trans h₁
      exact ⟨_, _, h₂, rfl, rfl, hc.le, hc.depth⟩
    · cases hx.symm.trans h₁
      exact ⟨_, _, h₂, rfl, rfl, hc.le, hc.depth⟩
  error _ hx _ := absurd hx BindM.constant_ne_error

theorem rules (E : Error → Prop) : Rules (Raised limit) E Eq Eq Eq Eq where
  errors _ := rfl
  congruence hc := hc.congruence.toNodeCongruence
  unguarded := id
  guard hc _ hsources hcall :=
    hc.congruence.guardCall (hc.congruence.filter_needsGuard hsources) hcall
  resolve v hc := by
    rw [hc.eq]
    exact Follows.eq_refl _
  constant _ _ := constant _ _
  any _ hs hl := by rw [hs, hl]
  all _ hs hl := by rw [hs, hl]
  countWhere _ hs hl := by rw [hs, hl]

theorem aligned : Aligned (Raised limit) where
  current hc := by rw [hc.eq]; rfl
  scope hc := by rw [hc.eq]; rfl
  nextId hc := by rw [hc.eq]; rfl
  flattened hc := by rw [hc.eq]; rfl
  computed hc := by rw [hc.eq]; rfl
  deeper hc := ⟨by rw [hc.eq]; rfl, hc.le, Nat.succ_le_succ hc.depth⟩
  shallower hc := ⟨by rw [hc.eq]; rfl, hc.le, Nat.sub_le_sub_right hc.depth 1⟩
  push _ _ hc := ⟨by rw [hc.eq]; rfl, hc.le, hc.depth⟩
  pop _ hc := ⟨by rw [hc.eq]; rfl, hc.le, hc.depth⟩
  derive _ hc := ⟨by rw [hc.eq]; rfl, hc.le, hc.depth⟩
  absorb hc ha := ⟨by rw [hc.eq, ha.eq]; rfl, hc.le, hc.depth⟩

/-- **Under a higher limit, or less deep, a run does the same**, unless it is cut off before. -/
theorem bindWithin (limit : Nat) {levels₁ levels₂ : Nat} (hlevels : levels₁ ≤ levels₂) (node : Node) :
    Relates (Raised limit) (fun e => e.isTooDeep = false) Eq Eq (node.bindWithin levels₁)
      (node.bindWithin levels₂) := by
  induction levels₁ generalizing levels₂ node with
  | zero =>
    refine ⟨fun _ hx => ?_, fun _ hx he => ?_⟩
    · cases hx
    · cases hx
      cases he
  | succ levels₁ ih =>
    obtain ⟨levels₂, rfl⟩ : ∃ k, levels₂ = k + 1 := ⟨levels₂ - 1, by omega⟩
    -- where the first run has a level left, the second one has
    have hroom {c₁ c₂ : Context} (hc : Raised limit c₁ c₂) (hlt : c₁.depth < c₁.settings.maxDepth) :
        c₂.depth < c₂.settings.maxDepth := by
      have hlimit : c₂.settings.maxDepth = limit := by rw [hc.eq]; rfl
      rw [hlimit]
      exact Nat.lt_of_le_of_lt hc.depth (Nat.lt_of_lt_of_le hlt hc.le)
    refine .descend_of_room ?_ (fun _ _ => by simp [Error.isTooDeep]) hroom aligned.deeper
      aligned.shallower
    refine (rules _).alignedStep aligned (fun _ => rfl) (fun {l₁ l₂} hparam hbody => ?_)
      (fun node => ih (by omega) node) node
    cases l₁
    cases l₂
    cases hparam
    cases hbody
    rfl

end Raised

end Context

/-- A run under a higher limit, or less deep, gives what a run gives that is not cut off. -/
theorem Context.Raised.bind {limit : Nat} {c₁ c₂ : Context} (hc : Raised limit c₁ c₂) {node : Node}
    (hshallow : (node.bind c₁).1.Shallow) : (node.bind c₂).1 = (node.bind c₁).1 := by
  have hlimit : c₂.settings.maxDepth = limit := by rw [hc.eq]; rfl
  have hlevels : c₁.levelsLeft ≤ c₂.levelsLeft := by
    unfold levelsLeft
    rw [hlimit]
    exact Nat.le_trans (Nat.sub_le_sub_left hc.depth _) (Nat.sub_le_sub_right hc.le _)
  have hrun := bindWithin limit hlevels node
  unfold Node.bind at hshallow ⊢
  rcases hx : node.bindWithin c₁.levelsLeft c₁ with ⟨e | a, c'⟩
  · rw [hx] at hshallow
    obtain ⟨_, _, hy, rfl⟩ := hrun.error hc hx hshallow
    rw [hy]
  · obtain ⟨_, _, hy, rfl, -⟩ := hrun.ok hc hx
    rw [hy]

/-- A run under a higher limit gives what the run under the lower one gives that is not cut off. -/
theorem Node.bind_limited (node : Node) (ctx : Context) {n m : Nat} (h : n ≤ m)
    (hshallow : (node.bind (ctx.limited n)).1.Shallow) :
    (node.bind (ctx.limited m)).1 = (node.bind (ctx.limited n)).1 := by
  have hc : Context.Raised m (ctx.limited n) (ctx.limited m) := ⟨rfl, h, Nat.le_refl _⟩
  exact hc.bind hshallow

/-- A run one level deeper that is not cut off gives what the run gives. -/
theorem Node.bind_deeper (node : Node) (ctx : Context) (hshallow : (node.bind ctx.deeper).1.Shallow) :
    (node.bind ctx.deeper).1 = (node.bind ctx).1 := by
  have hc : Context.Raised ctx.settings.maxDepth ctx.deeper ctx := ⟨rfl, Nat.le_refl _, Nat.le_succ _⟩
  exact (hc.bind hshallow).symm

/-! ## Levels that suffice -/

namespace Node

theorem sizeOf_lt_of_mem_children {node child : Node} (h : child ∈ node.children) :
    sizeOf child < sizeOf node := by
  cases node with
  | call name args | resourceCall name args =>
    have hlt : sizeOf child < sizeOf args := List.sizeOf_lt_of_mem h
    simp only [call.sizeOf_spec, resourceCall.sizeOf_spec]
    omega
  | any source v body =>
    simp only [any.sizeOf_spec]
    rcases List.mem_cons.mp h with rfl | h
    · omega
    · obtain rfl := Option.mem_toList.mp h
      simp only [Option.some.sizeOf_spec]
      omega
  | _ =>
    simp only [children, parts, List.mem_cons, List.not_mem_nil, or_false] at h <;>
      first
        | (subst h; simp <;> omega)
        | (rcases h with rfl | rfl <;> simp <;> omega)

/-- The levels that a node needs, where a computed column costs some: one more than the nodes inside
and than the column that it names. -/
def levels (cost : String → Nat) (node : Node) : Nat :=
  max (node.alias?.elim 0 cost)
    ((node.children.attach.map fun child => child.val.levels cost).foldr max 0) + 1
termination_by sizeOf node
decreasing_by exact sizeOf_lt_of_mem_children child.property

/-- How deep nodes are nested inside a node, itself included. -/
def height (node : Node) : Nat := node.levels fun _ => 0

variable {cost : String → Nat} {node : Node}

theorem levels_eq (cost : String → Nat) (node : Node) :
    node.levels cost =
      max (node.alias?.elim 0 cost)
        ((node.children.map fun child => child.levels cost).foldr max 0) + 1 := by
  have hmap : (node.children.attach.map fun child => child.val.levels cost) =
      node.children.map fun child => child.levels cost := List.attach_map_val
  rw [levels, hmap]

theorem levels_lt_of_mem_children {child : Node} (h : child ∈ node.children) :
    child.levels cost < node.levels cost := by
  have hmem : child.levels cost ∈ node.children.map fun child => child.levels cost :=
    List.mem_map_of_mem h
  have hmax : child.levels cost ≤ (node.children.map fun child => child.levels cost).foldr max 0 :=
    List.le_max_of_le hmem (le_refl _)
  rw [levels_eq cost node]
  omega

theorem cost_lt_of_alias? {name : String} (h : node.alias? = some name) :
    cost name < node.levels cost := by
  rw [levels_eq, h]
  exact Nat.lt_succ_of_le (Nat.le_max_left _ _)

theorem levels_pos : 0 < node.levels cost := by
  rw [levels_eq]
  exact Nat.succ_pos _

end Node

/-- Runs at a depth under a limit with computed columns, which are not cut off. -/
def Context.uncut (depth limit : Nat) (computed : Entries Node) : Demand Stage where
  context _ c := c.depth = depth ∧ c.settings.maxDepth = limit ∧ c.computed = computed
  error e := e.isTooDeep = false
  expr _ _ := True

theorem Context.uncut_lawful (depth limit : Nat) (computed : Entries Node) :
    (uncut depth limit computed).Lawful where
  errors := id
  grows _ _ := trivial
  inherited _ := by constructor <;> intros <;> trivial
  param _ _ := trivial
  lambda _ _ := trivial
  constant _ v t := ⟨fun {_ c} _ hc => by
    obtain ⟨hdepth, hlimit, hcomputed⟩ := hc
    have hframe := BindM.Keeps.constant v t c
    refine ⟨.any, le_refl _, ⟨?_, ?_, ?_⟩, ?_⟩
    · rw [hframe.depth, hdepth]
    · rw [hframe.settings, hlimit]
    · rw [hframe.computed, hcomputed]
    · obtain ⟨-, -, h⟩ | h := BindM.constant_cases v t c <;> rw [h] <;> trivial⟩
  push _ _ hc := hc
  pop _ hc := hc
  derive _ hc := hc
  absorb _ hc _ := hc

namespace Node

variable {cost : String → Nat} {computed : Entries Node} {limit : Nat}
  (hcost : ∀ {name definition}, Entries.get? computed name = some definition →
    definition.levels cost ≤ cost name)
include hcost

theorem bindWithin_uncut {node : Node} {levels depth : Nat} (hnode : node.levels cost ≤ levels)
    (hlevels : levels + depth ≤ limit) :
    (Context.uncut depth limit computed).Holds .any (fun _ _ => True) (node.bindWithin levels) := by
  induction levels generalizing node depth with
  | zero => exact absurd hnode (Nat.not_le_of_lt levels_pos)
  | succ levels ih =>
    -- one level is used up where the depth grows by one, so that their sum stays below the limit
    have hstep : (Context.uncut (depth + 1) limit computed).Holds .any (fun _ _ => True)
        (Bind.step (bindWithin levels) node) := by
      refine (Context.uncut_lawful _ _ _).inside node (fun _ _ => trivial) ?_ fun child hchild _ => ?_
      · intro _ c name definition halias hc hdefinition _
        rw [hc.2.2] at hdefinition
        have hname : cost name < node.levels cost := cost_lt_of_alias? halias
        have hlevels := hcost hdefinition
        exact ih (by omega) (by omega)
      · have hlt : child.levels cost < node.levels cost := levels_lt_of_mem_children hchild
        exact ih (by omega) (by omega)
    refine hstep.descend id ?_ ?_ ?_
    · rintro _ c ⟨hdepth, hlimit, -⟩ hle
      omega
    · rintro _ c ⟨hdepth, hlimit, hcomputed⟩ -
      exact ⟨congrArg (· + 1) hdepth, hlimit, hcomputed⟩
    · rintro _ c ⟨hdepth, hlimit, hcomputed⟩
      exact ⟨congrArg (· - 1) hdepth, hlimit, hcomputed⟩

/-- A node that has the levels it needs is not cut off. -/
theorem bind_shallow {node : Node} {ctx : Context} (hcomputed : ctx.computed = computed)
    (hnode : node.levels cost ≤ ctx.levelsLeft) : (node.bind ctx).1.Shallow := by
  have hleft : ctx.levelsLeft + ctx.depth ≤ ctx.settings.maxDepth := by
    have hpos : 0 < node.levels cost := levels_pos
    unfold Context.levelsLeft at hnode ⊢
    omega
  obtain ⟨_, -, -, hshallow⟩ :=
    (bindWithin_uncut hcost hnode hleft).run (le_refl _) ⟨rfl, rfl, hcomputed⟩
  exact hshallow

end Node

theorem Outcome.shallow_iff {α : Type} {o : Outcome α} :
    o.Shallow ↔ ∀ depth limit, o ≠ .error (.nestingTooDeep depth limit) := by
  cases o with
  | ok a => simp [Meets]
  | error e => cases e <;> simp [Meets, Error.isTooDeep]

/-- **The limit is a pure cut-off.** Let two contexts differ in their limits only. A node that is bound
under the lower limit, or fails for another reason than its nesting, has the same outcome under the
higher one, whatever the computed columns are. And without computed columns, a node never fails for its
nesting where the levels that are left are as many as its height. -/
theorem limit_is_cutoff (node : Node) (ctx : Context) :
    (∀ n m, n ≤ m →
      (∀ depth limit, (node.bind (ctx.limited n)).1 ≠ .error (.nestingTooDeep depth limit)) →
      (node.bind (ctx.limited m)).1 = (node.bind (ctx.limited n)).1) ∧
    (ctx.computed = [] → node.height ≤ ctx.levelsLeft →
      ∀ depth limit, (node.bind ctx).1 ≠ .error (.nestingTooDeep depth limit)) := by
  refine ⟨fun n m h hn => ?_, fun hcomputed hheight => ?_⟩
  · exact node.bind_limited ctx h (Outcome.shallow_iff.mpr hn)
  · exact Outcome.shallow_iff.mp (Node.bind_shallow (fun h => by cases h) hcomputed hheight)

/-! ### Limits for items -/

/-- The clause over items, with a column that is defined by itself. -/
def loopContext : Context :=
  { itemContext with
    computed := [("Loop",
      .openProperty (.rangeVariable ⟨RangeVariable.itName, .entity "Item" true⟩) "Loop")] }

/-- A text in an item is looked for under two limits, next to a column that is defined by itself, and
under the least limit that its height allows. -/
theorem limit_is_cutoff_of_green :
    ((greenNode.bind (loopContext.limited 4)).1.toOption.isSome = true ∧
      (greenNode.bind (loopContext.limited 9)).1 = (greenNode.bind (loopContext.limited 4)).1) ∧
    greenNode.height = 4 ∧
      ∀ depth limit,
        (greenNode.bind (itemContext.limited 4)).1 ≠ .error (.nestingTooDeep depth limit) := by
  have hok : (greenNode.bind (loopContext.limited 4)).1.toOption.isSome = true := by decide +kernel
  have hheight : greenNode.height = 4 := by decide +kernel
  have hbound (depth limit : Nat) :
      (greenNode.bind (loopContext.limited 4)).1 ≠ .error (.nestingTooDeep depth limit) := by
    intro herror
    rw [herror] at hok
    cases hok
  refine ⟨⟨hok, (limit_is_cutoff greenNode loopContext).1 4 9 (by decide) hbound⟩, hheight, ?_⟩
  exact (limit_is_cutoff greenNode (itemContext.limited 4)).2 rfl (Nat.le_of_eq hheight)

end TypedQuery
