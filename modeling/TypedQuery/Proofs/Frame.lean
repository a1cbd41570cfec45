import Mathlib.Tactic.Common
import TypedQuery.Bind.Aggregation
import TypedQuery.Bind.Clause

/-!
# What binding leaves alone

Binding opens scopes on its way: a level of nesting, a variable of a quantifier, the context of a
nested clause. All of them end when the computation inside them ends, with a result or with an
error, so that a context is after binding what it was before, except for its two counters.

* `Context.Frame`: the context after is the one before, with counters that may have grown.
* `Context.resolve_cases`, `BindM.constant_cases`: what a variable and a literal are bound to.
* `BindM.Keeps`: a computation that leaves every context so; one lemma for each way to build a
  computation.
* `Bind.step_keeps`, `Node.bindWithin_keeps`: one node, and by induction on the levels left a whole
  node.
* **`binding_keeps_context`**: nodes, filters, orderings and aggregations.
-/

namespace TypedQuery

/-- The context after is the context before, except that counters may have grown. -/
structure Context.Frame (before after : Context) : Prop where
  schema : after.schema = before.schema
  settings : after.settings = before.settings
  current : after.current = before.current
  root : after.root = before.root
  scope : after.scope = before.scope
  flattened : after.flattened = before.flattened
  flatteningSource : after.flatteningSource = before.flatteningSource
  computed : after.computed = before.computed
  depth : after.depth = before.depth
  captures : before.captures ≤ after.captures
  nextId : before.nextId ≤ after.nextId

namespace Context

theorem currentExpr_of_none {ctx : Context} (h : ctx.flatteningSource = none) :
    ctx.currentExpr = .param ctx.current := by
  unfold currentExpr
  rw [h]

/-- A variable stands for the record of the clause, for the root record or for a variable of a quantifier. -/
theorem resolve_cases {ctx : Context} {v : RangeVariable} {e : Expr} (h : ctx.resolve v = .ok e) :
    e = ctx.currentExpr ∨ e = .param ctx.root ∨ ∃ p, Entries.get? ctx.scope v.name = some p ∧ e = .param p := by
  unfold resolve at h
  split_ifs at h
  · exact .inl (Except.ok.inj h).symm
  · exact .inl (Except.ok.inj h).symm
  · exact .inr (.inl (Except.ok.inj h).symm)
  · cases hp : Entries.get? ctx.scope v.name with
    | none =>
      rw [hp] at h
      cases h
    | some p =>
      rw [hp] at h
      exact .inr (.inr ⟨p, rfl, (Except.ok.inj h).symm⟩)

theorem Frame.refl (ctx : Context) : ctx.Frame ctx := by
  constructor <;> first | exact rfl | exact Nat.le_refl _

theorem Frame.trans {a b c : Context} (h₁ : a.Frame b) (h₂ : b.Frame c) : a.Frame c where
  schema := h₂.schema.trans h₁.schema
  settings := h₂.settings.trans h₁.settings
  current := h₂.current.trans h₁.current
  root := h₂.root.trans h₁.root
  scope := h₂.scope.trans h₁.scope
  flattened := h₂.flattened.trans h₁.flattened
  flatteningSource := h₂.flatteningSource.trans h₁.flatteningSource
  computed := h₂.computed.trans h₁.computed
  depth := h₂.depth.trans h₁.depth
  captures := Nat.le_trans h₁.captures h₂.captures
  nextId := Nat.le_trans h₁.nextId h₂.nextId

/-- A nested clause hands back counters only. -/
theorem frame_absorb (ctx child : Context) : ctx.Frame (ctx.absorb child) := by
  constructor <;> first | rfl | exact Nat.le_max_left _ _

/-- The parameter that a variable new to the scope gets. -/
def newParam (ctx : Context) (name : String) (type : HostType) : Param := ⟨ctx.nextId, name, type⟩

/-- The context with a variable new to the scope. -/
def push (ctx : Context) (name : String) (type : HostType) : Context :=
  { ctx with
    scope := Entries.insert ctx.scope name (ctx.newParam name type)
    nextId := ctx.nextId + 1 }

end Context

/-! ## Entries -/

namespace Entries

variable {α : Type}

theorem get?_cons (n : String) (b : α) (es : Entries α) (name : String) :
    get? ((n, b) :: es) name = if name = n then some b else get? es name := by
  unfold get?
  rw [List.lookup_cons]
  by_cases h : name = n
  · simp [h]
  · simp [h, beq_eq_false_iff_ne.mpr h]

theorem get?_insert (es : Entries α) (name key : String) (a : α) :
    get? (insert es name a) key = if key = name then some a else get? es key := by
  induction es with
  | nil => rw [insert, get?_cons]
  | cons e rest ih =>
    obtain ⟨n, b⟩ := e
    rw [insert]
    by_cases hn : n = name
    · subst hn
      simp only [beq_self_eq_true, if_true, get?_cons]
      split_ifs <;> rfl
    · rw [if_neg (by simpa using hn), get?_cons, get?_cons, ih]
      split_ifs with hk hkey
      · exact absurd (hk.symm.trans hkey) hn
      · rfl
      · rfl
      · rfl

/-- The value of a name that is given once. -/
theorem get?_of_mem {es : Entries α} {name : String} {a : α} (hnodup : (es.map Prod.fst).Nodup)
    (h : (name, a) ∈ es) : get? es name = some a := by
  induction es with
  | nil => simp at h
  | cons e rest ih =>
    obtain ⟨n, b⟩ := e
    rw [List.map_cons, List.nodup_cons] at hnodup
    rw [get?_cons]
    rcases List.mem_cons.mp h with heq | hrest
    · cases heq
      rw [if_pos rfl]
    · rw [if_neg, ih hnodup.2 hrest]
      rintro rfl
      exact hnodup.1 (List.mem_map.mpr ⟨_, hrest, rfl⟩)

theorem mem_of_get? {es : Entries α} {name : String} {a : α} (h : get? es name = some a) :
    (name, a) ∈ es := by
  induction es with
  | nil => cases h
  | cons e rest ih =>
    obtain ⟨n, b⟩ := e
    rw [get?_cons] at h
    split_ifs at h with hn
    · cases h
      rw [hn]
      exact List.mem_cons_self
    · exact List.mem_cons_of_mem _ (ih h)

/-- A name that is given has a value. -/
theorem exists_of_mem_names {es : Entries α} {name : String} (h : name ∈ names es) :
    ∃ a, get? es name = some a := by
  induction es with
  | nil => cases h
  | cons e rest ih =>
    obtain ⟨n, b⟩ := e
    rw [get?_cons]
    split_ifs with hn
    · exact ⟨b, rfl⟩
    · rcases List.mem_cons.mp h with heq | hrest
      · exact absurd heq hn
      · exact ih hrest

theorem insert_of_get?_none {es : Entries α} {name : String} (a : α) (h : get? es name = none) :
    insert es name a = es ++ [(name, a)] := by
  induction es with
  | nil => rfl
  | cons e es ih =>
    obtain ⟨n, b⟩ := e
    rw [get?_cons] at h
    split_ifs at h with hn
    have hn' : ¬ (n == name) = true := by simpa using Ne.symm hn
    rw [insert, if_neg hn', ih h]
    rfl

theorem erase_of_get?_none {es : Entries α} {name : String} (h : get? es name = none) :
    erase es name = es := by
  induction es with
  | nil => rfl
  | cons e es ih =>
    obtain ⟨n, b⟩ := e
    rw [get?_cons] at h
    split_ifs at h with hn
    have hn' : n ≠ name := Ne.symm hn
    rw [erase, List.filter_cons_of_pos (by simpa using hn')]
    exact congrArg _ (ih h)

/-- **Taking away a name that was just given restores the entries**, their order included. -/
theorem erase_insert {es : Entries α} {name : String} (a : α) (h : get? es name = none) :
    erase (insert es name a) name = es := by
  rw [insert_of_get?_none a h, erase, List.filter_append, ← erase, erase_of_get?_none h]
  simp

end Entries

/-! ## Computations that keep the context -/

namespace BindM

variable {α β : Type}

theorem withRangeVariable_of_some {f : Param → BindM α} {name : String} {type : HostType}
    {ctx : Context} {p : Param} (h : Entries.get? ctx.scope name = some p) :
    withRangeVariable name type f ctx = f p ctx := by
  unfold withRangeVariable
  rw [h]

theorem withRangeVariable_of_none {f : Param → BindM α} {name : String} {type : HostType}
    {ctx : Context} (h : Entries.get? ctx.scope name = none) :
    withRangeVariable name type f ctx =
      ((f (ctx.newParam name type) (ctx.push name type)).1,
        { (f (ctx.newParam name type) (ctx.push name type)).2 with
          scope := Entries.erase (f (ctx.newParam name type) (ctx.push name type)).2.scope name }) := by
  unfold withRangeVariable
  rw [h]
  rfl

theorem constant_inline (v : Value) (t : HostType) {ctx : Context} (h : ctx.settings.parameterizeConstants = false) :
    constant v t ctx = (.ok (.const v t), ctx) := by
  unfold constant
  rw [h]
  rfl

/-- Contexts of one setting both make a reference of a literal, with the numbers that come next, or none does. -/
theorem constant_alike (v : Value) (t : HostType) (c₁ c₂ : Context)
    (h : c₁.settings.parameterizeConstants = c₂.settings.parameterizeConstants) :
    (c₁.settings.parameterizeConstants = true ∧ v.isNull = false ∧
      constant v t c₁ =
        (.ok (.captured ("p" ++ toString c₁.captures) v t), { c₁ with captures := c₁.captures + 1 }) ∧
      constant v t c₂ =
        (.ok (.captured ("p" ++ toString c₂.captures) v t), { c₂ with captures := c₂.captures + 1 })) ∨
    (constant v t c₁ = (.ok (.const v t), c₁) ∧ constant v t c₂ = (.ok (.const v t), c₂)) := by
  unfold constant
  rw [← h]
  split_ifs with hcaptured
  · rw [Bool.and_eq_true, Bool.not_eq_true'] at hcaptured
    exact .inl ⟨hcaptured.1, hcaptured.2, rfl, rfl⟩
  · exact .inr ⟨rfl, rfl⟩

/-- A literal is a reference with the number that comes next, or stands for itself. -/
theorem constant_cases (v : Value) (t : HostType) (ctx : Context) :
    (ctx.settings.parameterizeConstants = true ∧ v.isNull = false ∧
      constant v t ctx =
        (.ok (.captured ("p" ++ toString ctx.captures) v t), { ctx with captures := ctx.captures + 1 })) ∨
    constant v t ctx = (.ok (.const v t), ctx) :=
  (constant_alike v t ctx ctx rfl).imp (fun h => ⟨h.1, h.2.1, h.2.2.1⟩) And.left

theorem constant_ne_error {v : Value} {t : HostType} {ctx after : Context} {e : Error} :
    constant v t ctx ≠ (.error e, after) := by
  obtain ⟨-, -, h⟩ | h := constant_cases v t ctx <;> rw [h] <;> nofun

/-- A computation leaves every context as it was but for the counters, whether it fails or not. -/
def Keeps (x : BindM α) : Prop := ∀ ctx : Context, ctx.Frame (x ctx).2

namespace Keeps

theorem frame {x : BindM α} (h : Keeps x) {c c' : Context} {o : Outcome α} (hx : x c = (o, c')) :
    c.Frame c' := by
  have hframe := h c
  rwa [hx] at hframe

theorem pure (a : α) : Keeps (Pure.pure a : BindM α) := Context.Frame.refl

theorem fail (e : Error) : Keeps (BindM.fail e : BindM α) := Context.Frame.refl

theorem ofOutcome (o : Outcome α) : Keeps (BindM.ofOutcome o) := Context.Frame.refl

theorem reads (f : Context → Outcome α) : Keeps (BindM.reads f) := Context.Frame.refl

theorem context : Keeps BindM.context := Context.Frame.refl

theorem bind {x : BindM α} {f : α → BindM β} (hx : Keeps x) (hf : ∀ a, Keeps (f a)) :
    Keeps (x >>= f) := by
  intro ctx
  have h := hx ctx
  change ctx.Frame (BindM.bind x f ctx).2
  unfold BindM.bind
  rcases hr : x ctx with ⟨_ | a, after⟩ <;> rw [hr] at h
  · exact h
  · exact h.trans (hf a after)

theorem fresh (name : String) (type : HostType) : Keeps (BindM.fresh name type) := by
  intro ctx
  constructor <;> first | exact rfl | exact Nat.le_refl _ | exact Nat.le_succ _

theorem constant (v : Value) (type : HostType) : Keeps (BindM.constant v type) := by
  intro ctx
  obtain ⟨-, -, h⟩ | h := constant_cases v type ctx <;> rw [h]
  · constructor <;> first | exact rfl | exact Nat.le_refl _ | exact Nat.le_succ _
  · exact Context.Frame.refl ctx

theorem descend {x : BindM α} (hx : Keeps x) : Keeps (BindM.descend x) := by
  intro ctx
  unfold BindM.descend
  split
  · exact Context.Frame.refl ctx
  · have h := hx { ctx with depth := ctx.depth + 1 }
    exact { h with depth := by simp only [h.depth, Nat.add_sub_cancel] }

/-- A variable that was pushed is popped; one that was there before is left there. -/
theorem withRangeVariable {f : Param → BindM α} (name : String) (type : HostType)
    (hf : ∀ p, Keeps (f p)) : Keeps (BindM.withRangeVariable name type f) := by
  intro ctx
  cases hn : Entries.get? ctx.scope name with
  | some p =>
    rw [withRangeVariable_of_some hn]
    exact hf p ctx
  | none =>
    rw [withRangeVariable_of_none hn]
    have h := hf (ctx.newParam name type) (ctx.push name type)
    have hs : Entries.erase (f (ctx.newParam name type) (ctx.push name type)).2.scope name
        = ctx.scope := by
      rw [h.scope]
      exact Entries.erase_insert _ hn
    exact { h with scope := hs, nextId := Nat.le_trans (Nat.le_succ _) h.nextId }

theorem inChild (element : HostType) (x : BindM α) : Keeps (BindM.inChild element x) := fun ctx =>
  Context.frame_absorb ctx _

end Keeps

end BindM

/-! ## Rules of binding -/

open BindM (Keeps)

namespace Bind

variable {sub : Node → BindM Expr} (hsub : ∀ n, Keeps (sub n))

include hsub

theorem property_keeps (node source : Node) (name : String) :
    Keeps (property sub node source name) := by
  refine Keeps.bind Keeps.context fun ctx => ?_
  split
  · exact Keeps.pure _
  · exact Keeps.bind (hsub source) fun _ => Keeps.reads _

theorem openProperty_keeps (source : Node) (name : String) :
    Keeps (openProperty sub source name) := by
  refine Keeps.bind Keeps.context fun ctx => ?_
  split
  · exact hsub _
  · exact Keeps.bind (hsub source) fun _ => Keeps.reads _

theorem binary_keeps (op : QueryOp) (left right : Node) : Keeps (binary sub op left right) :=
  Keeps.bind (hsub left) fun _ => Keeps.bind (hsub right) fun _ => Keeps.reads _

theorem unary_keeps (op : QueryUnaryOp) (operand : Node) : Keeps (unary sub op operand) :=
  Keeps.bind (hsub operand) fun _ => Keeps.ofOutcome _

theorem convert_keeps (source : Node) (type : LogicalType) : Keeps (convert sub source type) :=
  Keeps.bind (hsub source) fun _ => Keeps.bind (Keeps.reads _) fun _ => Keeps.ofOutcome _

theorem resourceCast_keeps (source : Node) (type : LogicalType) :
    Keeps (resourceCast sub source type) :=
  Keeps.bind (hsub source) fun _ => Keeps.bind (Keeps.reads _) fun _ => Keeps.pure _

theorem typeFunction_keeps (function : String) (args : List Node) :
    Keeps (typeFunction sub function args) := by
  rcases args with _ | ⟨a, _ | ⟨b, _ | ⟨c, rest⟩⟩⟩
  · exact Keeps.fail _
  · exact Keeps.bind (Keeps.reads _) fun _ => Keeps.bind (Keeps.reads _) fun _ => Keeps.pure _
  · exact Keeps.bind (Keeps.reads _) fun _ => Keeps.bind (hsub a) fun _ => Keeps.pure _
  · exact Keeps.fail _

theorem arguments_keeps (function : String) (args : List Node) (kinds : List ArgKind) :
    Keeps (arguments sub function args kinds) := by
  induction args generalizing kinds with
  | nil => exact Keeps.pure _
  | cons arg args ih =>
    cases kinds with
    | nil => exact Keeps.pure _
    | cons k ks =>
      refine Keeps.bind (hsub arg) fun e => Keeps.bind (Keeps.ofOutcome _) fun e => ?_
      exact Keeps.bind (ih ks) fun _ => Keeps.pure _

theorem builtinCall_keeps (b : Builtin) (name : String) (args : List Node) :
    Keeps (builtinCall sub b name args) := by
  unfold builtinCall
  split
  · refine Keeps.bind (arguments_keeps hsub name args b.args) fun bound => ?_
    exact Keeps.bind Keeps.context fun _ => Keeps.pure _
  · exact Keeps.fail _

theorem call_keeps (name : String) (args : List Node) : Keeps (call sub name args) := by
  unfold call
  dsimp only
  split
  · exact typeFunction_keeps hsub _ args
  · split
    · exact builtinCall_keeps hsub _ name args
    · exact Keeps.fail _

omit hsub in
theorem guarded_keeps (source result : Expr) : Keeps (guarded source result) :=
  Keeps.bind Keeps.context fun _ => Keeps.pure _

theorem predicate_keeps (body : Node) (p : Param) : Keeps (predicate sub body p) :=
  Keeps.bind (hsub body) fun _ => Keeps.bind (Keeps.reads _) fun _ => Keeps.pure _

theorem filterLambda_keeps (body : Node) : Keeps (filterLambda sub body) := by
  refine Keeps.bind (hsub body) fun _ => Keeps.bind (Keeps.reads _) fun e => ?_
  split
  · exact Keeps.bind Keeps.context fun _ => Keeps.pure _
  · exact Keeps.fail _

theorem any_keeps (source : Node) (v : RangeVariable) (body : Option Node) :
    Keeps (any sub source v body) := by
  refine Keeps.bind (hsub source) fun s => Keeps.bind (Keeps.ofOutcome _) fun element => ?_
  split
  · exact guarded_keeps _ _
  · exact guarded_keeps _ _
  · exact Keeps.pure _
  · refine Keeps.bind ?_ fun _ => guarded_keeps _ _
    exact Keeps.withRangeVariable _ _ fun p => predicate_keeps hsub _ p

theorem all_keeps (source : Node) (v : RangeVariable) (body : Node) :
    Keeps (all sub source v body) := by
  refine Keeps.bind (hsub source) fun s => Keeps.bind (Keeps.ofOutcome _) fun element => ?_
  refine Keeps.bind ?_ fun _ => guarded_keeps _ _
  exact Keeps.withRangeVariable _ _ fun p => predicate_keeps hsub body p

theorem isIn_keeps (probe items : Node) : Keeps (isIn sub probe items) :=
  Keeps.bind (hsub probe) fun _ => Keeps.bind (hsub items) fun _ =>
    Keeps.bind (Keeps.ofOutcome _) fun _ => guarded_keeps _ _

theorem count_keeps (source : Node) : Keeps (count sub source) :=
  Keeps.bind (hsub source) fun _ => Keeps.bind (Keeps.ofOutcome _) fun _ => guarded_keeps _ _

theorem countWhere_keeps (source body : Node) : Keeps (countWhere sub source body) :=
  Keeps.bind (hsub source) fun _ => Keeps.bind (Keeps.ofOutcome _) fun element =>
    Keeps.bind (Keeps.inChild element _) fun _ => guarded_keeps _ _

theorem collectionCast_keeps (source : Node) (type : LogicalType) :
    Keeps (collectionCast sub source type) :=
  Keeps.bind (hsub source) fun _ => Keeps.bind (Keeps.ofOutcome _) fun _ =>
    Keeps.bind (Keeps.reads _) fun _ => guarded_keeps _ _

omit hsub in
theorem collectionConstant_keeps (literals : List Literal) (type : LogicalType) :
    Keeps (collectionConstant literals type) :=
  Keeps.bind (Keeps.reads _) fun _ => Keeps.bind (Keeps.ofOutcome _) fun _ => Keeps.constant _ _

omit hsub in
theorem enumConstant_keeps (typeName spelling : String) :
    Keeps (enumConstant typeName spelling) := by
  refine Keeps.bind (Keeps.reads _) fun host => ?_
  split
  · exact Keeps.fail _
  · split
    · exact Keeps.constant _ _
    · exact Keeps.fail _

omit hsub in
theorem constant_keeps (l : Literal) (type : Option LogicalType) : Keeps (constant l type) := by
  refine Keeps.bind (Keeps.reads _) fun declared => ?_
  split
  · exact enumConstant_keeps _ _
  · split
    · exact Keeps.fail _
    · exact Keeps.pure _
    · exact Keeps.constant _ _

/-- **Every rule of binding keeps the context**, if the binding of the nodes inside does. -/
theorem step_keeps (node : Node) : Keeps (step sub node) := by
  cases node with
  | constant l type => exact constant_keeps l type
  | rangeVariable v => exact Keeps.reads _
  | property source name kind => exact property_keeps hsub _ source name
  | openProperty source name | openCollection source name => exact openProperty_keeps hsub source name
  | binary op left right => exact binary_keeps hsub op left right
  | unary op operand => exact unary_keeps hsub op operand
  | convert source type => exact convert_keeps hsub source type
  | call name args | resourceCall name args => exact call_keeps hsub name args
  | any source v body => exact any_keeps hsub source v body
  | all source v body => exact all_keeps hsub source v body
  | isIn probe items => exact isIn_keeps hsub probe items
  | count source => exact count_keeps hsub source
  | countWhere source body v => exact countWhere_keeps hsub source body
  | collectionCast source type => exact collectionCast_keeps hsub source type
  | resourceCast source type => exact resourceCast_keeps hsub source type
  | collectionConstant literals element => exact collectionConstant_keeps literals element
  | namedParameter | parameterAlias | entitySet | keyLookup | searchTerm => exact Keeps.fail _

end Bind

theorem Node.bindWithin_keeps (levels : Nat) (node : Node) : Keeps (node.bindWithin levels) := by
  induction levels generalizing node with
  | zero => exact Keeps.reads _
  | succ levels ih => exact Keeps.descend (Bind.step_keeps ih node)

theorem Node.bind_keeps (node : Node) : Keeps node.bind := fun ctx =>
  node.bindWithin_keeps ctx.levelsLeft ctx

/-! ## Clauses and aggregations -/

theorem FilterClause.bind_keeps (clause : FilterClause) : Keeps clause.bind :=
  Bind.filterLambda_keeps Node.bind_keeps clause.predicate

theorem OrderKey.bind_keeps (key : OrderKey) : Keeps key.bind := by
  refine Keeps.bind (Node.bind_keeps _) fun e => ?_
  split
  · exact Keeps.fail _
  · exact Keeps.bind Keeps.context fun _ => Keeps.pure _

theorem OrderKey.bindAll_keeps (keys : List OrderKey) : Keeps (OrderKey.bindAll keys) := by
  induction keys with
  | nil => exact Keeps.pure _
  | cons key rest ih =>
    exact Keeps.bind (OrderKey.bind_keeps key) fun _ => Keeps.bind ih fun _ => Keeps.pure _

namespace GroupingProperty

mutual

theorem bindValue_keeps : ∀ g : GroupingProperty, Keeps (bindValue g)
  | .mk _ expression children => by
    unfold bindValue
    split
    · cases expression with
      | some e => exact e.bind_keeps
      | none => exact Keeps.fail _
    · exact Keeps.bind (bindSlots_keeps children) fun _ => Keeps.pure _
termination_by structural g => g

theorem bindSlots_keeps : ∀ gs : List GroupingProperty, Keeps (bindSlots gs)
  | [] => Keeps.pure _
  | g :: rest =>
    Keeps.bind (bindValue_keeps g) fun _ => Keeps.bind (bindSlots_keeps rest) fun _ => Keeps.pure _
termination_by structural gs => gs

end

end GroupingProperty

theorem PropertyAggregate.bindInput_keeps (a : PropertyAggregate) : Keeps a.bindInput := by
  unfold PropertyAggregate.bindInput
  split
  · exact Node.bind_keeps _
  · exact Keeps.fail _

theorem PropertyAggregate.bind_keeps [External] (a : PropertyAggregate) (group : Expr) :
    Keeps (a.bind group) := by
  unfold PropertyAggregate.bind
  split
  · exact Keeps.pure _
  · exact Keeps.bind a.bindInput_keeps fun _ => Keeps.reads _

namespace AggregateExpr

variable [External]

theorem bind_keeps (a : AggregateExpr) (group : Expr) : Keeps (bind a group) := by
  cases a with
  | property p =>
    rw [bind]
    exact p.bind_keeps group
  | entitySet source name children =>
    rw [bind]
    -- the children are bound in a nested clause, which hands back counters only
    refine Keeps.bind source.bind_keeps fun navigation => Keeps.bind (Keeps.ofOutcome _) fun element => ?_
    exact Keeps.bind Keeps.context fun ctx => Keeps.inChild element _

theorem bindSlots_keeps (aggregates : List AggregateExpr) (group : Expr) :
    Keeps (bindSlots aggregates group) := by
  induction aggregates with
  | nil =>
    rw [bindSlots]
    exact Keeps.pure _
  | cons a rest ih =>
    rw [bindSlots]
    exact Keeps.bind (bind_keeps a group) fun _ => Keeps.bind ih fun _ => Keeps.pure _

end AggregateExpr

namespace Transformation

theorem bindKey_keeps (t : Transformation) : Keeps t.bindKey := by
  unfold bindKey
  have finish (body : Expr) :
      Keeps (do return (⟨(← BindM.context).current, body⟩ : Lambda)) :=
    Keeps.bind Keeps.context fun _ => Keeps.pure _
  dsimp only
  split
  · exact Keeps.bind (Keeps.pure _) finish
  · exact Keeps.bind (GroupingProperty.bindSlots_keeps _) fun _ => Keeps.bind (Keeps.pure _) finish

theorem bindResult_keeps [External] (t : Transformation) : Keeps t.bindResult :=
  Keeps.bind Keeps.context fun _ => Keeps.bind (Keeps.fresh _ _) fun _ =>
    Keeps.bind (AggregateExpr.bindSlots_keeps _ _) fun _ => Keeps.pure _

theorem bindAggregation_keeps [External] (t : Transformation) : Keeps t.bindAggregation := by
  unfold bindAggregation
  split
  · exact Keeps.bind t.bindKey_keeps fun _ => Keeps.bind t.bindResult_keeps fun _ => Keeps.pure _
  · exact Keeps.fail _

end Transformation

end TypedQuery
