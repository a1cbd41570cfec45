import TypedQuery.Proofs.Limits
import TypedQuery.Proofs.Relabeling
import TypedQuery.Proofs.Rewriting

/-!
# Binding again, later

A node that was bound is bound again later in the clause, when the counters of the context have grown
and more computed columns are defined, and one level deeper. The second run gives other numbers to the
parameters of nested scopes and other names to references. If the columns that the node names have the
definitions that they had, it does the same step by step but for that, and its expression means the
same.

* `Node.names`: the columns that a node names.
* `Rewriting.renumbering`: other numbers, and no names of references.
* `Context.Later`: the contexts of the two runs.
* **`Context.Later.bindWithin`**: nodes in such contexts.
-/

namespace TypedQuery

open BindM (Relates)

/-! ## Names of columns -/

namespace Node

/-- The computed columns that a node names, where there are columns of these names. -/
def names (node : Node) : List String :=
  node.alias?.toList ++ node.children.attach.flatMap fun child => child.val.names
termination_by sizeOf node
decreasing_by exact sizeOf_lt_of_mem_children child.property

variable {node child : Node} {name : String}

theorem mem_names_of_alias? (h : node.alias? = some name) : name ∈ node.names := by
  rw [names, h]
  exact List.mem_append_left _ List.mem_cons_self

theorem mem_names_of_mem_children (h : child ∈ node.children) (hname : name ∈ child.names) :
    name ∈ node.names := by
  rw [names]
  exact List.mem_append_right _
    (List.mem_flatMap.mpr ⟨⟨child, h⟩, List.mem_attach _ _, hname⟩)

end Node

/-! ## Numbers -/

/-- Other numbers, and no names of references. -/
def Rewriting.renumbering (f : Nat → Nat) : Rewriting where
  reference _ v t := .captured "" v t
  number := f
  type_reference _ _ _ := rfl
  constValue_reference _ _ _ := rfl

namespace Expr

variable {f : Nat → Nat} {e e₁ e₂ : Expr}

theorem isNullConst_renumbering (f : Nat → Nat) (e : Expr) :
    (e.rewrite (.renumbering f)).isNullConst = e.isNullConst := by cases e <;> rfl

theorem isNonNullConst_renumbering (f : Nat → Nat) (e : Expr) :
    (e.rewrite (.renumbering f)).isNonNullConst = e.isNonNullConst := by cases e <;> rfl

theorem place?_renumbering (f : Nat → Nat) (e : Expr) :
    (e.rewrite (.renumbering f)).place? = e.place?.map fun place => (place.1.mapId f, place.2) := by
  cases e with
  | member s m => cases s <;> rfl
  | _ => rfl

/-- The second expression is the first one with other numbers, but for names. -/
abbrev Renumbers (f : Nat → Nat) : Expr → Expr → Prop :=
  Matches (.renumbering f) (.renumbering fun id => id)

theorem Renumbers.of_rewrite (h : e₁.rewrite (.renumbering f) = e₂.rewrite (.renumbering fun id => id)) :
    Renumbers f e₁ e₂ where
  rewrite := h
  isNullConst := by rw [← isNullConst_renumbering f, h, isNullConst_renumbering]

theorem Renumbers.param {p : Param} : Renumbers f (.param p) (.param (p.mapId f)) := ⟨rfl, rfl⟩

theorem Renumbers.place? (h : Renumbers f e₁ e₂) :
    e₂.place? = e₁.place?.map fun place => (place.1.mapId f, place.2) := by
  have hid : e₂.place?.map (fun place => (place.1.mapId fun id => id, place.2)) = e₂.place? :=
    Option.map_id'
  rw [← place?_renumbering, h.rewrite, place?_renumbering, hid]

theorem Renumbers.isNonNullConst (h : Renumbers f e₁ e₂) : e₁.isNonNullConst = e₂.isNonNullConst := by
  rw [← isNonNullConst_renumbering f, h.rewrite, isNonNullConst_renumbering]

/-- Expressions that differ in numbers have the same value where the numbers of the environment are
kept. -/
theorem Renumbers.eval [External] (h : Renumbers f e₁ e₂) (hf : Function.Injective f) {env : Env}
    (henv : env.mapId f = env) : e₂.eval env = e₁.eval env := by
  have hid : env.mapId (fun id => id) = env := List.map_id _
  calc e₂.eval env = (e₂.rewrite (.renumbering fun id => id)).eval (env.mapId fun id => id) :=
        (eval_rewrite (w := .renumbering fun id => id) Function.injective_id e₂ env).symm
    _ = (e₁.rewrite (.renumbering f)).eval (env.mapId f) := by rw [h.rewrite, hid, henv]
    _ = e₁.eval env := eval_rewrite (w := .renumbering f) hf e₁ env

/-- The numbers in the expression are below a bound: renumbering higher ones does not change it. -/
def NumberedBelow (bound : Nat) (e : Expr) : Prop :=
  ∀ f : Nat → Nat, (∀ id < bound, f id = id) → Renumbers f e e

theorem NumberedBelow.mono {m n : Nat} (h : e.NumberedBelow m) (hmn : m ≤ n) : e.NumberedBelow n :=
  fun f hf => h f fun id hid => hf id (Nat.lt_of_lt_of_le hid hmn)

end Expr

theorem Param.mapId_of_fixed {f : Nat → Nat} {p : Param} (h : f p.id = p.id) : p.mapId f = p := by
  unfold Param.mapId
  rw [h]

theorem Param.mapId_injective {f : Nat → Nat} (hf : Function.Injective f) :
    Function.Injective (Param.mapId f) := by
  rintro ⟨i, name, type⟩ ⟨j, name', type'⟩ h
  simp only [Param.mapId, Param.mk.injEq] at h ⊢
  exact ⟨hf h.1, h.2⟩

/-- Numbers from a bound on are moved up. -/
def moveUp (bound distance id : Nat) : Nat := if id < bound then id else id + distance

theorem moveUp_of_lt {bound distance id : Nat} (h : id < bound) : moveUp bound distance id = id :=
  if_pos h

theorem moveUp_injective (bound distance : Nat) : Function.Injective (moveUp bound distance) := by
  intro i j h
  unfold moveUp at h
  split_ifs at h <;> omega

/-- A name that is taken away is not given, and the others are given as they were. -/
theorem Entries.get?_erase {α : Type} (es : Entries α) (name key : String) :
    get? (erase es name) key = if key = name then none else get? es key := by
  induction es with
  | nil => simp [erase, get?]
  | cons e rest ih =>
    obtain ⟨n, a⟩ := e
    have hcons : erase ((n, a) :: rest) name =
        if n = name then erase rest name else (n, a) :: erase rest name := by
      by_cases hn : n = name <;> simp [erase, hn]
    rw [hcons]
    by_cases hn : n = name
    · rw [if_pos hn, ih, get?_cons, hn]
      split_ifs <;> rfl
    · rw [if_neg hn, get?_cons, get?_cons, ih]
      split_ifs with hkey hkn
      · exact absurd (hkey.symm.trans hkn) hn
      · rfl
      · rfl
      · rfl

/-- The second expression is the first one with numbers moved up, but for names. -/
abbrev Expr.Moved (bound distance : Nat) : Expr → Expr → Prop := Renumbers (moveUp bound distance)

/-! ## Contexts of two runs -/

namespace Context

/-- The second context is the first one later in the clause: numbers from a bound on are moved up,
there are other computed columns, and there is room for one more level. -/
structure Later (bound distance : Nat) (computed₁ computed₂ : Entries Node) (c₁ c₂ : Context) :
    Prop where
  schema : c₁.schema = c₂.schema
  nullPropagation : c₁.settings.nullPropagation = c₂.settings.nullPropagation
  parameterizeConstants : c₁.settings.parameterizeConstants = c₂.settings.parameterizeConstants
  limit : c₁.settings.maxDepth < c₂.settings.maxDepth
  depth : c₂.depth ≤ c₁.depth + 1
  current : c₂.current = c₁.current.mapId (moveUp bound distance)
  root : c₂.root = c₁.root.mapId (moveUp bound distance)
  scope : ∀ name, Entries.get? c₂.scope name =
    (Entries.get? c₁.scope name).map (Param.mapId (moveUp bound distance))
  flatteningSource : c₁.flatteningSource = c₂.flatteningSource
  reads : ∀ node, Option.Rel (Expr.Moved bound distance) (c₁.flattenedRead? node)
    (c₂.flattenedRead? node)
  left_computed : c₁.computed = computed₁
  right_computed : c₂.computed = computed₂
  above : bound ≤ c₁.nextId
  nextId : c₂.nextId = c₁.nextId + distance

namespace Later

variable {bound distance : Nat} {computed₁ computed₂ : Entries Node} {c₁ c₂ : Context}
  (h : Later bound distance computed₁ computed₂ c₁ c₂)
include h

theorem room (hlt : c₁.depth < c₁.settings.maxDepth) : c₂.depth < c₂.settings.maxDepth := by
  have hdepth := h.depth
  have hlimit := h.limit
  omega

theorem newNumber : moveUp bound distance c₁.nextId = c₂.nextId := by
  rw [moveUp, if_neg (Nat.not_lt_of_le h.above), h.nextId]

theorem deeper : Later bound distance computed₁ computed₂ c₁.deeper c₂.deeper :=
  { h with depth := Nat.succ_le_succ h.depth }

theorem shallower : Later bound distance computed₁ computed₂ c₁.shallower c₂.shallower :=
  { h with
    depth := by
      have hdepth := h.depth
      simp only [Context.shallower]
      omega }

theorem newParam (name : String) (type : HostType) :
    c₂.newParam name type = (c₁.newParam name type).mapId (moveUp bound distance) := by
  simp only [Context.newParam, Param.mapId, h.newNumber]

theorem push (name : String) (type : HostType) :
    Later bound distance computed₁ computed₂ (c₁.push name type) (c₂.push name type) :=
  { h with
    scope := fun key => by
      simp only [Context.push, Entries.get?_insert, h.scope, h.newParam name type]
      split_ifs <;> rfl
    above := Nat.le_succ_of_le h.above
    nextId := by
      simp only [Context.push, h.nextId]
      omega }

theorem pop (name : String) : Later bound distance computed₁ computed₂ (c₁.pop name) (c₂.pop name) :=
  { h with
    scope := fun key => by
      simp only [Context.pop, Entries.get?_erase, h.scope]
      split_ifs <;> rfl }

theorem derive (element : HostType) :
    Later bound distance computed₁ computed₂ (c₁.derive element) (c₂.derive element) :=
  { h with
    current := h.newParam RangeVariable.itName element
    flatteningSource := rfl
    reads := fun node => by
      unfold flattenedRead?
      cases node.path? <;> exact .none
    above := Nat.le_succ_of_le h.above
    nextId := by
      simp only [Context.derive, h.nextId]
      omega }

theorem absorb {a₁ a₂ : Context} (ha : Later bound distance computed₁ computed₂ a₁ a₂) :
    Later bound distance computed₁ computed₂ (c₁.absorb a₁) (c₂.absorb a₂) :=
  { h with
    above := Nat.le_trans h.above (Nat.le_max_left _ _)
    nextId := by
      simp only [Context.absorb, h.nextId, ha.nextId]
      omega }

theorem isCurrent {e₁ e₂ : Expr} (he : Expr.Moved bound distance e₁ e₂) :
    c₁.isCurrent e₁ = c₂.isCurrent e₂ := by
  have hsame (p : Param) : decide (p = c₁.current) =
      decide (p.mapId (moveUp bound distance) = c₂.current) := by
    rw [h.current]
    exact decide_eq_decide.mpr (Param.mapId_injective (moveUp_injective _ _)).eq_iff.symm
  have hmember (type : HostType) : c₁.sourceMember type = c₂.sourceMember type := by
    unfold sourceMember
    rw [h.current]
    rfl
  rw [Expr.isCurrent_eq_place?, Expr.isCurrent_eq_place?, he.place?, ← h.flatteningSource]
  rcases e₁.place? with _ | ⟨p, m⟩
  · rfl
  · cases m with
    | none => exact hsame p
    | some m =>
      cases c₁.flatteningSource with
      | none => rfl
      | some type => simp only [Option.map_some, Option.elim_some, Bool.decide_and, hsame p, hmember]

theorem congruence : Congruence c₁ c₂ (Expr.Moved bound distance) := by
  refine Expr.Matches.congruence h.schema h.nullPropagation (fun {e₁ e₂} he => ?_) fun _ => rfl
  unfold Context.needsGuard
  rw [h.nullPropagation, he.type, h.isCurrent he, Expr.Renumbers.isNonNullConst he]

theorem currentExpr : Expr.Moved bound distance c₁.currentExpr c₂.currentExpr := by
  unfold Context.currentExpr sourceMember
  rw [← h.flatteningSource, h.current]
  cases c₁.flatteningSource <;> exact ⟨rfl, rfl⟩

theorem resolve (v : RangeVariable) :
    Follows (fun _ => False) (Expr.Moved bound distance) (c₁.resolve v) (c₂.resolve v) := by
  have hroot : c₂.root = c₂.current ↔ c₁.root = c₁.current := by
    rw [h.root, h.current]
    exact (Param.mapId_injective (moveUp_injective _ _)).eq_iff
  have htype : c₂.current.type = c₁.current.type := by
    rw [h.current]
    rfl
  unfold Context.resolve Context.isFlattened
  rw [← h.flatteningSource, ← h.schema, htype]
  simp only [hroot]
  split_ifs
  · exact h.currentExpr
  · exact h.currentExpr
  · rw [h.root]
    exact .param
  · rw [h.scope]
    cases Entries.get? c₁.scope v.name with
    | none => exact Follows.error _
    | some p => exact .param

omit h in
theorem constant (v : Value) (t : HostType) :
    Relates (Later bound distance computed₁ computed₂) (fun _ => False) Eq
      (Expr.Moved bound distance) (BindM.constant v t) (BindM.constant v t) where
  ok {c₁ c₂ a c₁'} hc hx := by
    obtain ⟨-, -, h₁, h₂⟩ | ⟨h₁, h₂⟩ := BindM.constant_alike v t c₁ c₂ hc.parameterizeConstants
    · cases hx.symm.trans h₁
      exact ⟨_, _, h₂, ⟨rfl, rfl⟩, { hc with }⟩
    · cases hx.symm.trans h₁
      exact ⟨_, _, h₂, ⟨rfl, rfl⟩, hc⟩
  error _ _ he := he.elim

omit h in
theorem rules : Rules (Later bound distance computed₁ computed₂) (fun _ => False) Eq
    (Expr.Moved bound distance) (Expr.Moved bound distance)
    fun l₁ l₂ => Expr.Moved bound distance l₁.toExpr l₂.toExpr :=
  Expr.Matches.rules (fun hc => hc.congruence) (fun v hc => hc.resolve v) constant

section Scopes

variable {sub : Node → BindM Expr} {body : Node}
  (hsub : Rules.Sub (Later bound distance computed₁ computed₂) (fun _ => False) Eq
    (Expr.Moved bound distance) sub sub body)
include hsub

omit h in
/-- The predicate of a quantifier. -/
theorem quantified (name : String) (element : HostType) :
    Relates (Later bound distance computed₁ computed₂) (fun _ => False) Eq
      (fun l₁ l₂ => Expr.Moved bound distance l₁.toExpr l₂.toExpr)
      (BindM.withRangeVariable name element fun p => Bind.predicate sub body p)
      (BindM.withRangeVariable name element fun p => Bind.predicate sub body p) := by
  have predicate {p₁ p₂ : Param} (hp : p₂ = p₁.mapId (moveUp bound distance)) :
      Relates (Later bound distance computed₁ computed₂) (fun _ => False) Eq
        (fun l₁ l₂ => Expr.Moved bound distance l₁.toExpr l₂.toExpr)
        (Bind.predicate sub body p₁) (Bind.predicate sub body p₂) := by
    refine (rules.predicate hsub p₁ p₂).weaken fun l₁ l₂ hl => ?_
    obtain ⟨rfl, rfl, hbody⟩ := hl
    exact .toExpr (by rw [hp]; rfl) hbody
  -- the variable is in scope in both contexts, or gets the next number in both
  refine Relates.withRangeVariable name element (fun hc => ?_) (fun {c₁ c₂ p₁ p₂} hc h₁ h₂ => ?_)
    fun {c₁ c₂} hc _ _ => ?_
  · rw [hc.scope, Option.isSome_map]
  · rw [hc.scope, h₁] at h₂
    exact ⟨_, hc, predicate (Option.some.inj h₂).symm, id⟩
  · exact ⟨_, hc.push name element, predicate (hc.newParam name element), fun ha => ha.pop name⟩

omit h in
/-- The predicate of a nested clause. -/
theorem nested (element : HostType) :
    Relates (Later bound distance computed₁ computed₂) (fun _ => False) Eq
      (fun l₁ l₂ => Expr.Moved bound distance l₁.toExpr l₂.toExpr)
      (BindM.inChild element (Bind.filterLambda sub body))
      (BindM.inChild element (Bind.filterLambda sub body)) := by
  refine Relates.inChild element element fun hc => ⟨_, hc.derive element, ?_, hc.absorb⟩
  refine (rules.filterLambda hsub).weaken fun l₁ l₂ hl => ?_
  obtain ⟨⟨a₁, a₂, ha, h₁, h₂⟩, hbody⟩ := hl
  refine Expr.Matches.toExpr ?_ hbody
  rw [h₁, h₂, ha.current]
  rfl

end Scopes

omit h in
/-- **Later in the clause a node is bound to the same**, but for numbers and names, if the columns that
it names and those that their definitions name have the definitions that they had. -/
theorem bindWithin
    (hdefinitions : ∀ {name definition}, Entries.get? computed₁ name = some definition →
      ∀ key ∈ definition.names, Entries.get? computed₁ key = Entries.get? computed₂ key)
    (levels : Nat) {node : Node}
    (hnode : ∀ key ∈ node.names, Entries.get? computed₁ key = Entries.get? computed₂ key) :
    Relates (Later bound distance computed₁ computed₂) (fun _ => False) Eq
      (Expr.Moved bound distance) (node.bindWithin levels) (node.bindWithin levels) := by
  induction levels generalizing node with
  | zero =>
    -- a run without levels does not succeed, and failures are not compared
    refine ⟨fun _ hx => ?_, fun _ _ he => he.elim⟩
    cases hx
  | succ levels ih =>
    have hchild (child : Node) (hc : child ∈ node.children) := @ih child fun key hkey =>
      hnode key (Node.mem_names_of_mem_children hc hkey)
    refine .descend_of_room ?_ (fun _ _ => id) room deeper shallower
    refine rules.inside node (fun hc => hc.reads node) (fun {c₁ c₂ name} halias hc => ?_)
      (fun {c₁ c₂ name definition} _ hc hget => ?_) hchild
      (fun name element body hc => quantified (hchild body hc) name element)
      fun element body hc => nested (hchild body hc) element
    · rw [hc.left_computed, hc.right_computed]
      exact hnode name (Node.mem_names_of_alias? halias)
    · rw [hc.left_computed] at hget
      exact ih (hdefinitions hget)

end Later

end Context

end TypedQuery
