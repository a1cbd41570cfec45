import TypedQuery.Proofs.Rows

/-!
# Nodes without nested scopes

A node without quantifiers and without filtered counts is bound in one clause from beginning to end.
If variables agree in two contexts, and properties do, then all such nodes agree.

* `Node.ScopeFree`: nodes without nested scopes, whose chains of properties satisfy a predicate.
* **`Context.Corresponds.scopeFree`**: such a node in two corresponding contexts.
* `Context.Fresh`: the context of a top-level clause.
* `Context.pathExpr`, `Node.bindWithin_path`: what a chain of properties is bound to in one.
-/

namespace TypedQuery

open BindM (Simulates)

/-- A node in which no quantifier and no filtered count stands, and whose chains of properties all
satisfy a predicate. -/
inductive Node.ScopeFree (chains : List String → Prop) : Node → Prop
  | constant (l : Literal) (type : Option LogicalType) : ScopeFree chains (.constant l type)
  | rangeVariable (v : RangeVariable) : ScopeFree chains (.rangeVariable v)
  | property {source : Node} {name : String} {kind : PropertyKind}
    (hs : ScopeFree chains source)
    (hpath : ∀ path, (Node.property source name kind).path? = some path → chains path) :
    ScopeFree chains (.property source name kind)
  | openProperty {source : Node} {name : String} (hs : ScopeFree chains source) :
    ScopeFree chains (.openProperty source name)
  | openCollection {source : Node} {name : String} (hs : ScopeFree chains source) :
    ScopeFree chains (.openCollection source name)
  | binary {op : QueryOp} {left right : Node} (hl : ScopeFree chains left)
    (hr : ScopeFree chains right) : ScopeFree chains (.binary op left right)
  | unary {op : QueryUnaryOp} {operand : Node} (hs : ScopeFree chains operand) :
    ScopeFree chains (.unary op operand)
  | convert {source : Node} {type : LogicalType} (hs : ScopeFree chains source) :
    ScopeFree chains (.convert source type)
  | call {name : String} {args : List Node} (hargs : ∀ arg ∈ args, ScopeFree chains arg) :
    ScopeFree chains (.call name args)
  | resourceCall {name : String} {args : List Node} (hargs : ∀ arg ∈ args, ScopeFree chains arg) :
    ScopeFree chains (.resourceCall name args)
  | isIn {probe items : Node} (hp : ScopeFree chains probe) (hs : ScopeFree chains items) :
    ScopeFree chains (.isIn probe items)
  | count {source : Node} (hs : ScopeFree chains source) : ScopeFree chains (.count source)
  | collectionCast {source : Node} {type : LogicalType} (hs : ScopeFree chains source) :
    ScopeFree chains (.collectionCast source type)
  | resourceCast {source : Node} {type : LogicalType} (hs : ScopeFree chains source) :
    ScopeFree chains (.resourceCast source type)
  | collectionConstant (literals : List Literal) (element : LogicalType) :
    ScopeFree chains (.collectionConstant literals element)
  | namedParameter (name : String) : ScopeFree chains (.namedParameter name)
  | parameterAlias (name : String) : ScopeFree chains (.parameterAlias name)
  | entitySet (name : String) : ScopeFree chains (.entitySet name)
  | keyLookup {source : Node} (keys : List (String × Literal)) (hs : ScopeFree chains source) :
    ScopeFree chains (.keyLookup source keys)
  | searchTerm (term : String) : ScopeFree chains (.searchTerm term)

theorem Node.scopeFree_of_path {node : Node} {path : List String} (h : node.path? = some path) :
    node.ScopeFree fun _ => True := by
  fun_induction Node.path? node generalizing path with
  | case1 v => exact .rangeVariable v
  | case2 source name kind ih =>
    obtain ⟨init, hinit, -⟩ := Option.map_eq_some_iff.mp h
    exact .property (ih hinit) fun _ _ => trivial
  | case3 => cases h

theorem Node.ScopeFree.chain {chains : List String → Prop} {node : Node} {path : List String}
    (h : node.ScopeFree chains) (hpath : node.path? = some path) (hne : path ≠ []) : chains path := by
  cases h with
  | property _ hchains => exact hchains path hpath
  | rangeVariable v =>
    cases hpath
    contradiction
  | _ => cases hpath

/-! ## Corresponding contexts -/

/-- The binding of a node follows itself with as many levels as the contexts leave. -/
theorem Node.bind_simulates [External] {E : Error → Prop} {R : Expr → Expr → Prop} {d₁ d₂ : Context}
    {node : Node} (hsettings : d₁.settings = d₂.settings)
    (hnode : ∀ levels, Simulates (d₁.Within d₂) E R (node.bindWithin levels) (node.bindWithin levels)) :
    Simulates (d₁.Within d₂) E R node.bind node.bind := by
  have hlevels {c₁ c₂ : Context} (hc : d₁.Within d₂ c₁ c₂) : c₁.levelsLeft = c₂.levelsLeft := by
    unfold Context.levelsLeft
    rw [hc.left.settings, hc.right.settings, hsettings, hc.depth]
  refine ⟨fun {c₁ c₂ a c₁'} hc hx => ?_, fun {c₁ c₂ e c₁'} hc hx he => ?_⟩
  · unfold Node.bind at hx ⊢
    rw [← hlevels hc]
    exact (hnode _).ok hc hx
  · unfold Node.bind at hx ⊢
    rw [← hlevels hc]
    exact (hnode _).error hc hx he

namespace Context.Corresponds

variable [External] {E : Error → Prop} {V : Env → Env → Prop} {d₁ d₂ : Context} (h : Corresponds E V d₁ d₂)
include h

/-- A node without levels left. -/
theorem noLevels {R : Expr → Expr → Prop} (node : Node) :
    Simulates (d₁.Within d₂) E R (node.bindWithin 0) (node.bindWithin 0) :=
  Simulates.reads fun hc => by
    rw [hc.left.settings, hc.right.settings, h.settings, hc.depth]
    exact Follows.error _

/-- **Nodes without nested scopes agree** where variables do and chains of properties do, if there
are no computed columns. -/
theorem scopeFree {chains : List String → Prop} (hcomputed : d₁.computed = [])
    (hproperty : ∀ levels source name kind,
      (∀ path, (Node.property source name kind).path? = some path → chains path) →
      Simulates (d₁.Within d₂) E (Expr.Agree d₁ d₂ V) (source.bindWithin levels)
        (source.bindWithin levels) →
      Simulates (d₁.Within d₂) E (Expr.Agree d₁ d₂ V)
        (Bind.property (Node.bindWithin levels) (.property source name kind) source name)
        (Bind.property (Node.bindWithin levels) (.property source name kind) source name))
    {node : Node} (hnode : node.ScopeFree chains) (levels : Nat) :
    Simulates (d₁.Within d₂) E (Expr.Agree d₁ d₂ V) (node.bindWithin levels)
      (node.bindWithin levels) := by
  have hsim := h.simulation
  have hdefinition {source : Node} {name : String} {c₁ c₂ : Context} {definition : Node}
      (hc : d₁.Within d₂ c₁ c₂) (hd : Bind.computed? c₁ source name = some definition) : False := by
    unfold Bind.computed? at hd
    rw [hc.left.computed, hcomputed] at hd
    split at hd <;> cases hd
  induction levels generalizing node with
  | zero => exact h.noLevels node
  | succ levels ih =>
    refine h.descend ?_
    cases hnode with
    | constant l type => exact hsim.literal l type
    | rangeVariable v => exact Simulates.reads fun hc => hsim.resolve v hc
    | property hs hpath => exact hproperty levels _ _ _ hpath (ih hs)
    | openProperty hs | openCollection hs =>
      exact hsim.openProperty _ (ih hs) fun hc hd => (hdefinition hc hd).elim
    | binary hl hr => exact hsim.binary _ (ih hl) (ih hr)
    | unary hs => exact hsim.unary _ (ih hs)
    | convert hs => exact hsim.convert _ (ih hs)
    | call hargs | resourceCall hargs => exact hsim.call _ fun arg ha => ih (hargs arg ha)
    | isIn hp hs => exact hsim.isIn (ih hp) (ih hs)
    | count hs => exact hsim.count (ih hs)
    | collectionCast hs => exact hsim.collectionCast _ (ih hs)
    | resourceCast hs => exact hsim.resourceCast _ (ih hs)
    | collectionConstant literals element => exact hsim.collectionConstant literals element
    | namedParameter | parameterAlias | entitySet | keyLookup | searchTerm => exact Simulates.fail _

end Context.Corresponds

/-! ## Chains of properties -/

namespace Context

/-- The context of a top-level clause: its record is the root record, no variable is in scope, and
neither flattening nor a computed column has put anything in place of a property. -/
structure Fresh (ctx : Context) : Prop where
  root : ctx.root = ctx.current
  scope : ctx.scope = []
  flattened : ctx.flattened = []
  flatteningSource : ctx.flatteningSource = none
  computed : ctx.computed = []

/-- The chain of declared members from the current record on. -/
def pathExpr (ctx : Context) (path : List String) : Outcome Expr :=
  path.foldlM ctx.memberAccess (.param ctx.current)

theorem SameClause.deeper {d c : Context} (h : d.SameClause c) : d.SameClause c.deeper :=
  { h with }

theorem SameClause.memberAccess {d c : Context} (h : d.SameClause c) (source : Expr) (name : String) :
    c.memberAccess source name = d.memberAccess source name := by
  unfold Context.memberAccess guardIfNeeded needsGuard
  rw [h.schema, h.settings, h.isCurrent]

namespace Fresh

variable {ctx : Context} (h : ctx.Fresh)
include h

/-- The only variables are the two names of the current record. -/
theorem resolve (v : RangeVariable) :
    ctx.resolve v = .ok (.param ctx.current) ∨
      ctx.resolve v = .error (.unknownRangeVariable v.name) := by
  unfold Context.resolve
  rw [currentExpr_of_none h.flatteningSource, h.scope]
  split_ifs with hthis hit hroot
  · exact .inl rfl
  · exact .inl rfl
  · exact absurd (.inr (.inl h.root)) hroot
  · exact .inr rfl

theorem flattenedRead (node : Node) : ctx.flattenedRead? node = none := by
  unfold flattenedRead?
  rw [h.flattened]
  cases node.path? <;> rfl

/-- An expression for a member is neither a literal, nor a lambda, nor the current record. -/
theorem memberAccess_plain {source e : Expr} {name : String}
    (he : ctx.memberAccess source name = .ok e) :
    e.constValue? = none ∧ e.isLambda = false ∧ ctx.isCurrent e = false := by
  have hmember (m : Member) : ctx.isCurrent (.member source m) = false := by
    refine Expr.isCurrent_member m fun hf => ?_
    simp [Context.isFlattened, h.flatteningSource] at hf
  unfold Context.memberAccess at he
  split at he
  · rename_i m _
    cases he
    unfold guardIfNeeded Expr.widenPrimitive
    split
    · exact ⟨rfl, rfl, rfl⟩
    · split
      · exact ⟨rfl, rfl, rfl⟩
      · exact ⟨rfl, rfl, hmember m⟩
  · cases he

/-- A property of a chain, if the chain before it is bound to its members. -/
theorem property_path {sub : Node → BindM Expr} {node source : Node} {name : String}
    {init : List String} {c c' : Context} {e : Expr} (hc : ctx.SameClause c)
    (hkeeps : BindM.Keeps (sub source))
    (hsub : ∀ {s c₁}, sub source c = (.ok s, c₁) → ctx.pathExpr init = .ok s)
    (he : Bind.property sub node source name c = (.ok e, c')) :
    ctx.pathExpr (init ++ [name]) = .ok e := by
  obtain ⟨_, _, hread, he⟩ := BindM.exists_of_bind_eq_ok he
  cases hread
  rw [hc.flattenedRead, h.flattenedRead] at he
  obtain ⟨s, c₁, hs, he⟩ := BindM.exists_of_bind_eq_ok he
  have hframe := hkeeps c
  rw [hs] at hframe
  have he : c₁.memberAccess s name = .ok e := (Prod.mk.inj he).1
  rw [(hc.frame hframe).memberAccess] at he
  have hsource := hsub hs
  unfold pathExpr at hsource ⊢
  rw [List.foldlM_append, hsource]
  simp only [Outcome.ok_bind, List.foldlM_cons, List.foldlM_nil, he]
  rfl

/-- **A chain of properties is bound to the chain of its members**, wherever it stands. -/
theorem bindWithin_path {node : Node} {path : List String} {levels : Nat} {c c' : Context} {e : Expr}
    (hc : ctx.SameClause c) (hpath : node.path? = some path)
    (he : node.bindWithin levels c = (.ok e, c')) : ctx.pathExpr path = .ok e := by
  induction levels generalizing node path c c' e with
  | zero => cases he
  | succ levels ih =>
    obtain ⟨c₁, he⟩ := BindM.exists_of_descend_eq_ok he
    cases node with
    | rangeVariable v =>
      cases hpath
      have he : c.deeper.resolve v = .ok e := (Prod.mk.inj he).1
      rw [hc.deeper.resolve] at he
      rcases h.resolve v with hv | hv
      · rw [hv] at he
        exact he
      · rw [hv] at he
        cases he
    | property source name kind =>
      obtain ⟨init, hinit, rfl⟩ := Option.map_eq_some_iff.mp hpath
      exact h.property_path hc.deeper (Node.bindWithin_keeps levels source)
        (fun hs => ih hc.deeper hinit hs) he
    | _ => cases hpath

/-- The expression of a chain is neither a literal, nor a lambda, nor the current record. -/
theorem pathExpr_plain {path : List String} {e : Expr} (hpath : path ≠ [])
    (he : ctx.pathExpr path = .ok e) :
    e.constValue? = none ∧ e.isLambda = false ∧ ctx.isCurrent e = false := by
  rw [← List.dropLast_concat_getLast hpath] at he
  unfold pathExpr at he
  rw [List.foldlM_append] at he
  obtain ⟨s, -, he⟩ := Outcome.bind_eq_ok.mp he
  simp only [List.foldlM_cons, List.foldlM_nil, bind_pure] at he
  exact h.memberAccess_plain he

/-- Environments in which the current record has the same value. -/
def SameCurrent (ctx : Context) (env₁ env₂ : Env) : Prop :=
  env₁.lookup ctx.current.id = env₂.lookup ctx.current.id

theorem agree_current [External] :
    Expr.Agree ctx ctx (SameCurrent ctx) (.param ctx.current) (.param ctx.current) := by
  have hunflattened : ctx.isFlattened = false := by
    simp [Context.isFlattened, h.flatteningSource]
  refine ⟨rfl, rfl, rfl, rfl, rfl, rfl, rfl, ?_, ?_, fun hV => ?_, .param _⟩
  · simp [hunflattened]
  · simp [hunflattened]
  · simp only [Expr.eval]
    rw [hV]

/-- A chain of members is not affected by anything but the current record. -/
theorem pathExpr_agree [External] {path : List String} {e : Expr} (he : ctx.pathExpr path = .ok e) :
    Expr.Agree ctx ctx (SameCurrent ctx) e e := by
  have hcongruence : Congruence ctx ctx (Expr.Agree ctx ctx (SameCurrent ctx)) :=
    Expr.agree_congruence rfl rfl
  have run : ∀ (path : List String) (s e : Expr), Expr.Agree ctx ctx (SameCurrent ctx) s s →
      path.foldlM ctx.memberAccess s = .ok e → Expr.Agree ctx ctx (SameCurrent ctx) e e := by
    intro path
    induction path with
    | nil =>
      intro s e hs he
      cases he
      exact hs
    | cons name rest ih =>
      intro s e hs he
      rw [List.foldlM_cons] at he
      obtain ⟨m, hm, he⟩ := Outcome.bind_eq_ok.mp he
      have hstep := hcongruence.memberAccess (E := fun _ => True) name hs
      rw [hm] at hstep
      exact ih m e hstep he
  exact run path _ e h.agree_current he

/-- A chain that is bound in one context of a clause is bound in all of them, at the same depth. -/
theorem bind_path [External] {node : Node} {path : List String} {c₁ c₂ c₁' : Context} {e : Expr}
    (hc : ctx.Within ctx c₁ c₂) (hpath : node.path? = some path)
    (he : node.bind c₁ = (.ok e, c₁')) : ∃ c₂', node.bind c₂ = (.ok e, c₂') := by
  have hcorr : Corresponds (fun _ => True) (SameCurrent ctx) ctx ctx := by
    refine ⟨rfl, rfl, rfl, fun v => ?_⟩
    rcases h.resolve v with hv | hv <;> rw [hv]
    · exact h.agree_current
    · exact Follows.error _
  have hreads {c₁ c₂ : Context} (hc : ctx.Within ctx c₁ c₂) (node : Node) :
      c₁.flattenedRead? node = none ∧ c₂.flattenedRead? node = none := by
    rw [hc.left.flattenedRead, hc.right.flattenedRead, h.flattenedRead]
    exact ⟨rfl, rfl⟩
  have hfree := Node.scopeFree_of_path hpath
  have hsim := Node.bind_simulates hcorr.settings fun levels => hcorr.scopeFree h.computed
    (fun levels source name kind _ hs => hcorr.simulation.property name (fun hc => hreads hc _) hs)
    hfree levels
  obtain ⟨e₂, c₂', he₂, -⟩ := hsim.ok hc he
  have hpath₁ := h.bindWithin_path hc.left hpath he
  have hpath₂ := h.bindWithin_path hc.right hpath he₂
  rw [hpath₁] at hpath₂
  cases hpath₂
  exact ⟨c₂', he₂⟩

end Fresh

end Context

end TypedQuery
