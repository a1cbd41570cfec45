import TypedQuery.Proofs.UnguardedCalls

/-!
# Null propagation on data without null

Where no value is null at any depth, null propagation changes nothing: what is bound with it mirrors what is
bound without it, for literals, variables, declared properties, logic, comparisons, functions, quantifiers and
counts. Binding runs alike in the two contexts, so the proof goes along the two runs.

* `Context.EnvWhole`: the environments of values without null.
* `Node.Definite`: the nodes in question.
* `Context.RunsAlike`: a computation with null propagation and one without it.
* `Bind.step_echoes`: one kind of node, if the nodes inside are bound alike.
* **`propagation_is_neutral_without_null`**: the two settings give the same values.
-/

namespace TypedQuery

/-! ## Contexts and environments -/

/-- Enumerations stand under their own names. -/
def Schema.NamesEnums (s : Schema) : Prop := ∀ name enum, s.enum? name = some enum → enum.name = name

theorem Schema.namesEnums_empty : Schema.empty.NamesEnums := nofun

theorem Schema.NamesEnums.addRecord {s : Schema} (h : s.NamesEnums) (r : RecordType) :
    (s.addRecord r).NamesEnums := h

theorem Schema.NamesEnums.addAggregate {s : Schema} (h : s.NamesEnums) (label : String) (c : AggregateCode) :
    (s.addAggregate label c).NamesEnums := h

theorem Schema.NamesEnums.addEnum {s : Schema} (h : s.NamesEnums) (e : EnumType) :
    (s.addEnum e).NamesEnums := by
  intro name enum henum
  unfold Schema.enum? Schema.addEnum at henum
  rw [Entries.get?_insert] at henum
  split_ifs at henum with hname
  · cases henum
    exact hname.symm
  · exact h name enum henum

namespace Context

/-- The values of an environment are of the types that a context gives them, and have no null at any depth. -/
structure EnvWhole [External] (ctx : Context) (env : Env) : Prop where
  record : ∀ v, ctx.currentExpr.eval env = .ok v → ctx.schema.Settles ctx.currentExpr.type v
  root : ∀ v, env.lookup ctx.root.id = some v → ctx.schema.Settles ctx.root.type v
  scope : ∀ name p v, Entries.get? ctx.scope name = some p → env.lookup p.id = some v →
    ctx.schema.Settles p.type v
  flattened : ∀ key read v, Entries.get? ctx.flattened key = some read → read.eval env = .ok v →
    ctx.schema.Settles read.type v

variable {c d : Context} {env : Env}

theorem SameClause.envWhole [External] (h : d.SameClause c) (henv : d.EnvWhole env) : c.EnvWhole env := by
  obtain ⟨hrecord, hroot, hscope, hflattened⟩ := henv
  rw [← h.schema, ← h.currentExpr] at hrecord
  rw [← h.schema, ← h.root] at hroot
  rw [← h.schema, ← h.scope] at hscope
  rw [← h.schema, ← h.flattened] at hflattened
  exact ⟨hrecord, hroot, hscope, hflattened⟩

/-- The environment of the items that a quantifier looks at. -/
theorem EnvWhole.push [External] (henv : d.EnvWhole env) (hd : d.WellScoped) {type : HostType} {v : Value}
    (hv : d.schema.Settles type v) (name : String) : (d.push name type).EnvWhole ((d.nextId, v) :: env) := by
  refine ⟨fun w hw => ?_, fun w hw => ?_, fun key p w hp hw => ?_, fun key read w hread hw => ?_⟩
  · exact henv.record w (hd.eval_currentExpr v env ▸ hw)
  · rw [Context.push, lookup_of_lt hd.root] at hw
    exact henv.root w hw
  · obtain ⟨rfl, rfl⟩ | ⟨hp, hw⟩ := hd.scope_push hp hw
    · exact hv
    · exact henv.scope key p w hp hw
  · exact henv.flattened key read w hread (hd.eval_flattened hread v env ▸ hw)

/-- The first context has the clause of a given one, and the second is the first without null propagation. -/
structure Unguards (d c₁ c₂ : Context) : Prop where
  clause : d.SameClause c₁
  eq : c₂ = c₁.unguarded

end Context

/-! ## The nodes -/

/-- The node is made of literals other than null, variables, declared properties, logic, comparisons, functions
other than `cast` and `isof`, quantifiers whose variables are not among the given names or those of quantifiers
around them, and counts. -/
inductive Node.Definite : List String → Node → Prop
  | constant {names : List String} {l : Literal} (type : Option LogicalType) (hl : l ≠ .null) :
    Definite names (.constant l type)
  | rangeVariable {names : List String} (v : RangeVariable) : Definite names (.rangeVariable v)
  | property {names : List String} {source : Node} (name : String) (kind : PropertyKind)
    (hsource : Definite names source) : Definite names (.property source name kind)
  | binary {names : List String} {op : QueryOp} {left right : Node}
    (hop : op.isLogical = true ∨ op.isComparison = true) (hleft : Definite names left)
    (hright : Definite names right) : Definite names (.binary op left right)
  | not {names : List String} {operand : Node} (hoperand : Definite names operand) :
    Definite names (.unary .not operand)
  | call {names : List String} {name : String} {args : List Node}
    (hname : Text.asciiLower name ≠ "cast" ∧ Text.asciiLower name ≠ "isof")
    (hargs : ∀ arg ∈ args, Definite names arg) : Definite names (.call name args)
  | resourceCall {names : List String} {name : String} {args : List Node}
    (hname : Text.asciiLower name ≠ "cast" ∧ Text.asciiLower name ≠ "isof")
    (hargs : ∀ arg ∈ args, Definite names arg) : Definite names (.resourceCall name args)
  | any {names : List String} {source : Node} {v : RangeVariable} {body : Option Node}
    (hsource : Definite names source) (hname : v.name ∉ names)
    (hbody : ∀ node, body = some node → Definite (v.name :: names) node) :
    Definite names (.any source v body)
  | all {names : List String} {source : Node} {v : RangeVariable} {body : Node}
    (hsource : Definite names source) (hname : v.name ∉ names)
    (hbody : Definite (v.name :: names) body) : Definite names (.all source v body)
  | count {names : List String} {source : Node} (hsource : Definite names source) :
    Definite names (.count source)

/-! ## Two runs -/

open BindM (Relates)

/-- In contexts with the clause of a given one, a computation runs with null propagation as another one runs
without it. Failures do not count. -/
abbrev Context.RunsAlike {α β : Type} (d : Context) (R : α → β → Prop) (x : BindM α) (y : BindM β) : Prop :=
  Relates d.Unguards (fun _ => False) Eq R x y

/-- What is read from a context with null propagation, and from the same without it. -/
theorem Context.RunsAlike.reads {α β : Type} {d : Context} {R : α → β → Prop} {f : Context → Outcome α}
    {g : Context → Outcome β}
    (h : ∀ {c}, d.SameClause c → ∀ a, f c = .ok a → ∃ b, g c.unguarded = .ok b ∧ R a b) :
    d.RunsAlike R (BindM.reads f) (BindM.reads g) := by
  refine Relates.reads (fun _ => rfl) fun {c₁ c₂} hc => ?_
  rw [hc.eq]
  cases hf : f c₁ with
  | error e => exact False.elim
  | ok a =>
    obtain ⟨b, hb, hab⟩ := h hc.clause a hf
    rw [hb]
    exact hab

theorem Context.RunsAlike.ofOutcome {α β : Type} {d : Context} {R : α → β → Prop} {o₁ : Outcome α}
    {o₂ : Outcome β} (h : ∀ a, o₁ = .ok a → ∃ b, o₂ = .ok b ∧ R a b) :
    d.RunsAlike R (BindM.ofOutcome o₁) (BindM.ofOutcome o₂) := reads fun _ => h

/-- Expressions that are bound with null propagation and without it, in the clause of a context. -/
abbrev Context.Echoes [External] (d : Context) (e₁ e₂ : Expr) : Prop := Expr.Echoes d.schema d.EnvWhole e₁ e₂

/-- In the clause of a context, nodes are bound with null propagation as they are without it. -/
def BindsAlike [External] (sub : Node → BindM Expr) (d : Context) (names : List String) : Prop :=
  ∀ node, node.Definite names → d.RunsAlike d.Echoes (sub node) (sub node)

namespace Bind

section Leaves

variable [External] {d : Context}

theorem literal_echoes {v : Value} {t : HostType} (hv : d.schema.Settles t v) :
    d.RunsAlike d.Echoes (BindM.constant v t) (BindM.constant v t) where
  ok {c₁ c₂ e c₁'} hc hx := by
    have hframe := BindM.Keeps.constant v t c₁
    rw [hx] at hframe
    have hoperand : (Expr.const v t).isOperand = true := by
      have hnull := hv.isNull
      cases v <;> first | rfl | cases hnull
    obtain ⟨hclause, rfl⟩ := hc
    obtain ⟨-, -, h₁, h₂⟩ | ⟨h₁, h₂⟩ := BindM.constant_alike v t c₁ c₁.unguarded rfl
    · cases hx.symm.trans h₁
      refine ⟨_, _, h₂, ⟨.refl rfl fun _ _ _ hw => ?_, rfl⟩, hclause.frame hframe, rfl⟩
      cases hw
      exact hv
    · cases hx.symm.trans h₁
      refine ⟨_, _, h₂, ⟨.refl hoperand fun _ _ _ hw => ?_, rfl⟩, hclause.frame hframe, rfl⟩
      cases hw
      exact hv
  error _ _ he := he.elim

theorem enumConstant_echoes (hnames : d.schema.NamesEnums) (typeName spelling : String) :
    d.RunsAlike d.Echoes (enumConstant typeName spelling) (enumConstant typeName spelling) := by
  have hhost : d.RunsAlike
      (fun a b => a = b ∧ ∀ enum, a.asEnum? = some enum → a = .ofEnum enum ∧ enum.name = typeName)
      (BindM.reads fun ctx => ctx.hostType (.enum typeName false))
      (BindM.reads fun ctx => ctx.hostType (.enum typeName false)) := by
    refine Context.RunsAlike.reads fun {c} hc host hhost => ⟨host, hhost, rfl, fun enum henum => ?_⟩
    have hfound : c.schema.hostType? (.enum typeName false) = some host := by
      unfold Context.hostType at hhost
      split at hhost <;> cases hhost
      assumption
    obtain ⟨found, hof, rfl⟩ := Option.map_eq_some_iff.mp hfound
    cases henum
    exact ⟨rfl, hnames typeName found (hc.schema ▸ hof)⟩
  unfold enumConstant
  refine hhost.bind fun host _ h => ?_
  obtain ⟨rfl, henum⟩ := h
  cases hasEnum : host.asEnum? with
  | none => exact .fail rfl
  | some enum =>
    dsimp only
    cases enum.parse? spelling with
    | none => exact .fail rfl
    | some value =>
      obtain ⟨rfl, rfl⟩ := henum enum hasEnum
      exact literal_echoes (.of_isValueType (by simp [Value.isInstanceOf, HostType.nonNullable, HostType.ofEnum]) rfl)

/-- A literal other than null. -/
theorem constant_echoes (hnames : d.schema.NamesEnums) {l : Literal} (hl : l ≠ .null)
    (type : Option LogicalType) : d.RunsAlike d.Echoes (constant l type) (constant l type) := by
  have hdeclared : d.RunsAlike Eq (BindM.reads fun ctx => type.mapM ctx.hostType)
      (BindM.reads fun ctx => type.mapM ctx.hostType) :=
    Context.RunsAlike.reads fun _ declared hdeclared => ⟨declared, hdeclared, rfl⟩
  refine hdeclared.bind fun declared _ h => ?_
  subst h
  cases l with
  | null => exact absurd rfl hl
  | enum typeName spelling => exact enumConstant_echoes hnames typeName spelling
  | _ => exact literal_echoes (.of_isAtom rfl (by simp [Value.isInstanceOf, Value.hostType?, HostType.nonNullable]))

/-- What a variable stands for. -/
theorem resolve_echoes (v : RangeVariable) : d.RunsAlike d.Echoes (BindM.reads fun ctx => ctx.resolve v)
    (BindM.reads fun ctx => ctx.resolve v) := by
  refine Context.RunsAlike.reads fun hc e he => ⟨e, he, ?_⟩
  rw [hc.resolve] at he
  have hparam {p : Param} (hp : ∀ env v, d.EnvWhole env → env.lookup p.id = some v →
      d.schema.Settles p.type v) : d.Echoes (.param p) (.param p) :=
    ⟨.refl rfl fun env v henv hv => hp env v henv (Context.lookup_of_eval_param hv), rfl⟩
  have hcurrent : d.Echoes d.currentExpr d.currentExpr := by
    refine ⟨.refl ?_ fun env v henv hv => henv.record v hv, rfl⟩
    unfold Context.currentExpr
    split <;> rfl
  obtain rfl | rfl | ⟨p, hp, rfl⟩ := Context.resolve_cases he
  · exact hcurrent
  · exact hparam fun env v henv => henv.root v
  · exact hparam fun env v henv => henv.scope _ p v hp

end Leaves

section Nodes

variable [External] {sub : Node → BindM Expr} {d : Context} {names : List String} (hd : d.Ready names)

section Sub

variable (hsub : BindsAlike sub d names)
include hsub

include hd in
/-- A chain of declared properties, or what flattening has put in its place. -/
theorem property_echoes {source : Node} (hsource : source.Definite names) (node : Node) (name : String) :
    d.RunsAlike d.Echoes (property sub node source name) (property sub node source name) := by
  refine Relates.context.bind fun c₁ c₂ hc => ?_
  rw [hc.eq, show c₁.unguarded.flattenedRead? node = c₁.flattenedRead? node from rfl, hc.clause.flattenedRead]
  cases hread : d.flattenedRead? node with
  | some read =>
    obtain ⟨path, -, hread⟩ := Option.bind_eq_some_iff.mp hread
    obtain ⟨m, slot, type, rfl⟩ := hd.wellScoped.flattened _ _ hread
    exact .pure ⟨.refl rfl fun env v henv hv => henv.flattened _ _ v hread hv, rfl⟩
  | none =>
    refine (hsub source hsource).bind fun s₁ s₂ hs => ?_
    refine Context.RunsAlike.reads fun {c} hc e he => ?_
    have hs : Expr.Mirrors c.schema d.EnvWhole s₁ s₂ := hc.schema ▸ hs.toMirrors
    obtain ⟨e₂, he₂, hechoes⟩ := Context.memberAccess_mirrors hs he
    rw [hc.schema] at hechoes
    exact ⟨e₂, he₂, hechoes⟩

/-- Logic and comparisons. -/
theorem binary_echoes {op : QueryOp} (hop : op.isLogical = true ∨ op.isComparison = true) {left right : Node}
    (hleft : left.Definite names) (hright : right.Definite names) :
    d.RunsAlike d.Echoes (binary sub op left right) (binary sub op left right) := by
  refine (hsub left hleft).bind fun l₁ l₂ hl => (hsub right hright).bind fun r₁ r₂ hr => ?_
  exact Context.RunsAlike.reads fun _ e he => Context.binary_mirrors hop hl hr he

theorem not_echoes {operand : Node} (hoperand : operand.Definite names) :
    d.RunsAlike d.Echoes (unary sub .not operand) (unary sub .not operand) :=
  (hsub operand hoperand).bind fun _ _ he =>
    Context.RunsAlike.ofOutcome fun _ hnot => unaryOperation_mirrors he.toMirrors hnot

/-- The arguments of a function, each of a type that the function takes. -/
theorem arguments_alike (function : String) {args : List Node} (hargs : ∀ arg ∈ args, arg.Definite names)
    (kinds : List ArgKind) :
    d.RunsAlike (fun as bs => List.Forall₂ (Expr.Mirrors d.schema d.EnvWhole) as bs ∧
        ((∀ k ∈ kinds, k = .numeric) → ∀ b ∈ bs, b.type.isNumeric = true))
      (arguments sub function args kinds) (arguments sub function args kinds) := by
  induction args generalizing kinds with
  | nil => exact .pure ⟨.nil, by simp⟩
  | cons arg args ih =>
    cases kinds with
    | nil => exact .pure ⟨.nil, by simp⟩
    | cons k ks =>
      refine (hsub arg (hargs arg List.mem_cons_self)).bind fun e₁ e₂ he => ?_
      refine Relates.bind (R := fun a b => Expr.Mirrors d.schema d.EnvWhole a b ∧ k.accepts b.type = true)
        (Context.RunsAlike.ofOutcome fun a ha => coerce_mirrors he.toMirrors ha) fun a b hab => ?_
      refine (ih (fun arg harg => hargs arg (List.mem_cons_of_mem _ harg)) ks).bind fun as bs hrest => ?_
      refine .pure ⟨.cons hab.1 hrest.1, fun hkinds => ?_⟩
      obtain ⟨rfl, hks⟩ := List.forall_mem_cons.mp hkinds
      exact List.forall_mem_cons.mpr ⟨hab.2, hrest.2 hks⟩

omit [External] hsub in
theorem isNumeric_integralToDouble {e : Expr} (h : e.type.isNumeric = true) :
    (integralToDouble e).type.isNumeric = true := by
  unfold integralToDouble
  split_ifs
  · unfold HostType.isNumeric
    rw [Expr.type, HostType.nonNullable_nullableLike]
    rfl
  · exact h

/-- A function other than `cast` and `isof`. -/
theorem call_echoes {name : String} {args : List Node}
    (hname : Text.asciiLower name ≠ "cast" ∧ Text.asciiLower name ≠ "isof")
    (hargs : ∀ arg ∈ args, arg.Definite names) :
    d.RunsAlike d.Echoes (call sub name args) (call sub name args) := by
  unfold call
  rw [if_neg (by simpa using hname)]
  cases hb : Builtin.ofName? (Text.asciiLower name) with
  | none => exact .fail rfl
  | some b =>
    have hnumeric := Builtin.args_of_isRounding b (List.mem_of_find?_eq_some hb)
    dsimp only
    unfold builtinCall
    split
    · refine (arguments_alike hsub name hargs b.args).bind fun as bs hbound => ?_
      refine Relates.context.bind fun c₁ c₂ hc => .pure ?_
      have hguard (bs : List Expr) : bs.filter c₂.needsGuard = [] := by
        rw [hc.eq]
        exact List.filter_eq_nil_iff.mpr (by simp [Context.needsGuard_unguarded])
      rw [hguard]
      refine Context.call_mirrors ?_ fun hrounding => ?_
      · split_ifs
        · exact List.forall₂_map_left_iff.mpr (List.forall₂_map_right_iff.mpr
            (hbound.1.imp fun _ _ => integralToDouble_mirrors))
        · exact hbound.1
      · intro e he
        rw [if_pos hrounding] at he
        obtain ⟨x, hx, rfl⟩ := List.mem_map.mp he
        exact isNumeric_integralToDouble (hbound.2 (hnumeric hrounding) x hx)
    · exact .fail rfl

/-! ### Collections -/

omit hsub in
/-- What is guarded on the left. -/
theorem guarded_echoes {s₁ s₂ e₁ e₂ : Expr} (hs : d.Echoes s₁ s₂)
    (he : Expr.Mirrors d.schema d.EnvWhole e₁ e₂) (h₁ : e₁.constValue? = none) (h₂ : e₂.constValue? = none) :
    d.RunsAlike d.Echoes (guarded s₁ e₁) (guarded s₂ e₂) := by
  refine Relates.context.bind fun c₁ c₂ hc => .pure ?_
  rw [hc.eq, Context.guardIfNeeded_unguarded]
  exact ⟨hs.toMirrors.guardIfNeeded c₁ he, (Context.constValue?_guardIfNeeded c₁ s₁ h₁).trans h₂.symm⟩

/-- The source of an operator with the type of its items. -/
theorem overItems_echoes {source : Node} (hsource : source.Definite names) {f g : Expr → HostType → BindM Expr}
    (hf : ∀ s₁ s₂ element, d.Echoes s₁ s₂ → s₂.type = .collection element →
      d.RunsAlike d.Echoes (f s₁ element) (g s₂ element)) :
    d.RunsAlike d.Echoes (sub source >>= fun s => BindM.ofOutcome (itemType s) >>= f s)
      (sub source >>= fun s => BindM.ofOutcome (itemType s) >>= g s) := by
  refine (hsub source hsource).bind fun s₁ s₂ hs => ?_
  refine Relates.bind (R := fun t u => t = u ∧ s₂.type = .collection u) ?_ fun element _ h => ?_
  · refine Context.RunsAlike.ofOutcome fun element helement => ?_
    have htype := (hs.type.eq_iff rfl rfl).mp (itemType_eq_ok helement)
    refine ⟨element, ?_, rfl, htype⟩
    unfold itemType
    rw [htype]
  · obtain ⟨rfl, htype⟩ := h
    exact hf s₁ s₂ element hs htype

theorem count_echoes {source : Node} (hsource : source.Definite names) :
    d.RunsAlike d.Echoes (count sub source) (count sub source) :=
  overItems_echoes hsub hsource fun _ _ _ hs htype => guarded_echoes hs (hs.toMirrors.count htype) rfl rfl

end Sub

section Quantifiers

variable (hsub : ∀ d names, d.Ready names → d.schema.NamesEnums → BindsAlike sub d names)
  (hnames : d.schema.NamesEnums)
include hsub hd hnames

/-- The predicate of a quantifier, at the items of a collection. -/
theorem quantified_alike {name : String} {body : Node} (hname : name ∉ names)
    (hbody : body.Definite (name :: names)) (element : HostType) :
    d.RunsAlike (Lambda.Mirrors d.schema d.EnvWhole element)
      (BindM.withRangeVariable name element fun p => predicate sub body p)
      (BindM.withRangeVariable name element fun p => predicate sub body p) := by
  refine .withRangeVariable name element (fun hc => ?_) (fun hc hp => ?_) fun {c₁ c₂} hc hnone _ => ?_
  · rw [hc.eq]
    rfl
  · rw [hc.clause.scope] at hp
    exact absurd (hd.names name _ hp) hname
  · -- the body is bound in the clause of the first context, with the variable in scope
    have hready := hc.clause.ready hd
    refine ⟨(c₁.push name element).Unguards, ⟨.refl _, by rw [hc.eq]; rfl⟩, ?_, fun {a b} hab => ?_⟩
    · have hnames' : (c₁.push name element).schema.NamesEnums := by
        change c₁.schema.NamesEnums
        rwa [hc.clause.schema]
      refine (hsub _ _ (hready.push name element) hnames' body hbody).bind fun e₁ e₂ he => ?_
      refine Relates.bind (R := Expr.Mirrors c₁.schema (c₁.push name element).EnvWhole) ?_ fun p₁ p₂ hp => ?_
      · refine Context.RunsAlike.reads fun hk p hp => ?_
        have hpropagation := (hk.ready (hready.push name element)).propagation
        exact Context.normalizePredicate_mirrors hpropagation he.toMirrors hp
      · refine .pure fun hnarrow {env v u} henv hv hu => ?_
        rw [← hc.clause.schema] at hv
        have hpushed := (hc.clause.envWhole henv).push hready.wellScoped hv name
        rw [hc.eq]
        exact (hp.eval hnarrow hpushed hu).1
    · exact ⟨hc.clause.pop hnone hab.clause, by rw [hab.eq]; rfl⟩

theorem all_echoes {source body : Node} {v : RangeVariable} (hsource : source.Definite names)
    (hname : v.name ∉ names) (hbody : body.Definite (v.name :: names)) :
    d.RunsAlike d.Echoes (all sub source v body) (all sub source v body) :=
  overItems_echoes (hsub d names hd hnames) hsource fun _ _ element hs htype =>
    (quantified_alike hd hsub hnames hname hbody element).bind fun _ _ hl =>
      guarded_echoes hs (hs.toMirrors.quantified htype (.inr rfl) hl) rfl rfl

theorem any_echoes {source : Node} {v : RangeVariable} {body : Option Node} (hsource : source.Definite names)
    (hname : v.name ∉ names) (hbody : ∀ node, body = some node → node.Definite (v.name :: names)) :
    d.RunsAlike d.Echoes (any sub source v body) (any sub source v body) := by
  refine overItems_echoes (hsub d names hd hnames) hsource fun s₁ s₂ element hs htype => ?_
  have hitem := guarded_echoes hs (hs.toMirrors.anyItem htype) rfl rfl
  split
  · exact hitem
  · exact hitem
  · refine .pure ⟨.refl rfl fun env v henv hv => ?_, rfl⟩
    cases hv
    exact .of_bool rfl false
  · exact (quantified_alike hd hsub hnames hname (hbody _ rfl) element).bind fun _ _ hl =>
      guarded_echoes hs (hs.toMirrors.quantified htype (.inl rfl) hl) rfl rfl

/-- **One kind of node is bound alike**, if the nodes inside are. -/
theorem step_echoes : BindsAlike (step sub) d names := by
  have hinner := hsub d names hd hnames
  intro node hnode
  cases hnode with
  | constant type hl => exact constant_echoes hnames hl type
  | rangeVariable v => exact resolve_echoes v
  | property name _ hsource => exact property_echoes hd hinner hsource _ name
  | binary hop hleft hright => exact binary_echoes hinner hop hleft hright
  | not hoperand => exact not_echoes hinner hoperand
  | call hname hargs => exact call_echoes hinner hname hargs
  | resourceCall hname hargs => exact call_echoes hinner hname hargs
  | any hsource hname hbody => exact any_echoes hd hsub hnames hsource hname hbody
  | all hsource hname hbody => exact all_echoes hd hsub hnames hsource hname hbody
  | count hsource => exact count_echoes hinner hsource

end Quantifiers

end Nodes

end Bind

/-- By induction on the levels left, whole nodes are bound alike. -/
theorem Node.bindWithin_echoes [External] (levels : Nat) (d : Context) (names : List String)
    (hd : d.Ready names) (hnames : d.schema.NamesEnums) : BindsAlike (Node.bindWithin levels) d names := by
  induction levels generalizing d names with
  | zero => exact fun node _ => Context.RunsAlike.reads fun _ _ h => by cases h
  | succ levels ih =>
    intro node hnode
    refine .descend (fun _ => rfl) (Bind.step_echoes hd ih hnames node hnode) (fun hc => ?_) (fun hc => ?_)
      (fun hc => ?_) fun hc => ?_
    · rw [hc.eq]
      rfl
    · rw [hc.eq]
      rfl
    · exact ⟨{ hc.clause with }, by rw [hc.eq]; rfl⟩
    · exact ⟨{ hc.clause with }, by rw [hc.eq]; rfl⟩

/-- **Null propagation changes nothing where nothing is null.** Let a node of literals, variables, declared
properties, logic, comparisons, functions, quantifiers and counts be bound with null propagation, and let the
result have a value where no value in scope has a null at any depth. Then the node is bound without null
propagation as well, and that has the same value, if nothing is converted to integers of 64 bits without sign:
where one operand is guarded, those are compared as floats. -/
theorem propagation_is_neutral_without_null [External] {ctx : Context}
    (hpropagation : ctx.settings.nullPropagation = true)
    (hscoped : ctx.WellScoped) (hnames : ctx.schema.NamesEnums) {node : Node}
    (hnode : node.Definite (Entries.names ctx.scope)) {e : Expr} (hbound : (node.bind ctx).1 = .ok e)
    (hnarrow : e.isNarrow = true) {env : Env} (henv : ctx.EnvWhole env) {v : Value} (hv : e.eval env = .ok v) :
    ∃ e', (node.bind ctx.unguarded).1 = .ok e' ∧ e'.eval env = .ok v := by
  have hscope : ∀ name p, Entries.get? ctx.scope name = some p → name ∈ Entries.names ctx.scope :=
    fun name p hp => List.mem_map.mpr ⟨_, Entries.mem_of_get? hp, rfl⟩
  have halike := Node.bindWithin_echoes ctx.levelsLeft ctx _ ⟨hpropagation, hscoped, hscope⟩ hnames node hnode
  have hunguards : ctx.Unguards ctx ctx.unguarded := ⟨.refl ctx, rfl⟩
  obtain ⟨e', c, hbound', hechoes, -⟩ := halike.ok hunguards (Prod.ext hbound rfl)
  refine ⟨e', ?_, (hechoes.eval hnarrow henv hv).1⟩
  unfold Node.bind
  rw [show ctx.unguarded.levelsLeft = ctx.levelsLeft from rfl, hbound']

/-- The environment of a record of a top-level clause. -/
theorem Context.envWhole_initial [External] {schema : Schema} {settings : Settings} {t : HostType} {v : Value}
    (hv : schema.admits t v = true) (hnull : v.isNullFree = true) :
    (Context.initial schema settings t).EnvWhole [(0, v)] := by
  refine ⟨?_, ?_, fun _ _ _ h => (by cases h), fun _ _ _ h => (by cases h)⟩
  all_goals
    intro w hw
    cases hw
    exact .of_admits hv hnull

/-! ### Orders with a product -/

/-- An order of a product and a part. -/
def fullOrder : Value :=
  .record "Order" [("Product", .record "Product" [("Price", .int32 7)]),
    ("Parts", .collection [.record "Product" [("Price", .int32 3)]])]

theorem priceAbove_definite {names : List String} {product : Node} (h : product.Definite names) (bound : Int32) :
    (priceAbove product bound).Definite names :=
  .binary (.inr rfl) (.property _ _ h) (.constant _ (by simp))

theorem orderNode_definite : orderNode.Definite [] := by
  refine .binary (.inl rfl) (priceAbove_definite (.property _ _ (.rangeVariable _)) 5) ?_
  refine .any (.property _ _ (.rangeVariable _)) (by simp) fun node hnode => ?_
  cases hnode
  exact priceAbove_definite (.rangeVariable _) 5

theorem propagation_is_neutral_for_full_order :
    ∃ e e' v, (orderNode.bind orderContext).1 = .ok e ∧ e.eval [(0, fullOrder)] = .ok v ∧
      (orderNode.bind orderContext.unguarded).1 = .ok e' ∧ e'.eval [(0, fullOrder)] = .ok v := by
  have hcomputed : ((orderNode.bind orderContext).1.toOption.map fun e =>
      (e.isNarrow, (e.eval [(0, fullOrder)]).toOption.isSome)) = some (true, true) := by decide +kernel
  obtain ⟨e, he, hcomputed⟩ := Option.map_eq_some_iff.mp hcomputed
  obtain ⟨hnarrow, hsome⟩ := Prod.mk.inj hcomputed
  obtain ⟨v, hv⟩ := Option.isSome_iff_exists.mp hsome
  have he := Outcome.toOption_eq_some.mp he
  have hv := Outcome.toOption_eq_some.mp hv
  obtain ⟨e', he', hv'⟩ := propagation_is_neutral_without_null rfl (Context.wellScoped_initial _ _ _)
    (fun _ _ h => by cases h) orderNode_definite he hnarrow
    (Context.envWhole_initial (by decide +kernel) (by decide +kernel)) hv
  exact ⟨e, e', v, he, hv, he', hv'⟩

/-! ### Wide marks -/

/-- Marks of 64 bits without sign. -/
def markType : EnumType := ⟨"Mark", .int .uint64, [], false⟩

/-- Items with a part that has a mark. -/
def markSchema : Schema :=
  ((Schema.empty.addEnum markType).addRecord (.closed "Part" [("Mark", .ofEnum markType)])).addRecord
    (.closed "Item" [("Part", .record "Part")])

/-- The clause over items. -/
def markContext : Context := .initial markSchema {} (.record "Item")

/-- The mark of the part is one above the integers that floats tell apart. -/
def markNode : Node :=
  let item : Node := .rangeVariable ⟨RangeVariable.itName, .entity "Item" true⟩
  .binary .eq (.property (.property item "Part" .navigation) "Mark" .single)
    (.constant (.string "9007199254740993") none)

/-- An item with the mark before that one. -/
def markedItem : Value := .record "Item" [("Part", .record "Part" [("Mark", .enum "Mark" 9007199254740992)])]

/-- Two marks that differ are equal with null propagation, and differ without it. -/
theorem propagation_equates_wide_marks :
    markSchema.NamesEnums ∧ markNode.Definite [] ∧ markContext.EnvWhole [(0, markedItem)] ∧
      (∃ e, (markNode.bind markContext).1 = .ok e ∧ e.eval [(0, markedItem)] = .ok (.bool true)) ∧
      ∃ e, (markNode.bind markContext.unguarded).1 = .ok e ∧ e.eval [(0, markedItem)] = .ok (.bool false) := by
  have computed {ctx : Context} {b : Bool} (h : ((markNode.bind ctx).1.toOption.bind fun e =>
      (e.eval [(0, markedItem)]).toOption.bind Value.asBool?) = some b) :
      ∃ e, (markNode.bind ctx).1 = .ok e ∧ e.eval [(0, markedItem)] = .ok (.bool b) := by
    obtain ⟨e, he, h⟩ := Option.bind_eq_some_iff.mp h
    obtain ⟨v, hv, h⟩ := Option.bind_eq_some_iff.mp h
    cases v <;> cases h
    exact ⟨e, Outcome.toOption_eq_some.mp he, Outcome.toOption_eq_some.mp hv⟩
  have hnames : markSchema.NamesEnums := ((Schema.namesEnums_empty.addEnum _).addRecord _).addRecord _
  refine ⟨hnames, ?_, Context.envWhole_initial (by decide +kernel) (by decide +kernel),
    computed (by decide +kernel), computed (by decide +kernel)⟩
  exact .binary (.inr rfl) (.property _ _ (.property _ _ (.rangeVariable _))) (.constant _ (by simp))

end TypedQuery
