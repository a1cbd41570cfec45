import TypedQuery.Proofs.Guards
import TypedQuery.Proofs.Locality

/-!
# Null propagation is sound

With null propagation, nothing that binding gives fails because of a null. Values are taken to
conform to their static types, and the record of the clause not to be null; then a bound expression
has a value that conforms to its own type.

* `Context.EnvConforms`: the environments in which values conform to their types.
* `Node.Guardable`: the nodes in question, in which no quantifier hides a variable.
* `Bind.step_safe`: one kind of node, if the nodes inside are bound to safe expressions.
* **`propagation_prevents_null_errors`**: bound expressions do not fail because of a null.
-/

namespace TypedQuery

/-! ## Contexts and environments -/

namespace Context

/-- The numbers of parameters are below the next one, and flattened paths are read from slots of the
current record. -/
structure WellScoped (ctx : Context) : Prop where
  current : ctx.current.id < ctx.nextId
  root : ctx.root.id < ctx.nextId
  scope : ∀ name p, Entries.get? ctx.scope name = some p → p.id < ctx.nextId
  flattened : ∀ key read, Entries.get? ctx.flattened key = some read →
    ∃ m name type, read = .slot (.member (.param ctx.current) m) name type

/-- The values of an environment conform to the types that a context gives them, and the record of
the clause is not null. -/
structure EnvConforms [External] (ctx : Context) (env : Env) : Prop where
  current : ∀ v, env.lookup ctx.current.id = some v → v.isNull = false
  record : (ctx.currentExpr.eval env).NullSafe fun v =>
    Conforms ctx.schema ctx.currentExpr.type v ∧ v.isNull = false
  root : ∀ v, env.lookup ctx.root.id = some v → Conforms ctx.schema ctx.root.type v
  scope : ∀ name p v, Entries.get? ctx.scope name = some p → env.lookup p.id = some v →
    Conforms ctx.schema p.type v
  flattened : ∀ key read, Entries.get? ctx.flattened key = some read →
    (read.eval env).NullSafe (Conforms ctx.schema read.type)

/-- The context has null propagation, and the variables in its scope have the given names. -/
structure Ready (ctx : Context) (names : List String) : Prop where
  propagation : ctx.settings.nullPropagation = true
  wellScoped : ctx.WellScoped
  names : ∀ name p, Entries.get? ctx.scope name = some p → name ∈ names

variable {c d : Context} {env : Env} {names : List String}

theorem lookup_of_eval_param [External] {p : Param} {v : Value} (h : (Expr.param p).eval env = .ok v) :
    env.lookup p.id = some v := by
  simp only [Expr.eval] at h
  revert h
  cases env.lookup p.id <;> intro h <;> cases h
  rfl

theorem SameClause.envConforms [External] (h : d.SameClause c) : c.EnvConforms env ↔ d.EnvConforms env := by
  constructor
  · rintro ⟨hcurrent, hrecord, hroot, hscope, hflattened⟩
    rw [h.schema, h.currentExpr] at hrecord
    rw [h.schema, h.root] at hroot
    rw [h.schema, h.scope] at hscope
    rw [h.schema, h.flattened] at hflattened
    rw [h.current] at hcurrent
    exact ⟨hcurrent, hrecord, hroot, hscope, hflattened⟩
  · rintro ⟨hcurrent, hrecord, hroot, hscope, hflattened⟩
    rw [← h.schema, ← h.currentExpr] at hrecord
    rw [← h.schema, ← h.root] at hroot
    rw [← h.schema, ← h.scope] at hscope
    rw [← h.schema, ← h.flattened] at hflattened
    rw [← h.current] at hcurrent
    exact ⟨hcurrent, hrecord, hroot, hscope, hflattened⟩

theorem SameClause.ready (h : d.SameClause c) (hd : d.Ready names) : c.Ready names where
  propagation := by rw [h.settings, hd.propagation]
  wellScoped := by
    obtain ⟨hcurrent, hroot, hscope, hflattened⟩ := hd.wellScoped
    refine ⟨?_, ?_, ?_, ?_⟩
    · rw [h.current]
      exact Nat.lt_of_lt_of_le hcurrent h.nextId
    · rw [h.root]
      exact Nat.lt_of_lt_of_le hroot h.nextId
    · rw [h.scope]
      exact fun name p hp => Nat.lt_of_lt_of_le (hscope name p hp) h.nextId
    · rw [h.flattened, h.current]
      exact hflattened
  names := by
    rw [h.scope]
    exact hd.names

/-- What the clause is over is never null. -/
theorem SameClause.guarding [External] (h : d.SameClause c) (hd : d.Ready names) :
    c.Guarding d.EnvConforms where
  propagation := by rw [h.settings, hd.propagation]
  current := by
    intro env henv e he v hv
    rw [h.isCurrent] at he
    have hrecord := henv.record
    unfold Context.isCurrent at he
    split at he
    next p =>
      obtain rfl : p = d.current := by simpa using he
      exact henv.current v (lookup_of_eval_param hv)
    next p m =>
      split at he
      next type htype =>
        obtain ⟨rfl, rfl⟩ : p = d.current ∧ m = d.sourceMember type := by simpa using he
        unfold Context.currentExpr at hrecord
        rw [htype] at hrecord
        dsimp only at hrecord
        rw [hv] at hrecord
        exact hrecord.2
      next => cases he
    next => cases he

/-- A variable that is new to the scope. -/
theorem Ready.push (hd : d.Ready names) (name : String) (type : HostType) :
    (d.push name type).Ready (name :: names) := by
  obtain ⟨hpropagation, ⟨hcurrent, hroot, hscope, hflattened⟩, hnames⟩ := hd
  refine ⟨hpropagation, ⟨Nat.lt_succ_of_lt hcurrent, Nat.lt_succ_of_lt hroot, ?_, hflattened⟩, ?_⟩
  · intro key p hp
    rw [Context.push, Entries.get?_insert] at hp
    split_ifs at hp with hkey
    · cases hp
      exact Nat.lt_succ_self _
    · exact Nat.lt_succ_of_lt (hscope key p hp)
  · intro key p hp
    rw [Context.push, Entries.get?_insert] at hp
    split_ifs at hp with hkey
    · rw [hkey]
      exact List.mem_cons_self
    · exact List.mem_cons_of_mem _ (hnames key p hp)

theorem lookup_of_lt {id next : Nat} (h : id < next) (v : Value) (env : Env) :
    List.lookup id ((next, v) :: env) = List.lookup id env := by
  rw [lookup_cons, if_neg (Nat.ne_of_lt h)]

theorem eval_param_of_lt [External] {p : Param} (h : p.id < d.nextId) (v : Value) (env : Env) :
    (Expr.param p).eval ((d.nextId, v) :: env) = (Expr.param p).eval env := by
  simp only [Expr.eval, lookup_of_lt h]

/-- A new variable does not change the record of the clause. -/
theorem WellScoped.eval_currentExpr [External] (hd : d.WellScoped) (v : Value) (env : Env) :
    d.currentExpr.eval ((d.nextId, v) :: env) = d.currentExpr.eval env := by
  have hparam := eval_param_of_lt hd.current v env
  unfold Context.currentExpr
  split
  · exact congrArg (fun o : Outcome Value => o >>= fun w => w.member _) hparam
  · exact hparam

/-- A new variable does not change what is read in place of a flattened path. -/
theorem WellScoped.eval_flattened [External] (hd : d.WellScoped) {key : String} {read : Expr}
    (h : Entries.get? d.flattened key = some read) (v : Value) (env : Env) :
    read.eval ((d.nextId, v) :: env) = read.eval env := by
  obtain ⟨m, slot, t, rfl⟩ := hd.flattened key read h
  exact congrArg (fun o : Outcome Value => (o >>= fun w => w.member m.name) >>= (·.slot slot))
    (eval_param_of_lt hd.current v env)

/-- A variable in scope below a quantifier is that of the quantifier, or one that was in scope before. -/
theorem WellScoped.scope_push (hd : d.WellScoped) {name key : String} {type : HostType} {p : Param} {v w : Value}
    (hp : Entries.get? (d.push name type).scope key = some p)
    (hw : List.lookup p.id ((d.nextId, v) :: env) = some w) :
    (p.type = type ∧ w = v) ∨ (Entries.get? d.scope key = some p ∧ List.lookup p.id env = some w) := by
  rw [Context.push, Entries.get?_insert] at hp
  split_ifs at hp with hkey
  · cases hp
    rw [lookup_cons, if_pos (show (d.newParam name type).id = d.nextId from rfl)] at hw
    cases hw
    exact .inl ⟨rfl, rfl⟩
  · rw [lookup_of_lt (hd.scope key p hp)] at hw
    exact .inr ⟨hp, hw⟩

theorem EnvConforms.push [External] (henv : d.EnvConforms env) (hd : d.WellScoped) {type : HostType}
    {v : Value} (hv : Conforms d.schema type v) (name : String) :
    (d.push name type).EnvConforms ((d.nextId, v) :: env) := by
  refine ⟨?_, ?_, ?_, ?_, ?_⟩
  · intro w hw
    rw [Context.push, lookup_of_lt hd.current] at hw
    exact henv.current w hw
  · change (d.currentExpr.eval ((d.nextId, v) :: env)).NullSafe _
    rw [hd.eval_currentExpr]
    exact henv.record
  · intro w hw
    rw [Context.push, lookup_of_lt hd.root] at hw
    exact henv.root w hw
  · intro key p w hp hw
    obtain ⟨rfl, rfl⟩ | ⟨hp, hw⟩ := hd.scope_push hp hw
    · exact hv
    · exact henv.scope key p w hp hw
  · intro key read hread
    rw [hd.eval_flattened hread]
    exact henv.flattened key read hread

end Context

/-! ## The nodes -/

/-- The node is made of literals, variables, properties, operators other than the test of flags,
functions other than `cast` and `isof`, quantifiers whose variables are not among the given names or
those of quantifiers around them, and counts. So are the computed columns that it names. -/
inductive Node.Guardable (computed : Entries Node) : List String → Node → Prop
  | constant {names : List String} (l : Literal) (type : Option LogicalType) :
    Guardable computed names (.constant l type)
  | rangeVariable {names : List String} (v : RangeVariable) : Guardable computed names (.rangeVariable v)
  | property {names : List String} {source : Node} (name : String) (kind : PropertyKind)
    (hsource : Guardable computed names source) : Guardable computed names (.property source name kind)
  | openProperty {names : List String} {source : Node} {name : String}
    (hsource : Guardable computed names source)
    (hcolumn : ∀ v definition, source = .rangeVariable v →
      Entries.get? computed name = some definition → Guardable computed names definition) :
    Guardable computed names (.openProperty source name)
  | openCollection {names : List String} {source : Node} {name : String}
    (hsource : Guardable computed names source)
    (hcolumn : ∀ v definition, source = .rangeVariable v →
      Entries.get? computed name = some definition → Guardable computed names definition) :
    Guardable computed names (.openCollection source name)
  | binary {names : List String} {op : QueryOp} {left right : Node} (hop : op ≠ .has)
    (hleft : Guardable computed names left) (hright : Guardable computed names right) :
    Guardable computed names (.binary op left right)
  | unary {names : List String} (op : QueryUnaryOp) {operand : Node}
    (hoperand : Guardable computed names operand) : Guardable computed names (.unary op operand)
  | call {names : List String} {name : String} {args : List Node}
    (hname : Text.asciiLower name ≠ "cast" ∧ Text.asciiLower name ≠ "isof")
    (hargs : ∀ arg ∈ args, Guardable computed names arg) : Guardable computed names (.call name args)
  | resourceCall {names : List String} {name : String} {args : List Node}
    (hname : Text.asciiLower name ≠ "cast" ∧ Text.asciiLower name ≠ "isof")
    (hargs : ∀ arg ∈ args, Guardable computed names arg) :
    Guardable computed names (.resourceCall name args)
  | any {names : List String} {source : Node} {v : RangeVariable} {body : Option Node}
    (hsource : Guardable computed names source) (hname : v.name ∉ names)
    (hbody : ∀ node, body = some node → Guardable computed (v.name :: names) node) :
    Guardable computed names (.any source v body)
  | all {names : List String} {source : Node} {v : RangeVariable} {body : Node}
    (hsource : Guardable computed names source) (hname : v.name ∉ names)
    (hbody : Guardable computed (v.name :: names) body) : Guardable computed names (.all source v body)
  | count {names : List String} {source : Node} (hsource : Guardable computed names source) :
    Guardable computed names (.count source)

/-! ## Binding -/

/-- In the clause of a context, nodes are bound to safe expressions. -/
def BindsSafely [External] (sub : Node → BindM Expr) (d : Context) (names : List String) : Prop :=
  ∀ node, node.Guardable d.computed names → ∀ c e c', d.SameClause c → sub node c = (.ok e, c') →
    e.Safe d.schema d.EnvConforms

namespace Bind

section Leaves

variable {s : Schema} {V : Env → Prop} {c c' : Context} {e : Expr}

theorem value_isPlain {l : Literal} {v : Value} (h : l.value? = some v) :
    v = .null ∨ v.isPlain = true := by
  cases l <;> cases h <;> first | exact .inl rfl | exact .inr rfl

theorem literal_safe [External] {v : Value} {t : HostType} (hv : v.isPlain = true) (ht : t.isPlain = true)
    (h : BindM.constant v t c = (.ok e, c')) : e.Safe s V := by
  obtain ⟨-, -, h₁⟩ | h₁ := BindM.constant_cases v t c <;> cases h.symm.trans h₁ <;> exact fun _ _ => .plain ht hv

theorem constant_safe [External] {l : Literal} {type : Option LogicalType}
    (h : constant l type c = (.ok e, c')) : e.Safe s V := by
  unfold constant at h
  obtain ⟨declared, c₁, _, h⟩ := BindM.exists_of_bind_eq_ok h
  split at h
  next typeName spelling _ =>
    unfold enumConstant at h
    obtain ⟨host, c₂, _, h⟩ := BindM.exists_of_bind_eq_ok h
    cases henum : host.asEnum? with
    | none =>
      rw [henum] at h
      cases h
    | some enum =>
      rw [henum] at h
      have hvalue := HostType.isValueType_of_asEnum? (Option.isSome_iff_exists.mpr ⟨enum, henum⟩)
      dsimp only at h
      cases hparse : enum.parse? spelling with
      | none =>
        rw [hparse] at h
        cases h
      | some value =>
        rw [hparse] at h
        exact literal_safe rfl (HostType.isPlain_of_isAtomic (HostType.isAtomic_of_isValueType hvalue)) h
  next =>
    cases hv : l.value? with
    | none =>
      rw [hv] at h
      cases h
    | some v =>
      rw [hv] at h
      rcases value_isPlain hv with rfl | hplain
      · cases h
        exact Expr.safe_mkNull _
      · have htype : (v.hostType?.getD .object).isPlain = true := by
          cases v <;> first | rfl | cases hplain
        have hliteral : BindM.constant v (v.hostType?.getD .object) c₁ = (.ok e, c') := by
          cases v <;> first | exact h | cases hplain
        exact literal_safe hplain htype hliteral

/-- What a variable stands for. -/
theorem resolve_safe [External] {d : Context} {v : RangeVariable} (h : d.resolve v = .ok e) :
    e.Safe d.schema d.EnvConforms := by
  have hcurrent : d.currentExpr.Safe d.schema d.EnvConforms :=
    fun env henv => henv.record.mono fun _ => And.left
  have hparam {p : Param} (hp : ∀ env, d.EnvConforms env → ∀ v, env.lookup p.id = some v →
      Conforms d.schema p.type v) : (Expr.param p).Safe d.schema d.EnvConforms :=
    fun env henv => .orFail rfl fun v hv => hp env henv v hv
  obtain rfl | rfl | ⟨p, hp, rfl⟩ := Context.resolve_cases h
  · exact hcurrent
  · exact hparam fun env henv => henv.root
  · exact hparam fun env henv v => henv.scope _ p v hp

end Leaves

section Nodes

variable [External] {sub : Node → BindM Expr} (hkeeps : ∀ n, BindM.Keeps (sub n)) {d c c' : Context}
  {names : List String} {e : Expr} (hd : d.Ready names) (hc : d.SameClause c)

section Sub

variable (hsub : BindsSafely sub d names)
include hsub hd hc hkeeps

theorem property_safe {source : Node} (hsource : source.Guardable d.computed names) {node : Node}
    {name : String} (h : property sub node source name c = (.ok e, c')) :
    e.Safe d.schema d.EnvConforms := by
  unfold property at h
  obtain ⟨_, _, hcontext, h⟩ := BindM.exists_of_bind_eq_ok h
  cases hcontext
  cases hread : c.flattenedRead? node with
  | some read =>
    rw [hread] at h
    cases h
    rw [hc.flattenedRead] at hread
    obtain ⟨path, _, hread⟩ := Option.bind_eq_some_iff.mp hread
    exact fun env henv => henv.flattened _ _ hread
  | none =>
    rw [hread] at h
    obtain ⟨a, c₁, ha, h⟩ := BindM.exists_of_bind_eq_ok h
    have hc₁ := hc.frame ((hkeeps source).frame ha)
    have hsafe := hsub source hsource c a c₁ hc ha
    rw [← hc₁.schema] at hsafe ⊢
    exact (hc₁.guarding hd).memberAccess hsafe (Prod.mk.inj h).1

theorem openProperty_safe {source : Node} {name : String} (hsource : source.Guardable d.computed names)
    (hcolumn : ∀ v definition, source = .rangeVariable v →
      Entries.get? d.computed name = some definition → definition.Guardable d.computed names)
    (h : openProperty sub source name c = (.ok e, c')) : e.Safe d.schema d.EnvConforms := by
  unfold openProperty at h
  obtain ⟨_, _, hcontext, h⟩ := BindM.exists_of_bind_eq_ok h
  cases hcontext
  cases hdefinition : computed? c source name with
  | some definition =>
    rw [hdefinition] at h
    unfold computed? at hdefinition
    split at hdefinition
    next v _ =>
      rw [hc.computed] at hdefinition
      exact hsub definition (hcolumn v definition rfl hdefinition) c e c' hc h
    next => cases hdefinition
  | none =>
    rw [hdefinition] at h
    obtain ⟨a, c₁, ha, h⟩ := BindM.exists_of_bind_eq_ok h
    have hc₁ := hc.frame ((hkeeps source).frame ha)
    have hsafe := hsub source hsource c a c₁ hc ha
    rw [← hc₁.schema] at hsafe ⊢
    exact (hc₁.guarding hd).openAccess hsafe (Prod.mk.inj h).1

omit hd in
theorem binary_safe {op : QueryOp} (hop : op ≠ .has) {left right : Node}
    (hleft : left.Guardable d.computed names) (hright : right.Guardable d.computed names)
    (h : binary sub op left right c = (.ok e, c')) : e.Safe d.schema d.EnvConforms := by
  unfold binary at h
  obtain ⟨a, c₁, ha, h⟩ := BindM.exists_of_bind_eq_ok h
  obtain ⟨b, c₂, hb, h⟩ := BindM.exists_of_bind_eq_ok h
  have hc₁ := hc.frame ((hkeeps left).frame ha)
  exact Context.Guarding.binary hop (hsub left hleft c a c₁ hc ha) (hsub right hright c₁ b c₂ hc₁ hb)
    (Prod.mk.inj h).1

omit hd hkeeps in
theorem unary_safe {op : QueryUnaryOp} {operand : Node} (hoperand : operand.Guardable d.computed names)
    (h : unary sub op operand c = (.ok e, c')) : e.Safe d.schema d.EnvConforms := by
  unfold unary at h
  obtain ⟨a, c₁, ha, h⟩ := BindM.exists_of_bind_eq_ok h
  exact unaryOperation_safe (hsub operand hoperand c a c₁ hc ha) (Prod.mk.inj h).1

omit hd in
theorem arguments_safe {function : String} {args : List Node} {kinds : List ArgKind} {es : List Expr}
    (hargs : ∀ arg ∈ args, arg.Guardable d.computed names)
    (h : arguments sub function args kinds c = (.ok es, c')) :
    d.SameClause c' ∧ ∀ e ∈ es, e.Safe d.schema d.EnvConforms := by
  induction args generalizing kinds c es with
  | nil =>
    cases h
    exact ⟨hc, by simp⟩
  | cons arg rest ih =>
    cases kinds with
    | nil =>
      cases h
      exact ⟨hc, by simp⟩
    | cons k kinds =>
      unfold arguments at h
      obtain ⟨a, c₁, ha, h⟩ := BindM.exists_of_bind_eq_ok h
      obtain ⟨b, c₂, hb, h⟩ := BindM.exists_of_bind_eq_ok h
      obtain ⟨tail, c₃, htail, h⟩ := BindM.exists_of_bind_eq_ok h
      cases h
      obtain ⟨hcoerce, rfl⟩ := Prod.mk.inj hb
      have hsafe := hsub arg (hargs arg List.mem_cons_self) c a c₁ hc ha
      obtain ⟨hc', htail⟩ := ih (hc.frame ((hkeeps arg).frame ha))
        (fun b hb => hargs b (List.mem_cons_of_mem _ hb)) htail
      exact ⟨hc', List.forall_mem_cons.mpr ⟨coerce_safe hsafe hcoerce, htail⟩⟩

theorem call_safe {name : String} {args : List Node}
    (hname : Text.asciiLower name ≠ "cast" ∧ Text.asciiLower name ≠ "isof")
    (hargs : ∀ arg ∈ args, arg.Guardable d.computed names) (h : call sub name args c = (.ok e, c')) :
    e.Safe d.schema d.EnvConforms := by
  unfold call at h
  rw [if_neg (by simpa using hname)] at h
  cases hb : Builtin.ofName? (Text.asciiLower name) with
  | none =>
    rw [hb] at h
    cases h
  | some b =>
    rw [hb] at h
    dsimp only at h
    unfold builtinCall at h
    by_cases htakes : b.takes args.length = true
    · rw [if_pos htakes] at h
      obtain ⟨es, c₁, hes, h⟩ := BindM.exists_of_bind_eq_ok h
      cases h
      obtain ⟨hc₁, hes⟩ := arguments_safe hkeeps hc hsub hargs hes
      refine (hc₁.guarding hd).call ?_ b.function
      split_ifs
      · intro a ha
        obtain ⟨x, hx, rfl⟩ := List.mem_map.mp ha
        exact integralToDouble_safe (hes x hx)
      · exact hes
    · rw [if_neg htakes] at h
      cases h

omit [External] hkeeps hd hc hsub in
theorem itemType_eq_ok {source : Expr} {element : HostType} (h : itemType source = .ok element) :
    source.type = .collection element := by
  unfold itemType at h
  split at h
  next heq =>
    cases h
    exact heq
  next => cases h

theorem count_safe {source : Node} (hsource : source.Guardable d.computed names)
    (h : count sub source c = (.ok e, c')) : e.Safe d.schema d.EnvConforms := by
  unfold count at h
  obtain ⟨a, c₁, ha, h⟩ := BindM.exists_of_bind_eq_ok h
  obtain ⟨element, c₂, helement, h⟩ := BindM.exists_of_bind_eq_ok h
  obtain ⟨htype, rfl⟩ := Prod.mk.inj helement
  cases h
  have hsafe := hsub source hsource c a _ hc ha
  exact ((hc.frame ((hkeeps source).frame ha)).guarding hd).guardIfNeeded hsafe
    (hsafe.count (itemType_eq_ok htype))

end Sub

section Quantifiers

variable (hsub : ∀ d names, d.Ready names → BindsSafely sub d names)
include hsub hd hc hkeeps

/-- The predicate of a quantifier, at the items of a collection. -/
theorem quantified_safe {name : String} {element : HostType} {body : Node} (hname : name ∉ names)
    (hbody : body.Guardable d.computed (name :: names)) {l : Lambda}
    (h : BindM.withRangeVariable name element (fun p => predicate sub body p) c = (.ok l, c')) :
    ∀ env v, d.EnvConforms env → Conforms d.schema element v →
      (l.body.eval ((l.param.id, v) :: env)).NullSafe fun _ => True := by
  have hnone : Entries.get? c.scope name = none := by
    rw [hc.scope]
    cases hp : Entries.get? d.scope name with
    | none => rfl
    | some p => exact absurd (hd.names name p hp) hname
  rw [BindM.withRangeVariable_of_none hnone] at h
  have h : predicate sub body (c.newParam name element) (c.push name element) = (.ok l, _) :=
    Prod.ext (Prod.mk.inj h).1 rfl
  unfold predicate at h
  obtain ⟨a, c₁, ha, h⟩ := BindM.exists_of_bind_eq_ok h
  obtain ⟨b, c₂, hb, h⟩ := BindM.exists_of_bind_eq_ok h
  cases h
  have hready := (hc.ready hd).push name element
  have hclause := Context.SameClause.refl (c.push name element)
  rw [← hc.computed] at hbody
  have hsafe := hsub _ _ hready body hbody _ a c₁ hclause ha
  have hclause₁ := hclause.frame ((hkeeps body).frame ha)
  have hpredicate := (hclause₁.guarding hready).normalizePredicate hsafe (Prod.mk.inj hb).1
  intro env v henv hv
  rw [← hc.schema] at hv
  have hpushed := (hc.envConforms.mpr henv).push (hc.ready hd).wellScoped hv name
  exact (hpredicate _ hpushed).mono fun _ _ => trivial

theorem all_safe {source body : Node} {v : RangeVariable} (hsource : source.Guardable d.computed names)
    (hname : v.name ∉ names) (hbody : body.Guardable d.computed (v.name :: names))
    (h : all sub source v body c = (.ok e, c')) : e.Safe d.schema d.EnvConforms := by
  unfold all at h
  obtain ⟨a, c₁, ha, h⟩ := BindM.exists_of_bind_eq_ok h
  obtain ⟨element, c₂, helement, h⟩ := BindM.exists_of_bind_eq_ok h
  obtain ⟨htype, rfl⟩ := Prod.mk.inj helement
  obtain ⟨l, c₃, hl, h⟩ := BindM.exists_of_bind_eq_ok h
  cases h
  have hsafe := hsub d names hd source hsource c a c₁ hc ha
  have hc₁ := hc.frame ((hkeeps source).frame ha)
  have hpredicate (p : Param) := predicate_keeps hkeeps body p
  have hc₃ := hc₁.frame ((BindM.Keeps.withRangeVariable _ _ hpredicate).frame hl)
  exact (hc₃.guarding hd).guardIfNeeded hsafe
    (hsafe.allWhere (itemType_eq_ok htype) (quantified_safe hkeeps hd hc₁ hsub hname hbody hl))

theorem any_safe {source : Node} {v : RangeVariable} {body : Option Node}
    (hsource : source.Guardable d.computed names) (hname : v.name ∉ names)
    (hbody : ∀ node, body = some node → node.Guardable d.computed (v.name :: names))
    (h : any sub source v body c = (.ok e, c')) : e.Safe d.schema d.EnvConforms := by
  unfold any at h
  obtain ⟨a, c₁, ha, h⟩ := BindM.exists_of_bind_eq_ok h
  obtain ⟨element, c₂, helement, h⟩ := BindM.exists_of_bind_eq_ok h
  obtain ⟨htype, rfl⟩ := Prod.mk.inj helement
  have hsafe := hsub d names hd source hsource c a c₁ hc ha
  have hc₁ := hc.frame ((hkeeps source).frame ha)
  have hitem := (hc₁.guarding hd).guardIfNeeded hsafe (hsafe.anyItem (itemType_eq_ok htype))
  have hwhere (node : Node) (hnode : body = some node)
      (h : (BindM.withRangeVariable v.name element (fun p => predicate sub node p) >>= fun l =>
        guarded a (.mkCollection .any [a, l.toExpr])) c₁ = (.ok e, c')) :
        e.Safe d.schema d.EnvConforms := by
    obtain ⟨l, c₃, hl, h⟩ := BindM.exists_of_bind_eq_ok h
    cases h
    have hpredicate (p : Param) := predicate_keeps hkeeps node p
    have hc₃ := hc₁.frame ((BindM.Keeps.withRangeVariable _ _ hpredicate).frame hl)
    exact (hc₃.guarding hd).guardIfNeeded hsafe (hsafe.anyWhere (itemType_eq_ok htype)
      (quantified_safe hkeeps hd hc₁ hsub hname (hbody node hnode) hl))
  -- the literals true and false are bound without a predicate
  cases body with
  | none =>
    cases h
    exact hitem
  | some node =>
    cases node with
    | constant l t =>
      cases l with
      | bool b =>
        cases b with
        | true =>
          cases h
          exact hitem
        | false =>
          cases h
          exact Expr.safe_mkBool false
      | _ => exact hwhere _ rfl h
    | _ => exact hwhere _ rfl h

end Quantifiers

/-- **One kind of node is bound to a safe expression**, if the nodes inside are. -/
theorem step_safe (hkeeps : ∀ n, BindM.Keeps (sub n)) (hd : d.Ready names)
    (hsub : ∀ d names, d.Ready names → BindsSafely sub d names) : BindsSafely (step sub) d names := by
  intro node hnode c e c' hc h
  have hinner := hsub d names hd
  cases hnode with
  | constant => exact constant_safe h
  | rangeVariable v =>
    have hresolve : c.resolve v = .ok e := (Prod.mk.inj h).1
    rw [hc.resolve] at hresolve
    exact resolve_safe hresolve
  | property _ _ hsource => exact property_safe hkeeps hd hc hinner hsource h
  | openProperty hsource hcolumn => exact openProperty_safe hkeeps hd hc hinner hsource hcolumn h
  | openCollection hsource hcolumn => exact openProperty_safe hkeeps hd hc hinner hsource hcolumn h
  | binary hop hleft hright => exact binary_safe hkeeps hc hinner hop hleft hright h
  | unary _ hoperand => exact unary_safe hc hinner hoperand h
  | call hname hargs => exact call_safe hkeeps hd hc hinner hname hargs h
  | resourceCall hname hargs => exact call_safe hkeeps hd hc hinner hname hargs h
  | any hsource hname hbody => exact any_safe hkeeps hd hc hsub hsource hname hbody h
  | all hsource hname hbody => exact all_safe hkeeps hd hc hsub hsource hname hbody h
  | count hsource => exact count_safe hkeeps hd hc hinner hsource h

end Nodes

end Bind

theorem Node.bindWithin_safe [External] (levels : Nat) (d : Context) (names : List String)
    (hd : d.Ready names) :
    BindsSafely (Node.bindWithin levels) d names := by
  induction levels generalizing d names with
  | zero =>
    intro node _ c e c' _ h
    cases h
  | succ levels ih =>
    intro node hnode c e c' hc h
    obtain ⟨c₁, h⟩ := BindM.exists_of_descend_eq_ok h
    have hdeeper : d.SameClause c.deeper := { hc with }
    exact Bind.step_safe (Node.bindWithin_keeps levels) hd ih node hnode c.deeper e c₁ hdeeper h

/-- **With null propagation, nothing fails because of a null.** In a context with null propagation, let
a node be bound in which no quantifier hides a variable, and let values conform to their types and the
record of the clause not be null. Then no null is read from, converted to a type without null, tested,
or given to a function, and the result is null only if its type has null. -/
theorem propagation_prevents_null_errors [External] {ctx : Context}
    (hpropagation : ctx.settings.nullPropagation = true) (hscoped : ctx.WellScoped) {node : Node}
    (hnode : node.Guardable ctx.computed (Entries.names ctx.scope)) {e : Expr}
    (hbound : (node.bind ctx).1 = .ok e) {env : Env} (henv : ctx.EnvConforms env) :
    (∀ error, e.eval env = .error error → error.isNullError = false) ∧
      ∀ v, e.eval env = .ok v → v.isNull = true → e.type.isNullable = true := by
  have hnames : ∀ name p, Entries.get? ctx.scope name = some p → name ∈ Entries.names ctx.scope :=
    fun name p hp => List.mem_map.mpr ⟨_, Entries.mem_of_get? hp, rfl⟩
  have hready : ctx.Ready (Entries.names ctx.scope) := ⟨hpropagation, hscoped, hnames⟩
  have hsafe := Node.bindWithin_safe ctx.levelsLeft ctx _ hready node hnode ctx e _ (.refl ctx)
    (Prod.ext hbound rfl) env henv
  constructor
  · intro error herror
    rwa [herror] at hsafe
  · intro v hv hnull
    rw [hv] at hsafe
    exact hsafe.isNullable hnull

/-! ### Orders without a product -/

/-- Orders of a product and of parts, which are products. -/
def orderSchema : Schema :=
  ⟨[("Order",
      ⟨"Order", [("Product", .record "Product"), ("Parts", .collection (.record "Product"))], none⟩),
    ("Product", ⟨"Product", [("Price", .int .int32)], none⟩)], [], []⟩

/-- The clause over orders. -/
def orderContext : Context := .initial orderSchema {} (.record "Order")

/-- The price of a product that a node gives is above a bound. -/
def priceAbove (product : Node) (bound : Int32) : Node :=
  .binary .gt (.property product "Price" .single) (.constant (.int32 bound) none)

/-- The price of the product or of some part is above a bound. -/
def orderNode : Node :=
  let order : Node := .rangeVariable ⟨RangeVariable.itName, .entity "Order" true⟩
  let part : RangeVariable := ⟨"part", .entity "Product" true⟩
  .binary .or (priceAbove (.property order "Product" .navigation) 5)
    (.any (.property order "Parts" .navigationCollection) part (some (priceAbove (.rangeVariable part) 5)))

/-- An order without a product, of which a part is null. -/
def order : Value :=
  .record "Order"
    [("Product", .null), ("Parts", .collection [.null, .record "Product" [("Price", .int32 7)]])]

theorem priceAbove_guardable {names : List String} {product : Node} (h : product.Guardable [] names)
    (bound : Int32) : (priceAbove product bound).Guardable [] names :=
  .binary (by decide) (.property _ _ h) (.constant _ _)

theorem orderNode_guardable : orderNode.Guardable [] [] := by
  refine .binary (by decide) (priceAbove_guardable (.property _ _ (.rangeVariable _)) 5) ?_
  refine .any (.property _ _ (.rangeVariable _)) (by simp) fun node hnode => ?_
  cases hnode
  exact priceAbove_guardable (.rangeVariable _) 5

theorem order_conforms : Conforms orderSchema (.record "Order") order := by
  refine .record fun key m v hm hv => ?_
  rw [Entries.get?_cons, Entries.get?_cons] at hv
  split_ifs at hv with hproduct hparts
  · subst hproduct
    have hmember : orderSchema.member? "Order" "Product" =
        some ⟨"Order", "Product", .record "Product"⟩ := by decide +kernel
    rw [hmember] at hm
    cases hm
    cases hv
    exact .null rfl
  · subst hparts
    have hmember : orderSchema.member? "Order" "Parts" =
        some ⟨"Order", "Parts", .collection (.record "Product")⟩ := by decide +kernel
    rw [hmember] at hm
    cases hm
    cases hv
    refine .collection (List.forall_mem_cons.mpr ⟨.null rfl, List.forall_mem_singleton.mpr ?_⟩)
    refine .record fun key m v hm hv => ?_
    rw [Entries.get?_cons] at hv
    split_ifs at hv with hprice
    · subst hprice
      have hmember : orderSchema.member? "Product" "Price" = some ⟨"Product", "Price", .int .int32⟩ := by
        decide +kernel
      rw [hmember] at hm
      cases hm
      cases hv
      exact .plain rfl rfl
    · cases hv
  · cases hv

/-- The environment of a record of a top-level clause. -/
theorem Context.envConforms_initial [External] {schema : Schema} {settings : Settings} {t : HostType}
    {v : Value} (hv : Conforms schema t v) (hnull : v.isNull = false) :
    (Context.initial schema settings t).EnvConforms [(0, v)] := by
  refine ⟨?_, ⟨hv, hnull⟩, ?_, fun _ _ _ h => (by cases h), fun _ _ h => (by cases h)⟩
  · intro w hw
    cases hw
    exact hnull
  · intro w hw
    cases hw
    exact hv

theorem Context.wellScoped_initial (schema : Schema) (settings : Settings) (t : HostType) :
    (Context.initial schema settings t).WellScoped :=
  ⟨Nat.zero_lt_one, Nat.zero_lt_one, fun _ _ h => (by cases h), fun _ _ h => (by cases h)⟩

theorem propagation_prevents_null_errors_of_order :
    ∃ e, (orderNode.bind orderContext).1 = .ok e ∧
      (∀ error, e.eval [(0, order)] = .error error → error.isNullError = false) ∧
        ∀ v, e.eval [(0, order)] = .ok v → v.isNull = true → e.type.isNullable = true := by
  have hok : (orderNode.bind orderContext).1.toOption.isSome = true := by decide +kernel
  obtain ⟨e, he⟩ := Option.isSome_iff_exists.mp hok
  have he := Outcome.toOption_eq_some.mp he
  exact ⟨e, he, propagation_prevents_null_errors rfl (Context.wellScoped_initial _ _ _)
    orderNode_guardable he (Context.envConforms_initial order_conforms rfl)⟩

end TypedQuery
