import TypedQuery.Proofs.Agreement

/-!
# Nodes that do not name the root record

Binding looks at the root record at one place only: where the name of the root record is resolved in
a clause over records of another type. A node that never names it there is bound to the same
expression whatever the root record is.

* `Context.withRoot`: the context with another root record.
* `BindM.Rootless`: a computation that does not look at the root record; one lemma for each way to
  build a computation.
* `Node.references`: the variables that a node names itself.
* `Node.Rootless`: a node that names no root record, nor do the nodes inside it.
* **`Node.Rootless.bindWithin`**: such a node is bound to the same whatever the root record is.
-/

namespace TypedQuery

open BindM (Keeps)

namespace Context

/-- The context with another root record. -/
def withRoot (ctx : Context) (root : Param) : Context := { ctx with root }

/-- A clause over records of a type, unflattened and without computed columns. -/
structure Over (s : Schema) (t : HostType) (ctx : Context) : Prop where
  schema : ctx.schema = s
  type : ctx.current.type = t
  source : ctx.flatteningSource = none
  flattened : ctx.flattened = []
  computed : ctx.computed = []

variable {s : Schema} {t : HostType} {c : Context}

theorem Over.sameClause {c' : Context} (h : c.Over s t) (hc : c.SameClause c') : c'.Over s t where
  schema := hc.schema.trans h.schema
  type := by rw [hc.current, h.type]
  source := hc.flatteningSource.trans h.source
  flattened := hc.flattened.trans h.flattened
  computed := hc.computed.trans h.computed

theorem Over.push (h : c.Over s t) (name : String) (type : HostType) : (c.push name type).Over s t :=
  { h with }

theorem Over.derive (h : c.Over s t) (element : HostType) : (c.derive element).Over s element :=
  { h with type := rfl, source := rfl, flattened := rfl }

/-- The name of the root record stands for the record of the clause, if that has its type. -/
theorem Over.resolve (h : c.Over s t) {v : RangeVariable}
    (hv : v.name = RangeVariable.itName → s.hostType? v.type = some t) (root : Param) :
    (c.withRoot root).resolve v = c.resolve v := by
  by_cases hit : v.name = RangeVariable.itName
  · have resolves {c' : Context} (h' : c'.Over s t) : c'.resolve v = .ok c'.currentExpr := by
      have htype : c'.schema.hostType? v.type = some c'.current.type := by
        rw [h'.schema, h'.type, hv hit]
      have hthis : v.name ≠ RangeVariable.thisName := by
        rw [hit]
        decide
      rw [Context.resolve, if_neg hthis, if_pos hit, if_pos (.inr (.inr htype))]
    have hroot : (c.withRoot root).Over s t := { h with }
    rw [resolves h, resolves hroot]
    rfl
  · unfold Context.resolve
    rw [if_neg hit, if_neg hit]
    rfl

end Context

/-! ## Computations -/

namespace BindM

variable {α β : Type} {s : Schema} {t : HostType}

/-- In clauses over records of a type, the computation does with another root record what it does with
that of the context. -/
def Rootless (s : Schema) (t : HostType) (x : BindM α) : Prop :=
  ∀ (c : Context) (root : Param), c.Over s t →
    x (c.withRoot root) = ((x c).1, (x c).2.withRoot root)

namespace Rootless

theorem ofOutcome (o : Outcome α) : Rootless s t (BindM.ofOutcome o) := fun _ _ _ => rfl

theorem pure (a : α) : Rootless s t (Pure.pure a : BindM α) := fun _ _ _ => rfl

theorem fail (e : Error) : Rootless s t (BindM.fail e : BindM α) := fun _ _ _ => rfl

theorem reads {f : Context → Outcome α}
    (h : ∀ (c : Context) (root : Param), c.Over s t → f (c.withRoot root) = f c) :
    Rootless s t (BindM.reads f) := fun c root hc => Prod.ext (h c root hc) rfl

theorem bind {x : BindM α} {f : α → BindM β} (hkeeps : Keeps x) (hx : Rootless s t x)
    (hf : ∀ {a c c'}, c.Over s t → x c = (.ok a, c') → Rootless s t (f a)) :
    Rootless s t (x >>= f) := by
  intro c root hc
  have hroot := hx c root hc
  have hframe := hkeeps c
  rcases hr : x c with ⟨e | a, after⟩
  · rw [hr] at hroot
    rw [bind_of_error hroot, bind_of_error hr]
  · rw [hr] at hroot hframe
    rw [bind_of_ok hroot, bind_of_ok hr]
    exact hf hc hr after root (hc.sameClause hframe.sameClause)

/-- What goes on with the context, if it does not look at the root record. -/
theorem context_bind {f : Context → BindM α}
    (heq : ∀ (c : Context) (root : Param), f (c.withRoot root) = f c)
    (hf : ∀ {c}, c.Over s t → Rootless s t (f c)) : Rootless s t (BindM.context >>= f) := by
  intro c root hc
  have h₁ : (BindM.context >>= f) (c.withRoot root) = f (c.withRoot root) (c.withRoot root) := rfl
  have h₂ : (BindM.context >>= f) c = f c c := rfl
  rw [h₁, h₂, heq, hf hc c root hc]

theorem constant (v : Value) (type : HostType) : Rootless s t (BindM.constant v type) := by
  intro c root _
  obtain ⟨-, -, h₁, h₂⟩ | ⟨h₁, h₂⟩ := BindM.constant_alike v type c (c.withRoot root) rfl
  · rw [h₁, h₂]
    rfl
  · rw [h₁, h₂]

theorem descend {x : BindM α} (hx : Rootless s t x) : Rootless s t (BindM.descend x) := by
  intro c root hc
  by_cases h : c.depth < c.settings.maxDepth
  · have hdeeper : (c.withRoot root).deeper = c.deeper.withRoot root := rfl
    have hx := hx c.deeper root { hc with }
    rw [descend_of_lt h, descend_of_lt (show (c.withRoot root).depth < _ from h), hdeeper, hx]
    rfl
  · have h := Nat.le_of_not_lt h
    rw [descend_of_le h, descend_of_le (show _ ≤ (c.withRoot root).depth from h)]
    rfl

theorem withRangeVariable {f : Param → BindM α} (name : String) (type : HostType)
    (hf : ∀ p, Rootless s t (f p)) : Rootless s t (BindM.withRangeVariable name type f) := by
  intro c root hc
  cases hn : Entries.get? c.scope name with
  | some p =>
    rw [withRangeVariable_of_some hn,
      withRangeVariable_of_some (show Entries.get? (c.withRoot root).scope name = some p from hn)]
    exact hf p c root hc
  | none =>
    have hpush : (c.withRoot root).push name type = (c.push name type).withRoot root := rfl
    have hparam : (c.withRoot root).newParam name type = c.newParam name type := rfl
    rw [withRangeVariable_of_none hn,
      withRangeVariable_of_none (show Entries.get? (c.withRoot root).scope name = none from hn),
      hpush, hparam, hf _ _ root (hc.push name type)]
    rfl

/-- A nested clause over records of another type. -/
theorem inChild {element : HostType} {x : BindM α} (hx : Rootless s element x) :
    Rootless s t (BindM.inChild element x) := by
  intro c root hc
  have hderive : (c.withRoot root).derive element = (c.derive element).withRoot root := rfl
  unfold BindM.inChild
  rw [hderive, hx _ root (hc.derive element)]
  rfl

end Rootless

end BindM

/-! ## Rules of binding -/

open BindM (Rootless)

namespace Bind

/-- Whether a call asks for the type of its argument. -/
def isTypeFunction (name : String) : Bool :=
  Text.asciiLower name = "cast" ∨ Text.asciiLower name = "isof"

variable {s : Schema} {t : HostType} {sub : Node → BindM Expr} (hkeeps : ∀ n, Keeps (sub n))

section Rules

variable {source left right body : Node} (hsource : Rootless s t (sub source))

include hkeeps

include hsource in
theorem property_rootless (node : Node) (name : String) :
    Rootless s t (property sub node source name) := by
  refine .context_bind (fun _ _ => rfl) fun _ => ?_
  split
  · exact .pure _
  · exact .bind (hkeeps source) hsource fun _ _ => .reads fun _ _ _ => rfl

include hsource in
theorem openProperty_rootless (name : String) : Rootless s t (openProperty sub source name) := by
  refine .context_bind (fun _ _ => rfl) fun {c} hc => ?_
  have hnone : computed? c source name = none := by
    unfold computed?
    rw [hc.computed]
    split <;> rfl
  rw [hnone]
  exact .bind (hkeeps source) hsource fun _ _ => .reads fun _ _ _ => rfl

theorem binary_rootless (op : QueryOp) (hl : Rootless s t (sub left)) (hr : Rootless s t (sub right)) :
    Rootless s t (binary sub op left right) :=
  .bind (hkeeps left) hl fun _ _ => .bind (hkeeps right) hr fun _ _ => .reads fun _ _ _ => rfl

include hsource in
theorem unary_rootless (op : QueryUnaryOp) : Rootless s t (unary sub op source) :=
  .bind (hkeeps source) hsource fun _ _ => .ofOutcome _

include hsource in
theorem convert_rootless (type : LogicalType) : Rootless s t (convert sub source type) :=
  .bind (hkeeps source) hsource fun _ _ =>
    .bind (Keeps.reads _) (.reads fun _ _ _ => rfl) fun _ _ => .ofOutcome _

include hsource in
theorem resourceCast_rootless (type : LogicalType) : Rootless s t (resourceCast sub source type) :=
  .bind (hkeeps source) hsource fun _ _ =>
    .bind (Keeps.reads _) (.reads fun _ _ _ => rfl) fun _ _ => .pure _

omit hkeeps in
theorem guarded_rootless (source result : Expr) : Rootless s t (guarded source result) :=
  .context_bind (fun _ _ => rfl) fun _ => .pure _

theorem typeFunction_rootless (function : String) {args : List Node}
    (himplicit : args.length = 1 → s.hostType? implicitVariable.type = some t)
    (hargs : ∀ arg ∈ args, Rootless s t (sub arg)) :
    Rootless s t (typeFunction sub function args) := by
  have htype (arg : Node) : Rootless s t (BindM.reads (typeArgument function arg)) := by
    refine .reads fun _ _ _ => ?_
    unfold typeArgument
    split <;> rfl
  rcases args with _ | ⟨a, _ | ⟨b, _ | ⟨c, rest⟩⟩⟩
  · exact .fail _
  · refine .bind (Keeps.reads _) (htype a) fun _ _ => ?_
    refine .bind (Keeps.reads _) (.reads fun c root hc => ?_) fun _ _ => .pure _
    exact hc.resolve (fun _ => himplicit rfl) root
  · refine .bind (Keeps.reads _) (htype b) fun _ _ => ?_
    exact .bind (hkeeps a) (hargs a (by simp)) fun _ _ => .pure _
  · exact .fail _

theorem arguments_rootless (function : String) {args : List Node} (kinds : List ArgKind)
    (hargs : ∀ arg ∈ args, Rootless s t (sub arg)) :
    Rootless s t (arguments sub function args kinds) := by
  induction args generalizing kinds with
  | nil => exact .pure _
  | cons arg args ih =>
    cases kinds with
    | nil => exact .pure _
    | cons k ks =>
      refine .bind (hkeeps arg) (hargs arg (by simp)) fun _ _ => ?_
      refine .bind (Keeps.ofOutcome _) (.ofOutcome _) fun _ _ => ?_
      exact .bind (arguments_keeps hkeeps function args ks) (ih ks fun a ha => hargs a (by simp [ha]))
        fun _ _ => .pure _

theorem builtinCall_rootless (b : Builtin) (name : String) {args : List Node}
    (hargs : ∀ arg ∈ args, Rootless s t (sub arg)) : Rootless s t (builtinCall sub b name args) := by
  unfold builtinCall
  split
  · refine .bind (arguments_keeps hkeeps name args b.args)
      (arguments_rootless hkeeps name b.args hargs) fun _ _ => ?_
    exact .context_bind (fun _ _ => rfl) fun _ => .pure _
  · exact .fail _

theorem call_rootless (name : String) {args : List Node}
    (himplicit : isTypeFunction name = true → args.length = 1 →
      s.hostType? implicitVariable.type = some t)
    (hargs : ∀ arg ∈ args, Rootless s t (sub arg)) : Rootless s t (call sub name args) := by
  unfold call
  dsimp only
  split
  · exact typeFunction_rootless hkeeps _ (himplicit (decide_eq_true ‹_›)) hargs
  · split
    · exact builtinCall_rootless hkeeps _ name hargs
    · exact .fail _

theorem predicate_rootless (hbody : Rootless s t (sub body)) (p : Param) :
    Rootless s t (predicate sub body p) :=
  .bind (hkeeps body) hbody fun _ _ =>
    .bind (Keeps.reads _) (.reads fun _ _ _ => rfl) fun _ _ => .pure _

theorem filterLambda_rootless (hbody : Rootless s t (sub body)) :
    Rootless s t (filterLambda sub body) := by
  refine .bind (hkeeps body) hbody fun _ _ => ?_
  refine .bind (Keeps.reads _) (.reads fun _ _ _ => rfl) fun _ _ => ?_
  split
  · exact .context_bind (fun _ _ => rfl) fun _ => .pure _
  · exact .fail _

/-- An operator on a collection, if what it does with the items does not look at the root record. -/
theorem overItems_rootless (hsource : Rootless s t (sub source)) {f : Expr → HostType → BindM Expr}
    (hf : ∀ {e c c' element}, c.Over s t → sub source c = (.ok e, c') → itemType e = .ok element →
      Rootless s t (f e element)) :
    Rootless s t (sub source >>= fun e => BindM.ofOutcome (itemType e) >>= f e) :=
  .bind (hkeeps source) hsource fun hc he => .bind (Keeps.ofOutcome _) (.ofOutcome _) fun _ hitem =>
    hf hc he (Prod.mk.inj hitem).1

theorem quantified_rootless (name : String) (element : HostType) (hbody : Rootless s t (sub body)) :
    Rootless s t (BindM.withRangeVariable name element fun p => predicate sub body p) :=
  .withRangeVariable _ _ fun p => predicate_rootless hkeeps hbody p

theorem any_rootless (hsource : Rootless s t (sub source)) (v : RangeVariable) {body : Option Node}
    (hbody : ∀ b, body = some b → Rootless s t (sub b)) : Rootless s t (any sub source v body) := by
  refine overItems_rootless hkeeps hsource fun _ _ _ => ?_
  split
  · exact guarded_rootless _ _
  · exact guarded_rootless _ _
  · exact .pure _
  · refine .bind (Keeps.withRangeVariable _ _ fun p => predicate_keeps hkeeps _ p) ?_
      fun _ _ => guarded_rootless _ _
    exact quantified_rootless hkeeps _ _ (hbody _ rfl)

theorem all_rootless (hsource : Rootless s t (sub source)) (v : RangeVariable)
    (hbody : Rootless s t (sub body)) : Rootless s t (all sub source v body) := by
  refine overItems_rootless hkeeps hsource fun _ _ _ => ?_
  exact .bind (Keeps.withRangeVariable _ _ fun p => predicate_keeps hkeeps _ p)
    (quantified_rootless hkeeps _ _ hbody) fun _ _ => guarded_rootless _ _

theorem isIn_rootless (hl : Rootless s t (sub left)) (hr : Rootless s t (sub right)) :
    Rootless s t (isIn sub left right) :=
  .bind (hkeeps left) hl fun _ _ => overItems_rootless hkeeps hr fun _ _ _ => guarded_rootless _ _

include hsource in
theorem count_rootless : Rootless s t (count sub source) :=
  overItems_rootless hkeeps hsource fun _ _ _ => guarded_rootless _ _

/-- The predicate of a filtered count is over the items of its source. -/
theorem countWhere_rootless (hsource : Rootless s t (sub source))
    (hbody : ∀ {e c c' element}, c.Over s t → sub source c = (.ok e, c') → itemType e = .ok element →
      Rootless s element (sub body)) : Rootless s t (countWhere sub source body) := by
  refine overItems_rootless hkeeps hsource fun hc he hitem => ?_
  exact .bind (Keeps.inChild _ _) (.inChild (filterLambda_rootless hkeeps (hbody hc he hitem)))
    fun _ _ => guarded_rootless _ _

include hsource in
theorem collectionCast_rootless (type : LogicalType) : Rootless s t (collectionCast sub source type) :=
  overItems_rootless hkeeps hsource fun _ _ _ =>
    .bind (Keeps.reads _) (.reads fun _ _ _ => rfl) fun _ _ => guarded_rootless _ _

omit hkeeps in
theorem collectionConstant_rootless (literals : List Literal) (type : LogicalType) :
    Rootless s t (collectionConstant literals type) :=
  .bind (Keeps.reads _) (.reads fun _ _ _ => rfl) fun _ _ =>
    .bind (Keeps.ofOutcome _) (.ofOutcome _) fun _ _ => .constant _ _

omit hkeeps in
theorem constant_rootless (l : Literal) (type : Option LogicalType) :
    Rootless s t (constant l type) := by
  refine .bind (Keeps.reads _) (.reads fun _ _ _ => rfl) fun _ _ => ?_
  split
  · refine .bind (Keeps.reads _) (.reads fun _ _ _ => rfl) fun _ _ => ?_
    split
    · exact .fail _
    · split
      · exact .constant _ _
      · exact .fail _
  · split
    · exact .fail _
    · exact .pure _
    · exact .constant _ _

end Rules

end Bind

/-! ## Nodes -/

namespace Node

/-- The variables that a node names itself; `cast` and `isof` of one argument name the record of the
clause. -/
def references : Node → List RangeVariable
  | .rangeVariable v => [v]
  | .call name [_] | .resourceCall name [_] =>
    if Bind.isTypeFunction name then [Bind.implicitVariable] else []
  | _ => []

/-- In clauses over records of a type, no root record is named: where the name of the root record
stands, it is declared with the type of the records. The predicate of a filtered count is a clause
over the items that are counted. -/
inductive Rootless (s : Schema) : HostType → Node → Prop
  | mk {t : HostType} {node : Node}
    (references : ∀ v ∈ node.references, v.name = RangeVariable.itName → s.hostType? v.type = some t)
    (parts : ∀ part ∈ node.parts, Rootless s t part)
    (counted : ∀ source body v, node = .countWhere source body v →
      ∀ (c c' : Context) (levels : Nat) (e : Expr) (element : HostType), c.Over s t →
        source.bindWithin levels c = (.ok e, c') → Bind.itemType e = .ok element →
          Rootless s element body) : Rootless s t node

/-- **A node that does not name the root record is bound to the same whatever that is.** -/
theorem Rootless.bindWithin {s : Schema} {t : HostType} {node : Node} (h : node.Rootless s t)
    (levels : Nat) : BindM.Rootless s t (node.bindWithin levels) := by
  induction levels generalizing t node with
  | zero => exact .reads fun _ _ _ => rfl
  | succ levels ih =>
    have hkeeps := Node.bindWithin_keeps levels
    obtain ⟨hreferences, hparts, hcounted⟩ := h
    have hpart {part : Node} (hp : part ∈ node.parts) := ih (hparts part hp)
    refine .descend ?_
    cases node with
    | constant l type => exact Bind.constant_rootless l type
    | rangeVariable v =>
      exact .reads fun c root hc => hc.resolve (hreferences v (by simp [Node.references])) root
    | property source name kind =>
      exact Bind.property_rootless hkeeps (hpart (by simp [Node.parts])) _ name
    | openProperty source name | openCollection source name =>
      exact Bind.openProperty_rootless hkeeps (hpart (by simp [Node.parts])) name
    | binary op left right =>
      exact Bind.binary_rootless hkeeps op (hpart (by simp [Node.parts])) (hpart (by simp [Node.parts]))
    | unary op operand => exact Bind.unary_rootless hkeeps (hpart (by simp [Node.parts])) op
    | convert source type => exact Bind.convert_rootless hkeeps (hpart (by simp [Node.parts])) type
    | call name args | resourceCall name args =>
      refine Bind.call_rootless hkeeps name (fun hname hlength => ?_) fun arg ha => hpart ha
      obtain ⟨arg, rfl⟩ := List.length_eq_one_iff.mp hlength
      exact hreferences Bind.implicitVariable (by simp [Node.references, hname]) rfl
    | any source v body =>
      exact Bind.any_rootless hkeeps (hpart (by simp [Node.parts])) v fun b hb =>
        hpart (by simp [Node.parts, hb])
    | all source v body =>
      exact Bind.all_rootless hkeeps (hpart (by simp [Node.parts])) v (hpart (by simp [Node.parts]))
    | isIn probe items =>
      exact Bind.isIn_rootless hkeeps (hpart (by simp [Node.parts])) (hpart (by simp [Node.parts]))
    | count source => exact Bind.count_rootless hkeeps (hpart (by simp [Node.parts]))
    | countWhere source body v =>
      exact Bind.countWhere_rootless hkeeps (hpart (by simp [Node.parts])) fun hc he hitem =>
        ih (hcounted source body v rfl _ _ levels _ _ hc he hitem)
    | collectionCast source type =>
      exact Bind.collectionCast_rootless hkeeps (hpart (by simp [Node.parts])) type
    | resourceCast source type =>
      exact Bind.resourceCast_rootless hkeeps (hpart (by simp [Node.parts])) type
    | collectionConstant literals element => exact Bind.collectionConstant_rootless literals element
    | namedParameter | parameterAlias | entitySet | keyLookup | searchTerm => exact .fail _

theorem Rootless.bind {s : Schema} {t : HostType} {node : Node} (h : node.Rootless s t) :
    BindM.Rootless s t node.bind :=
  fun c root hc => h.bindWithin c.levelsLeft c root hc

end Node

end TypedQuery
