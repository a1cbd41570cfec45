import TypedQuery.Proofs.NestedAggregates

/-!
# Quantifiers over flattened records

Flattening puts slots in the place of chains of properties, and finds a chain by its names. In the
body of a quantifier, the same names may be those of a chain that starts from the item, not from the
record of the clause. As long as no such chain has the key of a flattened one, flattening preserves
meaning (**`flattening_preserves_quantifiers`**).

* `Node.chain?`: the variable that a chain of properties starts from, and its names.
* `Node.bindWithin_chain`: a chain none of whose parts was flattened is bound to the members of what its
  variable stands for.
* `Node.Throughout`: a property of a node and of the nodes inside it.
* `Flattening.Distinct`: the chains of a node stay apart from those that were flattened.
* `Flattening.Beside`: the body of a quantifier, over records and over flattened records.
* `flattening_confuses_items`: a chain of an item that has the key of a flattened one.
-/

namespace TypedQuery

open BindM (Simulates Keeps)

/-! ## Chains of properties -/

/-- Whether the variable means the record of a clause, not the item of a quantifier. -/
def RangeVariable.IsRecord (v : RangeVariable) : Prop :=
  v.name = RangeVariable.thisName ∨ v.name = RangeVariable.itName

namespace Node

/-- The variable that a chain of declared properties starts from, with the names of the chain. -/
def chain? : Node → Option (RangeVariable × List String)
  | .rangeVariable v => some (v, [])
  | .property source name _ => source.chain?.map fun chain => (chain.1, chain.2 ++ [name])
  | _ => none

theorem path?_eq_chain? (node : Node) : node.path? = node.chain?.map Prod.snd := by
  fun_induction Node.chain? node with
  | case1 v => rfl
  | case2 source name kind ih =>
    rw [path?, ih, Option.map_map, Option.map_map]
    rfl
  | case3 node h₁ h₂ =>
    cases node with
    | rangeVariable v => exact absurd rfl (h₁ v)
    | property source name kind => exact absurd rfl (h₂ source name kind)
    | _ => rfl

end Node

namespace Context

/-- The contexts are over the same record, and may differ in variables, counters and depth. -/
structure SameRecord (d c : Context) : Prop where
  schema : c.schema = d.schema
  settings : c.settings = d.settings
  current : c.current = d.current
  root : c.root = d.root
  flattened : c.flattened = d.flattened
  flatteningSource : c.flatteningSource = d.flatteningSource
  computed : c.computed = d.computed

namespace SameRecord

variable {d c : Context}

theorem sameClause {c' : Context} (h : d.SameRecord c) (hc : c.SameClause c') : d.SameRecord c' where
  schema := hc.schema.trans h.schema
  settings := hc.settings.trans h.settings
  current := hc.current.trans h.current
  root := hc.root.trans h.root
  flattened := hc.flattened.trans h.flattened
  flatteningSource := hc.flatteningSource.trans h.flatteningSource
  computed := hc.computed.trans h.computed

theorem push (h : d.SameRecord c) (name : String) (type : HostType) :
    d.SameRecord (c.push name type) :=
  { h with }

theorem isCurrent (h : d.SameRecord c) (e : Expr) : c.isCurrent e = d.isCurrent e := by
  unfold Context.isCurrent sourceMember
  rw [h.current, h.flatteningSource]

theorem currentExpr (h : d.SameRecord c) : c.currentExpr = d.currentExpr := by
  unfold Context.currentExpr sourceMember
  rw [h.current, h.flatteningSource]

theorem isFlattened (h : d.SameRecord c) : c.isFlattened = d.isFlattened := by
  unfold Context.isFlattened
  rw [h.flatteningSource]

theorem memberAccess (h : d.SameRecord c) : c.memberAccess = d.memberAccess := by
  funext source name
  unfold Context.memberAccess guardIfNeeded needsGuard
  rw [h.schema, h.settings, h.isCurrent]

theorem flattenedRead (h : d.SameRecord c) (node : Node) :
    c.flattenedRead? node = d.flattenedRead? node := by
  unfold flattenedRead?
  rw [h.flattened]

end SameRecord

end Context

/-- Expressions that agree in two contexts agree inside them, in environments that know more. -/
theorem Expr.Agree.inside [External] {d₁ d₂ c₁ c₂ : Context} {V W : Env → Env → Prop} {e₁ e₂ : Expr}
    (h : Expr.Agree d₁ d₂ V e₁ e₂) (h₁ : d₁.SameRecord c₁) (h₂ : d₂.SameRecord c₂)
    (hW : ∀ {env₁ env₂}, W env₁ env₂ → V env₁ env₂) : Expr.Agree c₁ c₂ W e₁ e₂ :=
  { h with
    isCurrent := by rw [h₁.isCurrent, h₂.isCurrent, h.isCurrent]
    left_unflattened := by
      rw [h₁.isFlattened, h₁.current]
      exact h.left_unflattened
    right_unflattened := by
      rw [h₂.isFlattened, h₂.current]
      exact h.right_unflattened
    eval := fun henv => h.eval (hW henv) }

namespace Node

variable {c : Context}

/-- The last property of a chain, if the chain before it is bound to its members. -/
theorem property_chain {sub : Node → BindM Expr} {source node : Node} {name : String} {c' : Context}
    {e : Expr} (hkeeps : Keeps (sub source)) (hread : c.flattenedRead? node = none)
    (he : Bind.property sub node source name c = (.ok e, c')) :
    ∃ s c₁, sub source c = (.ok s, c₁) ∧ c.memberAccess s name = .ok e := by
  obtain ⟨_, _, hcontext, he⟩ := BindM.exists_of_bind_eq_ok he
  cases hcontext
  rw [hread] at he
  obtain ⟨s, c₁, hs, he⟩ := BindM.exists_of_bind_eq_ok he
  have hframe := hkeeps c
  rw [hs] at hframe
  have he : c₁.memberAccess s name = .ok e := (Prod.mk.inj he).1
  rw [hframe.sameClause.memberAccess] at he
  exact ⟨s, c₁, hs, he⟩

/-- **A chain none of whose parts was flattened is bound to the members of what its variable stands
for.** -/
theorem bindWithin_chain {node : Node} {v : RangeVariable} {path : List String} {levels : Nat}
    {c' : Context} {e : Expr} (hchain : node.chain? = some (v, path))
    (hfree : ∀ q, q ≠ [] → q <+: path → Entries.get? c.flattened (Node.pathKey q) = none)
    (he : node.bindWithin levels c = (.ok e, c')) :
    ∃ s, c.resolve v = .ok s ∧ path.foldlM c.memberAccess s = .ok e := by
  induction levels generalizing node path c c' e with
  | zero => cases he
  | succ levels ih =>
    obtain ⟨c₁, he⟩ := BindM.exists_of_descend_eq_ok he
    have hdeeper : c.SameClause c.deeper := (Context.SameClause.refl c).deeper
    cases node with
    | rangeVariable w =>
      cases hchain
      have he : c.deeper.resolve v = .ok e := (Prod.mk.inj he).1
      rw [hdeeper.resolve] at he
      exact ⟨e, he, rfl⟩
    | property source name kind =>
      obtain ⟨⟨w, init⟩, hinit, heq⟩ := Option.map_eq_some_iff.mp hchain
      obtain ⟨rfl, rfl⟩ := Prod.mk.inj heq
      have hread : c.deeper.flattenedRead? (.property source name kind) = none := by
        rw [hdeeper.flattenedRead, Context.flattenedRead?, path?_eq_chain?, hchain]
        exact hfree _ (by simp) (List.prefix_refl _)
      obtain ⟨s, c₂, hs, he⟩ :=
        property_chain (Node.bindWithin_keeps levels source) hread he
      obtain ⟨r, hr, hs⟩ := ih (c := c.deeper) hinit
        (fun q hq hpre => hfree q hq (hpre.trans (List.prefix_append _ _))) hs
      rw [hdeeper.resolve] at hr
      have haccess : c.deeper.memberAccess = c.memberAccess := by
        funext source name
        exact hdeeper.memberAccess source name
      rw [haccess] at hs he
      refine ⟨r, hr, ?_⟩
      rw [List.foldlM_append, hs]
      simp only [Outcome.ok_bind, List.foldlM_cons, List.foldlM_nil, he]
      rfl
    | _ => cases hchain

/-- A property of a node, and of the nodes inside it that are bound in its clause. -/
inductive Throughout (P : Node → Prop) : Node → Prop
  | mk {node : Node} (here : P node) (parts : ∀ part ∈ node.parts, Throughout P part) :
    Throughout P node

end Node

/-! ## Simulations -/

/-- A filtered count, if its predicate is simulated over the items of what its source is bound to. -/
theorem Simulation.countOver {K : Context → Context → Prop} {E : Error → Prop} {R : Expr → Expr → Prop}
    {L : Lambda → Lambda → Prop} (h : Simulation K E R L) {sub₁ sub₂ : Node → BindM Expr}
    {source : Node} (hs : Simulation.Sub K E R sub₁ sub₂ source) (body : Node)
    (hbody : ∀ {c₁ c₂ c₁' e element}, K c₁ c₂ → sub₁ source c₁ = (.ok e, c₁') →
      Bind.itemType e = .ok element →
        Simulates K E L (BindM.inChild element (Bind.filterLambda sub₁ body))
          (BindM.inChild element (Bind.filterLambda sub₂ body))) :
    Simulates K E R (Bind.countWhere sub₁ source body) (Bind.countWhere sub₂ source body) := by
  refine Simulates.bind h.stable hs.traced fun s₁ s₂ hs => ?_
  obtain ⟨hs, c₁, c₂, c₁', hc, hbound⟩ := hs
  refine Simulates.bind h.stable (h.itemType hs).traced fun element _ he => ?_
  obtain ⟨rfl, _, _, _, _, hitem⟩ := he
  exact Simulates.bind h.stable (hbody hc hbound (Prod.mk.inj hitem).1) fun _ _ hl =>
    h.guarded rfl hs fun _ => h.countWhere hs hl

/-! ## Records and flattened records -/

namespace Flattening

/-- The chains of a node stay apart from those that were flattened, which have the keys taken: a chain
from the record of the clause satisfies a predicate, and a chain from the item of a quantifier has none
of these keys. The predicate of a filtered count does not name the root record. -/
structure Distinct (ctx : Context) (chains : List String → Prop) (taken : String → Prop)
    (node : Node) : Prop where
  own : ∀ v path, node.chain? = some (v, path) → path ≠ [] → v.IsRecord → chains path
  other : ∀ v path, node.chain? = some (v, path) → path ≠ [] → ¬ v.IsRecord →
    ¬ taken (Node.pathKey path)
  counted : ∀ source body v, node = .countWhere source body v →
    ∀ (c c' : Context) (levels : Nat) (e : Expr) (element : HostType),
      c.Over ctx.schema ctx.current.type → source.bindWithin levels c = (.ok e, c') →
        Bind.itemType e = .ok element → body.Rootless ctx.schema element

/-- The same place in quantifiers over records and over flattened records. -/
structure Beside (ctx d c₁ c₂ : Context) : Prop where
  parallel : c₁.Parallel c₂
  left : ctx.SameRecord c₁
  right : d.SameRecord c₂

/-- The current record of the second environment stands for that of the first, and variables have the
same values. -/
def StandsBeside [External] (ctx d : Context) (slots : List (String × String × Expr)) (c₁ c₂ : Context)
    (env₁ env₂ : Env) : Prop :=
  Stands ctx d slots env₁ env₂ ∧ ∀ p₁ p₂, c₁.Shared c₂ p₁ p₂ → env₁.lookup p₁.id = env₂.lookup p₂.id

namespace Beside

variable {ctx d c₁ c₂ : Context} {slots : List (String × String × Expr)}

theorem sameClause {c₁' c₂' : Context} (h : Beside ctx d c₁ c₂) (h₁ : c₁.SameClause c₁')
    (h₂ : c₂.SameClause c₂') : Beside ctx d c₁' c₂' :=
  ⟨h.parallel.sameClause h₁ h₂, h.left.sameClause h₁, h.right.sameClause h₂⟩

theorem push (h : Beside ctx d c₁ c₂) (name : String) (type : HostType) :
    Beside ctx d (c₁.push name type) (c₂.push name type) :=
  ⟨h.parallel.push name type, h.left.push name type, h.right.push name type⟩

/-- A variable of both contexts gets the same value. -/
theorem standsBeside_cons [External] {b₁ b₂ : Context} (h : Beside ctx d c₁ c₂) {q₁ q₂ : Param}
    (hq : c₁.Shared c₂ q₁ q₂)
    (hold : ∀ {p₁ p₂}, c₁.Shared c₂ p₁ p₂ → b₁.Shared b₂ p₁ p₂ ∨ p₁ = q₁ ∧ p₂ = q₂)
    {env₁ env₂ : Env} (hV : StandsBeside ctx d slots b₁ b₂ env₁ env₂) (v : Value) :
    StandsBeside ctx d slots c₁ c₂ ((q₁.id, v) :: env₁) ((q₂.id, v) :: env₂) := by
  refine ⟨?_, fun p₁ p₂ hp => ?_⟩
  · obtain ⟨flat, item, hstands, hitem, hflat⟩ := hV.1
    obtain ⟨name, hq₁, hq₂⟩ := hq
    have hne₁ : ctx.current.id ≠ q₁.id := by
      rw [← h.left.current]
      exact (h.parallel.left.ne_current hq₁).symm
    have hne₂ : d.current.id ≠ q₂.id := by
      rw [← h.right.current]
      exact (h.parallel.right.ne_current hq₂).symm
    refine ⟨flat, item, hstands, ?_, ?_⟩
    · rw [Context.lookup_cons, if_neg hne₁, hitem]
    · rw [Context.lookup_cons, if_neg hne₂, hflat]
  · rw [Context.lookup_cons, Context.lookup_cons]
    by_cases heq : p₁ = q₁ ∧ p₂ = q₂
    · rw [heq.1, heq.2, if_pos rfl, if_pos rfl]
    · rw [if_neg fun hid => heq (h.parallel.params.unique hp hq (.inl hid)),
        if_neg fun hid => heq (h.parallel.params.unique hp hq (.inr hid))]
      exact hV.2 _ _ ((hold hp).resolve_right heq)

variable (hfresh : ctx.Fresh) (hentered : Entered ctx d slots) (h : Beside ctx d c₁ c₂)

include hfresh hentered h in
/-- Variables stand for the current record, flattened or not, or for the item of a quantifier. -/
theorem corresponds [External] :
    Context.Corresponds (fun _ => False) (StandsBeside ctx d slots c₁ c₂) c₁ c₂ := by
  refine ⟨h.parallel.schema, h.parallel.settings, h.parallel.computed, fun v => ?_⟩
  have hagree : Expr.Agree c₁ c₂ (StandsBeside ctx d slots c₁ c₂) c₁.currentExpr c₂.currentExpr := by
    rw [h.left.currentExpr, h.right.currentExpr, Context.currentExpr_of_none hfresh.flatteningSource]
    exact (hentered.agree_current hfresh).inside h.left h.right And.left
  have hroot : c₁.root = c₁.current := by rw [h.left.root, h.left.current, hfresh.root]
  have hflat : c₂.isFlattened = true := by
    rw [h.right.isFlattened, Context.isFlattened, hentered.flatteningSource]
    rfl
  unfold Context.resolve
  split_ifs with hthis hit h₁ h₂ h₂
  · exact hagree
  · exact hagree
  · exact absurd (.inl hflat) h₂
  · exact absurd (.inr (.inl hroot)) h₁
  · exact absurd (.inr (.inl hroot)) h₁
  · cases h₁ : Entries.get? c₁.scope v.name with
    | none => exact fun hfalse => hfalse.elim
    | some p₁ =>
      obtain ⟨p₂, h₂⟩ := h.parallel.exists_right h₁
      rw [h₂]
      have hshared : c₁.Shared c₂ p₁ p₂ := ⟨v.name, h₁, h₂⟩
      have hne₁ : p₁ ≠ c₁.current := fun heq => h.parallel.left.ne_current h₁ (by rw [heq])
      have hne₂ : p₂ ≠ c₂.current := fun heq => h.parallel.right.ne_current h₂ (by rw [heq])
      refine ⟨h.parallel.params.type hshared, rfl, rfl, rfl, ?_, rfl, rfl, fun _ => ?_, fun _ => ?_,
        fun hV => ?_, .param p₁⟩
      · simp [Context.isCurrent, hne₁, hne₂]
      · simpa using hne₁
      · simpa using hne₂
      · simp only [Expr.eval, hV.2 _ _ hshared, h.parallel.params.name hshared]

variable {chains : List String → Prop} {taken : String → Prop}
  (hkeys : ∀ p q, chains p → chains q → Node.pathKey p = Node.pathKey q → p = q)
  (hslots : SlotsOf ctx chains slots) (htaken : ∀ s ∈ slots, taken s.1)

include hfresh h in
/-- A chain from the record of the clause is bound to its members, over the records themselves. -/
theorem bind_own {source : Node} {name : String} {kind : PropertyKind} {v : RangeVariable}
    {path : List String} {levels : Nat} {a a' : Context} {e : Expr} (ha : c₁.SameClause a)
    (hchain : (Node.property source name kind).chain? = some (v, path)) (hv : v.IsRecord)
    (he : Bind.property (Node.bindWithin levels) (.property source name kind) source name a =
      (.ok e, a')) :
    ctx.pathExpr path = .ok e := by
  have hrecord := h.left.sameClause ha
  have hnone (key : String) : Entries.get? a.flattened key = none := by
    rw [hrecord.flattened, hfresh.flattened]
    rfl
  have hread : a.flattenedRead? (.property source name kind) = none := by
    rw [Context.flattenedRead?, Node.path?_eq_chain?, hchain]
    exact hnone _
  obtain ⟨s, b, hs, he⟩ := Node.property_chain (Node.bindWithin_keeps levels source) hread he
  obtain ⟨⟨w, init⟩, hinit, heq⟩ := Option.map_eq_some_iff.mp hchain
  obtain ⟨rfl, rfl⟩ := Prod.mk.inj heq
  obtain ⟨r, hr, hs⟩ := Node.bindWithin_chain hinit (fun _ _ _ => hnone _) hs
  have hcurrent : r = .param ctx.current := by
    have hroot : a.root = a.current := by rw [hrecord.root, hrecord.current, hfresh.root]
    have hexpr := hrecord.currentExpr.trans (Context.currentExpr_of_none hfresh.flatteningSource)
    unfold Context.resolve at hr
    rw [hexpr] at hr
    split_ifs at hr with hthis hit hcond
    · cases hr
      rfl
    · cases hr
      rfl
    · exact absurd (.inr (.inl hroot)) hcond
    · exact absurd hv (by simp [RangeVariable.IsRecord, hthis, hit])
  subst hcurrent
  rw [hrecord.memberAccess] at hs he
  unfold Context.pathExpr
  rw [List.foldlM_append, hs]
  simp only [Outcome.ok_bind, List.foldlM_cons, List.foldlM_nil, he]
  rfl

include hfresh hentered h hkeys hslots htaken in
/-- A property, of the record of the clause or of the item of a quantifier. -/
theorem property [External] {source : Node} {name : String} {kind : PropertyKind} {levels : Nat}
    (hnode : Distinct ctx chains taken (.property source name kind))
    (hs : Simulates (c₁.Within c₂) (fun _ => False) (Expr.Agree c₁ c₂ (StandsBeside ctx d slots c₁ c₂))
      (source.bindWithin levels) (source.bindWithin levels)) :
    Simulates (c₁.Within c₂) (fun _ => False) (Expr.Agree c₁ c₂ (StandsBeside ctx d slots c₁ c₂))
      (Bind.property (Node.bindWithin levels) (.property source name kind) source name)
      (Bind.property (Node.bindWithin levels) (.property source name kind) source name) := by
  cases hread : d.flattenedRead? (.property source name kind) with
  | none =>
    refine (h.corresponds hfresh hentered).simulation.property name (fun hc => ?_) hs
    rw [hc.left.flattenedRead, hc.right.flattenedRead, h.left.flattenedRead, h.right.flattenedRead,
      hfresh.flattenedRead, hread]
    exact ⟨rfl, rfl⟩
  | some read =>
    refine ⟨fun {a₁ a₂ e a₁'} ha he => ?_, fun _ _ hfalse => hfalse.elim⟩
    obtain ⟨path, hpath, hget⟩ := Option.bind_eq_some_iff.mp hread
    rw [Node.path?_eq_chain?] at hpath
    obtain ⟨⟨v, path⟩, hchain, rfl⟩ := Option.map_eq_some_iff.mp hpath
    have hne : path ≠ [] := by
      obtain ⟨_, _, heq⟩ := Option.map_eq_some_iff.mp hchain
      rw [← (Prod.mk.inj heq).2]
      simp
    rw [hentered.flattened] at hget
    obtain ⟨s, hmem, heq⟩ := List.mem_map.mp (Entries.mem_of_get?_ofPairs hget)
    obtain ⟨hkey, rfl⟩ := Prod.mk.inj heq
    -- the key of the slot is taken, so the chain starts from the record of the clause
    have hv : v.IsRecord := by
      by_contra hv
      exact hnode.other v path hchain hne hv (hkey ▸ htaken s hmem)
    obtain ⟨path', hchain', -, hkey', hexpr⟩ := hslots s hmem
    obtain rfl := hkeys path path' (hnode.own v path hchain hne hv) hchain' (hkey.symm.trans hkey')
    have hbound := h.bind_own hfresh ha.left hchain hv he
    rw [hexpr] at hbound
    cases hbound
    have hframe := Bind.property_keeps (Node.bindWithin_keeps levels) (.property source name kind)
      source name a₁
    rw [he] at hframe
    refine ⟨_, a₂, ?_, (Entered.agree_read hfresh hmem hne hexpr).inside h.left h.right And.left, hframe,
      Context.Frame.refl a₂⟩
    have hctx : BindM.context a₂ = (.ok a₂, a₂) := rfl
    refine (BindM.bind_of_ok hctx).trans ?_
    rw [ha.right.flattenedRead, h.right.flattenedRead, hread]
    rfl

include hfresh hentered h in
/-- The predicate of a quantifier, if its body agrees in all quantifiers. -/
theorem quantified [External] {levels : Nat} {body : Node}
    (hbody : ∀ {b₁ b₂}, Beside ctx d b₁ b₂ → Simulates (b₁.Within b₂) (fun _ => False)
      (Expr.Agree b₁ b₂ (StandsBeside ctx d slots b₁ b₂)) (body.bindWithin levels)
      (body.bindWithin levels))
    (name : String) (element : HostType) :
    Simulates (c₁.Within c₂) (fun _ => False) (Lambda.Agree (StandsBeside ctx d slots c₁ c₂))
      (BindM.withRangeVariable name element fun p => Bind.predicate (Node.bindWithin levels) body p)
      (BindM.withRangeVariable name element fun p => Bind.predicate (Node.bindWithin levels) body p) := by
  have hkeeps (p : Param) := Bind.predicate_keeps (Node.bindWithin_keeps levels) body p
  refine Simulates.withRangeVariable name element hkeeps hkeeps (fun hc => ?_)
    (fun {a₁ a₂ p₁ p₂} ha h₁ h₂ => ?_) fun {a₁ a₂} ha _ _ => ?_
  · rw [hc.left.scope, hc.right.scope, h.parallel.scope]
  · refine ⟨c₁.Within c₂, ha, ?_⟩
    refine ((h.corresponds hfresh hentered).simulation.predicate (hbody h) p₁ p₂).mono
      fun l₁ l₂ hl => ?_
    obtain ⟨rfl, rfl, he⟩ := hl
    rw [ha.left.scope] at h₁
    rw [ha.right.scope] at h₂
    exact ⟨he.type, fun v hV => he.eval (h.standsBeside_cons ⟨name, h₁, h₂⟩ .inl hV v), he.sound⟩
  · have hpush := (h.sameClause ha.left ha.right).push name element
    refine ⟨_, Context.Within.refl ha.depth, ?_⟩
    refine ((hpush.corresponds hfresh hentered).simulation.predicate (hbody hpush) _ _).mono
      fun l₁ l₂ hl => ?_
    obtain ⟨hp₁, hp₂, he⟩ := hl
    refine ⟨he.type, fun v hV => he.eval ?_, he.sound⟩
    rw [hp₁, hp₂]
    have hnew (c : Context) :
        Entries.get? (c.push name element).scope name = some (c.newParam name element) := by
      simp only [Context.push, Entries.get?_insert, if_true]
    refine hpush.standsBeside_cons ⟨name, hnew a₁, hnew a₂⟩ (fun hp => ?_) hV v
    rw [← ha.left.shared ha.right]
    exact Context.shared_push hp

include h in
/-- The predicate of a filtered count, if it does not name the root record. -/
theorem counted [External] {levels : Nat} {body : Node} {element : HostType}
    (hover : c₁.Over ctx.schema ctx.current.type) (hbody : body.Rootless ctx.schema element) :
    Simulates (c₁.Within c₂) (fun _ => False) (Lambda.Agree (StandsBeside ctx d slots c₁ c₂))
      (BindM.inChild element (Bind.filterLambda (Node.bindWithin levels) body))
      (BindM.inChild element (Bind.filterLambda (Node.bindWithin levels) body)) := by
  refine Simulates.inChild element fun {a₁ a₂} ha => ?_
  have hchild := (h.parallel.sameClause ha.left ha.right).child element
  have hroot : (Bind.filterLambda (Node.bindWithin levels) body).IgnoresRoot (a₁.derive element) := by
    intro c root hc
    have hc := ((hover.sameClause ha.left).derive element).sameClause hc
    rw [Bind.filterLambda_rootless (Node.bindWithin_keeps levels) (hbody.bindWithin levels) c root hc]
  refine ⟨_, Context.Within.refl ha.depth, ?_⟩
  refine ((hchild.filter hroot).forResults fun _ hfalse => hfalse.elim).mono fun l₁ l₂ hl => ?_
  obtain ⟨hp₁, hp₂, he⟩ := hl
  refine ⟨he.type, fun v hV => he.eval ⟨?_, fun p₁ p₂ hp => ?_⟩, he.sound⟩
  · rw [hp₁, hp₂, Context.lookup_cons, Context.lookup_cons, if_pos rfl, if_pos rfl]
  · obtain ⟨name, h₁, h₂⟩ := hp
    rw [hp₁, hp₂, Context.lookup_cons, Context.lookup_cons, if_neg (hchild.left.ne_current h₁),
      if_neg (hchild.right.ne_current h₂)]
    refine hV.2 _ _ ?_
    rw [← ha.left.shared ha.right]
    exact ⟨name, h₁, h₂⟩

include hfresh hentered hkeys hslots htaken in
/-- **Nodes agree over flattened records**, in quantifiers too, if their chains stay apart from those
that were flattened. -/
theorem simulates [External] {c₁ c₂ : Context} (h : Beside ctx d c₁ c₂) {node : Node}
    (hnode : node.Throughout (Distinct ctx chains taken)) (levels : Nat) :
    Simulates (c₁.Within c₂) (fun _ => False) (Expr.Agree c₁ c₂ (StandsBeside ctx d slots c₁ c₂))
      (node.bindWithin levels) (node.bindWithin levels) := by
  induction levels generalizing node c₁ c₂ with
  | zero => exact (h.corresponds hfresh hentered).noLevels node
  | succ levels ih =>
    have hcorr := h.corresponds hfresh hentered
    have hsim := hcorr.simulation
    obtain ⟨hhere, hparts⟩ := hnode
    have hpart {part : Node} (hp : part ∈ node.parts) {b₁ b₂ : Context} (hb : Beside ctx d b₁ b₂) :=
      ih hb (hparts part hp)
    have hover : c₁.Over ctx.schema ctx.current.type :=
      ⟨h.left.schema, by rw [h.left.current], h.left.flatteningSource.trans hfresh.flatteningSource,
        h.left.flattened.trans hfresh.flattened, h.left.computed.trans hfresh.computed⟩
    have hdefinition {source : Node} {name : String} {a₁ a₂ : Context} {definition : Node}
        (ha : c₁.Within c₂ a₁ a₂) (hd : Bind.computed? a₁ source name = some definition) : False := by
      unfold Bind.computed? at hd
      rw [ha.left.computed, hover.computed] at hd
      split at hd <;> cases hd
    refine hcorr.descend ?_
    cases node with
    | constant l type => exact hsim.literal l type
    | rangeVariable v => exact Simulates.reads fun hc => hsim.resolve v hc
    | property source name kind =>
      exact h.property hfresh hentered hkeys hslots htaken hhere (hpart (by simp [Node.parts]) h)
    | openProperty source name | openCollection source name =>
      exact hsim.openProperty name (hpart (by simp [Node.parts]) h)
        fun hc hd => (hdefinition hc hd).elim
    | binary op left right =>
      exact hsim.binary op (hpart (by simp [Node.parts]) h) (hpart (by simp [Node.parts]) h)
    | unary op operand => exact hsim.unary op (hpart (by simp [Node.parts]) h)
    | convert source type => exact hsim.convert type (hpart (by simp [Node.parts]) h)
    | call name args | resourceCall name args => exact hsim.call name fun arg ha => hpart ha h
    | any source v body =>
      exact hsim.anyItem (hpart (by simp [Node.parts]) h) v body fun b hb element =>
        h.quantified hfresh hentered (fun hc => hpart (by simp [Node.parts, hb]) hc) v.name element
    | all source v body =>
      exact hsim.allItems (hpart (by simp [Node.parts]) h) v body fun element =>
        h.quantified hfresh hentered (fun hc => hpart (by simp [Node.parts]) hc) v.name element
    | isIn probe items =>
      exact hsim.isIn (hpart (by simp [Node.parts]) h) (hpart (by simp [Node.parts]) h)
    | count source => exact hsim.count (hpart (by simp [Node.parts]) h)
    | countWhere source body v =>
      refine hsim.countOver (hpart (by simp [Node.parts]) h) body fun hc he hitem => ?_
      exact h.counted hover
        (hhere.counted source body v rfl _ _ levels _ _ (hover.sameClause hc.left) he hitem)
    | collectionCast source type => exact hsim.collectionCast type (hpart (by simp [Node.parts]) h)
    | resourceCast source type => exact hsim.resourceCast type (hpart (by simp [Node.parts]) h)
    | collectionConstant literals element => exact hsim.collectionConstant literals element
    | namedParameter | parameterAlias | entitySet | keyLookup | searchTerm => exact Simulates.fail _

end Beside

/-! ## The aggregation of a collection -/

/-- In the context of a top-level clause, all chains start from the record of the clause. -/
theorem isRecord_of_bind {ctx : Context} (hfresh : ctx.Fresh) {node : Node} {v : RangeVariable}
    {path : List String} {e : Expr} {c : Context} (hchain : node.chain? = some (v, path))
    (he : node.bind ctx = (.ok e, c)) : v.IsRecord := by
  have hnone : ∀ q, q ≠ [] → q <+: path → Entries.get? ctx.flattened (Node.pathKey q) = none := by
    intro q _ _
    rw [hfresh.flattened]
    rfl
  obtain ⟨s, hs, -⟩ := Node.bindWithin_chain hchain hnone he
  unfold Context.resolve at hs
  rw [hfresh.scope] at hs
  split_ifs at hs with hthis hit hroot
  · exact .inl hthis
  · exact .inr hit
  · exact .inr hit
  · cases hs

section Clause

variable {ctx : Context} (hfresh : ctx.Fresh) {chains : List String → Prop} {t : Transformation}
include hfresh

theorem chains_of_distinct {node : Node} {path : List String} {e : Expr} {c : Context}
    (hnode : node.Throughout (Distinct ctx chains (IsKeyOf t))) (hpath : node.path? = some path)
    (hne : path ≠ []) (he : node.bind ctx = (.ok e, c)) : chains path := by
  rw [Node.path?_eq_chain?] at hpath
  obtain ⟨⟨v, path⟩, hchain, rfl⟩ := Option.map_eq_some_iff.mp hpath
  cases hnode with
  | mk here _ => exact here.own v path hchain hne (isRecord_of_bind hfresh hchain he)

/-- At the beginning of a clause over flattened records, no variable is in scope. -/
theorem Entered.parallel {d : Context} {slots : List (String × String × Expr)} (hentered : Entered ctx d slots)
    (hid : ctx.current.id < ctx.nextId) (hroot : d.root = d.current) (hlt : d.current.id < d.nextId) :
    ctx.Parallel d :=
  Context.parallel_of_scope_nil hentered.schema.symm hentered.settings.symm hentered.computed.symm
    hfresh.scope (hentered.scope.trans hfresh.scope) ⟨hid, by rwa [hfresh.root]⟩ ⟨hlt, by rwa [hroot]⟩

/-- At the beginning of a clause over flattened records, nodes agree with those over the records, if
their chains stay apart. -/
theorem simulates_distinct [External]
    (hkeys : ∀ p q, chains p → chains q → Node.pathKey p = Node.pathKey q → p = q) {d : Context}
    {slots : List (String × String × Expr)} (hentered : Entered ctx d slots) (hparallel : ctx.Parallel d)
    (hslots : SlotsOf ctx chains slots)
    (htaken : ∀ s ∈ slots, IsKeyOf t s.1) {node : Node}
    (hnode : node.Throughout (Distinct ctx chains (IsKeyOf t))) :
    Simulates (ctx.Within d) (fun _ => False) (Expr.Agree ctx d (Stands ctx d slots)) node.bind
      node.bind := by
  have hbeside : Beside ctx d ctx d :=
    ⟨hparallel, ⟨rfl, rfl, rfl, rfl, rfl, rfl, rfl⟩, ⟨rfl, rfl, rfl, rfl, rfl, rfl, rfl⟩⟩
  -- no variable is in scope yet
  have hstands {env₁ env₂ : Env} (hV : Stands ctx d slots env₁ env₂) :
      StandsBeside ctx d slots ctx d env₁ env₂ := by
    refine ⟨hV, fun p₁ p₂ hp => ?_⟩
    obtain ⟨name, hp, -⟩ := hp
    rw [hfresh.scope] at hp
    cases hp
  refine (Node.bind_simulates hbeside.parallel.settings fun levels =>
    hbeside.simulates hfresh hentered hkeys hslots htaken hnode levels).mono fun e₁ e₂ he => ?_
  exact he.inside hbeside.left hbeside.right hstands

end Clause

/-! ## Chains from the items of quantifiers -/

theorem keys_of_bindPaths {ps : Entries Node} {bound : Entries Expr} {c c' : Context}
    (h : bindPaths ps c = (.ok bound, c')) : bound.map Prod.fst = ps.map Prod.fst := by
  induction ps generalizing bound c with
  | nil =>
    cases h
    rfl
  | cons p rest ih =>
    obtain ⟨e, c₁, -, h⟩ := BindM.exists_of_bind_eq_ok h
    obtain ⟨bound', c₂, hrest, h⟩ := BindM.exists_of_bind_eq_ok h
    cases h
    rw [List.map_cons, List.map_cons, ih hrest]

/-- What a transformation puts in place of chains has the keys of chains that it flattens. -/
theorem isKeyOf_of_flatten {t : Transformation} {source : Expr} {f : Flattening} {ctx d : Context}
    (h : t.flatten source ctx = (.ok (some f), d)) {key : String} {read : Expr}
    (hread : Entries.get? d.flattened key = some read) : IsKeyOf t key := by
  obtain ⟨-, hnone, -⟩ | ⟨-, bound, c, p, hpaths, rfl, rfl, -⟩ := Transformation.flatten_cases h
  · cases hnone
  obtain ⟨s, hs, heq⟩ := List.mem_map.mp (Entries.mem_of_get?_ofPairs hread)
  have hmem : key ∈ bound.map Prod.fst := by
    rw [← (Prod.mk.inj heq).1]
    exact List.mem_map.mpr ⟨_, mem_named hs, rfl⟩
  rw [keys_of_bindPaths hpaths] at hmem
  obtain ⟨⟨_, node⟩, hnode, rfl⟩ := List.mem_map.mp hmem
  exact ⟨node, hnode⟩

/-- **A chain from the item of a quantifier is bound to the members of the item**, over flattened
records too, if no part of it has the key of a chain that was flattened. -/
theorem bind_item_chain {t : Transformation} {source : Expr} {f : Flattening} {ctx d c c' : Context}
    (h : t.flatten source ctx = (.ok (some f), d)) (hc : d.SameRecord c) {node : Node}
    {v : RangeVariable} {path : List String} (hchain : node.chain? = some (v, path)) (hv : ¬ v.IsRecord)
    {p : Param} (hp : Entries.get? c.scope v.name = some p)
    (hother : ∀ q, q ≠ [] → q <+: path → ¬ IsKeyOf t (Node.pathKey q)) {levels : Nat} {e : Expr}
    (he : node.bindWithin levels c = (.ok e, c')) : path.foldlM c.memberAccess (.param p) = .ok e := by
  have hfree : ∀ q, q ≠ [] → q <+: path → Entries.get? c.flattened (Node.pathKey q) = none := by
    intro q hq hpre
    rw [hc.flattened, Option.eq_none_iff_forall_ne_some]
    intro read hread
    exact hother q hq hpre (isKeyOf_of_flatten h hread)
  obtain ⟨s, hs, hpath⟩ := Node.bindWithin_chain hchain hfree he
  obtain ⟨hthis, hit⟩ := not_or.mp hv
  rw [Context.resolve, if_neg hthis, if_neg hit, hp] at hs
  cases hs
  exact hpath

end Flattening

/-- **Flattening keeps the chains of quantifiers whose keys it does not take.** A chain from the item of
a quantifier over flattened records is bound to the members of the item, if no part of it has the key of
a chain that was flattened. In the context of a top-level clause, let a transformation group by and
aggregate expressions in which
* no chain from the item of a quantifier has the key of a chain that is flattened,
* different chains from the record of the clause have different keys,
* the predicate of a filtered count does not name the root record, and neither do the aggregates of
  related items;

and let a count of records have no input. If the transformation can be bound over the records, it can be
applied, and on every collection it gives what the aggregation over the records gives; if one fails, both
fail. -/
theorem flattening_preserves_quantifiers [External] {ctx : Context} {t : Transformation} (source : Expr) :
    (∀ {f : Flattening} {d c c' : Context} {node : Node} {v : RangeVariable} {path : List String}
      {p : Param} {levels : Nat} {e : Expr},
      t.flatten source ctx = (.ok (some f), d) → d.SameRecord c → node.chain? = some (v, path) →
        ¬ v.IsRecord → Entries.get? c.scope v.name = some p →
        (∀ q, q ≠ [] → q <+: path → ¬ Flattening.IsKeyOf t (Node.pathKey q)) →
        node.bindWithin levels c = (.ok e, c') → path.foldlM c.memberAccess (.param p) = .ok e) ∧
      ∀ {chains : List String → Prop} {bound : Transformation.BoundAggregation},
        ctx.Fresh → ctx.current.id < ctx.nextId →
        (∀ p q, chains p → chains q → Node.pathKey p = Node.pathKey q → p = q) →
        (∀ g ∈ t.grouping,
          g.All (Node.Throughout (Flattening.Distinct ctx chains (Flattening.IsKeyOf t)))) →
        (∀ a ∈ t.aggregates,
          a.OfClause ctx (Node.Throughout (Flattening.Distinct ctx chains (Flattening.IsKeyOf t)))) →
        (t.bindAggregation ctx).1 = .ok bound →
          ∃ e, (t.applyTo source ctx).1 = .ok e ∧
            (e.eval []).toOption = ((bound.overSource source).eval []).toOption := by
  refine ⟨fun h hc hchain hv hp hother he => Flattening.bind_item_chain h hc hchain hv hp hother he, ?_⟩
  intro chains bound hfresh hid hkeys hgrouping haggs hbound
  refine Flattening.exists_applied hfresh source hbound hgrouping (fun a ha => haggs _ ha)
    (fun hnode hpath hne he => Flattening.chains_of_distinct hfresh hnode hpath hne he)
    fun {slots c} hframe hslots htaken => ?_
  obtain ⟨hentered, hroot⟩ := Flattening.entered_flattenedContext hfresh hframe slots
  have hparallel := hentered.parallel hfresh hid hroot (Nat.lt_succ_self _)
  have hnodes (n : Node) (hn : n.Throughout (Flattening.Distinct ctx chains (Flattening.IsKeyOf t))) :=
    Flattening.simulates_distinct hfresh hkeys hentered hparallel hslots htaken hn
  exact ⟨hnodes, fun a ha => (haggs a ha).simulates hfresh hparallel hnodes⟩

/-! ### Sales by their lines -/

namespace Flattening.Distinct

variable {ctx : Context} {chains : List String → Prop} {taken : String → Prop} {node : Node}
  {v : RangeVariable} {path : List String}

theorem plain (hchain : node.chain? = none)
    (hcount : ∀ source body v, node ≠ .countWhere source body v) : Distinct ctx chains taken node where
  own v path h := by
    rw [hchain] at h
    cases h
  other v path h := by
    rw [hchain] at h
    cases h
  counted source body v h := absurd h (hcount source body v)

theorem ofRecord (hchain : node.chain? = some (v, path)) (hv : v.IsRecord)
    (h : path ≠ [] → chains path) : Distinct ctx chains taken node where
  own w q hq hne _ := by
    rw [hchain] at hq
    cases hq
    exact h hne
  other w q hq _ hw := by
    rw [hchain] at hq
    cases hq
    exact absurd hv hw
  counted source body w heq := by
    rw [heq] at hchain
    cases hchain

theorem ofItem (hchain : node.chain? = some (v, path)) (hv : ¬ v.IsRecord)
    (h : path ≠ [] → ¬ taken (Node.pathKey path)) : Distinct ctx chains taken node where
  own w q hq _ hw := by
    rw [hchain] at hq
    cases hq
    exact absurd hw hv
  other w q hq hne _ := by
    rw [hchain] at hq
    cases hq
    exact h hne
  counted source body w heq := by
    rw [heq] at hchain
    cases hchain

end Flattening.Distinct

/-- A line of a sale. -/
def itemVariable : RangeVariable := ⟨"line", .entity "Line" true⟩

/-- Some line satisfies a condition. -/
def someLine (body : Node) : Node :=
  .any (.property saleNode "Lines" .navigationCollection) itemVariable (some body)

/-- The quantity of a line. -/
def quantityNode : Node := .property (.rangeVariable itemVariable) "Qty" .single

/-- Some line has a quantity above one. -/
def manyNode : Node := someLine (.binary .gt quantityNode (.constant (.int32 1) none))

/-- Some line has a product whose price is above five. -/
def dearNode : Node :=
  someLine (.binary .gt
    (.property (.property (.rangeVariable itemVariable) "Product" .navigation) "Price" .single)
    (.constant (.int32 5) none))

/-- The price of the product and the quantities of the lines, summed up for each value of a node. -/
def totalsWithLinesBy (key : Node) : Transformation :=
  .groupBy [.mk "By" (some key) []]
    [.property ⟨.sum, some (.property (.property saleNode "Product" .navigation) "Price" .single), "Total"⟩,
      .entitySet (.property saleNode "Lines" .navigationCollection) "Lines"
        [.property ⟨.sum, some (.property (.rangeVariable lineVariable) "Qty" .single), "Quantity"⟩]]

theorem isKeyOf_totalsWithLinesBy {key : Node} {name : String}
    (h : Flattening.IsKeyOf (totalsWithLinesBy key) name) : name = Node.pathKey ["Product", "Price"] := by
  obtain ⟨node, hnode⟩ := h
  have hpaths : (Flattening.paths (totalsWithLinesBy key).aggregates).map Prod.fst =
      [Node.pathKey ["Product", "Price"]] := rfl
  have hmem := List.mem_map_of_mem (f := Prod.fst) hnode
  rw [hpaths] at hmem
  exact List.mem_singleton.mp hmem

theorem saleNode_isRecord : RangeVariable.IsRecord ⟨RangeVariable.itName, .entity "Sale" true⟩ :=
  .inr rfl

theorem itemVariable_not_isRecord : ¬ itemVariable.IsRecord := by
  unfold RangeVariable.IsRecord
  decide

theorem saleNode_distinct {taken : String → Prop} :
    saleNode.Throughout (Flattening.Distinct lineContext Node.PlainChain taken) :=
  .mk (.ofRecord rfl saleNode_isRecord fun h => absurd rfl h) (by simp [saleNode, Node.parts])

theorem saleLines_distinct {taken : String → Prop} :
    (Node.property saleNode "Lines" .navigationCollection).Throughout
      (Flattening.Distinct lineContext Node.PlainChain taken) := by
  have hlines : Node.PlainChain ["Lines"] := by
    unfold Node.PlainChain
    decide +kernel
  exact .mk (.ofRecord rfl saleNode_isRecord fun _ => hlines) (List.forall_mem_singleton.mpr saleNode_distinct)

/-- The nodes of the groups keep their chains apart, if those from a line do. -/
theorem totalsWithLinesBy_distinct {key : Node}
    (hkey : key.Throughout (Flattening.Distinct lineContext Node.PlainChain
      (Flattening.IsKeyOf (totalsWithLinesBy key)))) :
    (∀ g ∈ (totalsWithLinesBy key).grouping, g.All (Node.Throughout
      (Flattening.Distinct lineContext Node.PlainChain (Flattening.IsKeyOf (totalsWithLinesBy key))))) ∧
      ∀ a ∈ (totalsWithLinesBy key).aggregates, a.OfClause lineContext (Node.Throughout
        (Flattening.Distinct lineContext Node.PlainChain (Flattening.IsKeyOf (totalsWithLinesBy key)))) := by
  constructor
  · intro g hg
    obtain rfl := List.mem_singleton.mp hg
    refine .mk (fun e he => ?_) (by simp)
    cases he
    exact hkey
  · refine List.forall_mem_cons.mpr ⟨⟨fun n hn => ?_, fun hm => by cases hm⟩, List.forall_mem_singleton.mpr
      ⟨saleLines_distinct, fun c c' navigation element hc hbound hrelated a ha => ?_⟩⟩
    · cases hn
      have hplain : Node.PlainChain ["Product"] ∧ Node.PlainChain ["Product", "Price"] := by
        unfold Node.PlainChain
        decide +kernel
      refine .mk (.ofRecord rfl saleNode_isRecord fun _ => hplain.2) (List.forall_mem_singleton.mpr ?_)
      exact .mk (.ofRecord rfl saleNode_isRecord fun _ => hplain.1)
        (List.forall_mem_singleton.mpr saleNode_distinct)
    · have hfresh : lineContext.Fresh := ⟨rfl, rfl, rfl, rfl, rfl⟩
      have hnavigation : lineContext.pathExpr ["Lines"] = .ok navigation := hfresh.bindWithin_path hc rfl hbound
      obtain rfl : .record "Line" = element := by
        cases hnavigation
        exact Except.ok.inj hrelated
      obtain rfl := List.mem_singleton.mp ha
      refine .property fun n hn => ?_
      cases hn
      exact quantity_rootless

theorem quantity_not_isKeyOf : ¬ Flattening.IsKeyOf (totalsWithLinesBy manyNode) (Node.pathKey ["Qty"]) := by
  intro h
  have hname := isKeyOf_totalsWithLinesBy h
  revert hname
  decide

theorem manyNode_distinct : manyNode.Throughout (Flattening.Distinct lineContext Node.PlainChain
    (Flattening.IsKeyOf (totalsWithLinesBy manyNode))) := by
  refine .mk (.plain rfl (by simp [manyNode, someLine])) (List.forall_mem_cons.mpr ⟨?_, ?_⟩)
  · exact saleLines_distinct
  · refine List.forall_mem_singleton.mpr (.mk (.plain rfl (by simp)) (List.forall_mem_cons.mpr ⟨?_, ?_⟩))
    · refine .mk (.ofItem rfl itemVariable_not_isRecord fun _ => quantity_not_isKeyOf)
        (List.forall_mem_singleton.mpr ?_)
      exact .mk (.ofItem rfl itemVariable_not_isRecord fun h => absurd rfl h) (by simp [Node.parts])
    · exact List.forall_mem_singleton.mpr (.mk (.plain rfl (by simp)) (by simp [Node.parts]))

/-- The quantity of a line is that of the line, and sales are grouped by it, flattened or not. -/
theorem flattening_preserves_sales_by_quantity :
    (∃ f d e, (totalsWithLinesBy manyNode).flatten lineSales lineContext = (.ok (some f), d) ∧
      (quantityNode.bindWithin 2 (d.push "line" (.record "Line"))).1 = .ok e ∧
      ["Qty"].foldlM (d.push "line" (.record "Line")).memberAccess
        (.param (d.newParam "line" (.record "Line"))) = .ok e) ∧
    ∃ bound, ((totalsWithLinesBy manyNode).bindAggregation lineContext).1 = .ok bound ∧
      ∃ e, ((totalsWithLinesBy manyNode).applyTo lineSales lineContext).1 = .ok e ∧
        (e.eval []).toOption = ((bound.overSource lineSales).eval []).toOption := by
  constructor
  · have hflatten : ∃ f, (totalsWithLinesBy manyNode).flatten lineSales lineContext =
        (.ok (some f), ((totalsWithLinesBy manyNode).flatten lineSales lineContext).2) := ⟨_, rfl⟩
    have hbind : ∃ e, (quantityNode.bindWithin 2
        (((totalsWithLinesBy manyNode).flatten lineSales lineContext).2.push "line" (.record "Line"))).1 =
        .ok e := ⟨_, rfl⟩
    have hscope : ((totalsWithLinesBy manyNode).flatten lineSales lineContext).2.scope = [] := rfl
    obtain ⟨f, hf⟩ := hflatten
    obtain ⟨e, he⟩ := hbind
    generalize ((totalsWithLinesBy manyNode).flatten lineSales lineContext).2 = d at hf he hscope
    have hsame : d.SameRecord (d.push "line" (.record "Line")) := ⟨rfl, rfl, rfl, rfl, rfl, rfl, rfl⟩
    refine ⟨f, d, e, hf, he, ?_⟩
    refine (flattening_preserves_quantifiers lineSales).1 hf hsame rfl itemVariable_not_isRecord ?_
      (fun q hq hpre => ?_) (Prod.ext he rfl)
    · rw [Context.push, hscope]
      rfl
    · obtain rfl : q = ["Qty"] := by
        rcases List.prefix_cons_iff.mp hpre with rfl | ⟨rest, rfl, hrest⟩
        · exact absurd rfl hq
        · rw [List.prefix_nil.mp hrest]
      exact quantity_not_isKeyOf
  · have hok : ((totalsWithLinesBy manyNode).bindAggregation lineContext).1.toOption.isSome = true := by
      decide +kernel
    obtain ⟨bound, hbound⟩ := Option.isSome_iff_exists.mp hok
    have hbound := Outcome.toOption_eq_some.mp hbound
    obtain ⟨hgrouping, haggs⟩ := totalsWithLinesBy_distinct manyNode_distinct
    exact ⟨bound, hbound, (flattening_preserves_quantifiers lineSales).2 ⟨rfl, rfl, rfl, rfl, rfl⟩
      Nat.zero_lt_one Node.pathKey_injective hgrouping haggs hbound⟩

/-- Whether the first row was grouped under true. -/
def firstAnswer? (rows : Value) : Option Bool := do
  let row ← rows.asItems?.bind List.head?
  let key ← (row.member WrapperMember.groupByContainer.text).toOption
  match (key.slot "By").toOption with
  | some (.bool b) => some b
  | _ => none

/-- **A chain of a line is taken for the chain of the sale**: the price of the sale's own product is
read in place of that of a line, and the groups are others. -/
theorem flattening_confuses_items :
    lineContext.Fresh ∧
      ∃ bound e, ((totalsBy dearNode).bindAggregation lineContext).1 = .ok bound ∧
        ((totalsBy dearNode).applyTo lineSales lineContext).1 = .ok e ∧
        ((bound.overSource lineSales).eval []).toOption.bind firstAnswer? = some true ∧
        (e.eval []).toOption.bind firstAnswer? = some false := by
  have hplain : (((totalsBy dearNode).bindAggregation lineContext).1.toOption.bind fun bound =>
      ((bound.overSource lineSales).eval []).toOption.bind firstAnswer?) = some true := by decide +kernel
  have hflat : (((totalsBy dearNode).applyTo lineSales lineContext).1.toOption.bind fun e =>
      (e.eval []).toOption.bind firstAnswer?) = some false := by decide +kernel
  obtain ⟨bound, hbound, hplain⟩ := Option.bind_eq_some_iff.mp hplain
  obtain ⟨e, he, hflat⟩ := Option.bind_eq_some_iff.mp hflat
  exact ⟨⟨rfl, rfl, rfl, rfl, rfl⟩, bound, e, Outcome.toOption_eq_some.mp hbound,
    Outcome.toOption_eq_some.mp he, hplain, hflat⟩

end TypedQuery
