import TypedQuery.Proofs.Flattening
import TypedQuery.Proofs.GroupAgreement

/-!
# Aggregation of flattened records

An aggregation that is bound over flattened records gives the rows that it gives over the records
themselves. The values of a flattened record are computed before there are groups; if that fails, an
aggregate over the records fails, because each of the values is an input of one.

* `Flattening.BoundAgree.rows`: the rows of records and of flattened records.
* `Flattening.rows_fail`: without the values of flattened records there are no rows.
* `Flattening.exists_applied`: a transformation whose nodes and aggregates agree over flattened records.
* **`flattening_preserves_meaning`**: the aggregation of a collection, flattened or not.
-/

namespace TypedQuery

open BindM (Simulates)

/-! ## Keys of chains -/

namespace Text

theorem splitChars_of_not_mem {sep : Char} {cs : List Char} (h : sep ∉ cs) :
    splitChars sep cs = [cs] := by
  induction cs with
  | nil => rfl
  | cons c rest ih =>
    rw [List.mem_cons, not_or] at h
    rw [splitChars, ih h.2]
    simp [Ne.symm h.1]

theorem splitChars_ne_nil (sep : Char) (cs : List Char) : splitChars sep cs ≠ [] := by
  cases cs with
  | nil => simp [splitChars]
  | cons c rest =>
    rw [splitChars]
    split
    · simp
    · split_ifs <;> simp

theorem splitChars_append {sep : Char} {cs : List Char} (h : sep ∉ cs) (rest : List Char) :
    splitChars sep (cs ++ sep :: rest) = cs :: splitChars sep rest := by
  induction cs with
  | nil =>
    obtain ⟨piece, pieces, hpieces⟩ := List.exists_cons_of_ne_nil (splitChars_ne_nil sep rest)
    rw [List.nil_append, splitChars, hpieces]
    simp
  | cons c cs ih =>
    rw [List.mem_cons, not_or] at h
    rw [List.cons_append, splitChars, ih h.2]
    simp [Ne.symm h.1]

/-- A text falls apart into the pieces that it was joined of. -/
theorem splitChars_joinWith {sep : Char} {pieces : List String} (hne : pieces ≠ [])
    (h : ∀ piece ∈ pieces, sep ∉ piece.toList) :
    splitChars sep (joinWith (String.singleton sep) pieces).toList = pieces.map String.toList := by
  induction pieces with
  | nil => contradiction
  | cons piece rest ih =>
    have hpiece := h piece (by simp)
    cases rest with
    | nil => exact splitChars_of_not_mem hpiece
    | cons next rest =>
      have hjoined : (joinWith (String.singleton sep) (piece :: next :: rest)).toList =
          piece.toList ++ sep :: (joinWith (String.singleton sep) (next :: rest)).toList := by
        rw [joinWith]
        · simp
        · simp
      rw [hjoined, splitChars_append hpiece, ih (by simp) fun p hp => h p (List.mem_cons_of_mem _ hp)]
      rfl

end Text

/-- A chain of at least one property whose names are without the separator of keys. -/
def Node.PlainChain (path : List String) : Prop := path ≠ [] ∧ ∀ name ∈ path, '\\' ∉ name.toList

/-- A key falls apart into the names that it was made of. -/
theorem Node.splitChars_pathKey {path : List String} (h : Node.PlainChain path) :
    Text.splitChars '\\' (Node.pathKey path).toList = path.map String.toList := by
  have hsep : "\\" = String.singleton '\\' := rfl
  rw [Node.pathKey, hsep]
  exact Text.splitChars_joinWith h.1 h.2

/-- **Different chains have different keys**, if their names are without the separator. -/
theorem Node.pathKey_injective (p q : List String) (hp : Node.PlainChain p) (hq : Node.PlainChain q)
    (h : Node.pathKey p = Node.pathKey q) : p = q := by
  have hsplit : p.map String.toList = q.map String.toList := by
    rw [← Node.splitChars_pathKey hp, ← Node.splitChars_pathKey hq, h]
  exact List.map_injective_iff.mpr (fun _ _ h => String.toList_inj.mp h) hsplit

/-! ## Keys -/

/-- All expressions of a property to group by, and of its parts, satisfy a predicate. -/
inductive GroupingProperty.All (P : Node → Prop) : GroupingProperty → Prop
  | mk {name : String} {expression : Option Node} {children : List GroupingProperty}
    (hexpression : ∀ e, expression = some e → P e) (hchildren : ∀ g ∈ children, All P g) :
    All P (.mk name expression children)

section Keys

variable [External] {K : Context → Context → Prop} {E : Error → Prop} {c₁ c₂ : Context} {V : Env → Env → Prop}
  {P : Node → Prop}

/-- Slots have the same names, and expressions that agree. -/
abbrev SlotsAgree (c₁ c₂ : Context) (V : Env → Env → Prop) :
    List (String × Expr) → List (String × Expr) → Prop :=
  List.Forall₂ fun s₁ s₂ => s₁.1 = s₂.1 ∧ Expr.Agree c₁ c₂ V s₁.2 s₂.2

theorem Expr.agree_key {slots₁ slots₂ : List (String × Expr)} (h : SlotsAgree c₁ c₂ V slots₁ slots₂) :
    Expr.Agree c₁ c₂ V (.wrapper (.groupBy (.container slots₁)))
      (.wrapper (.groupBy (.container slots₂))) := by
  have hsound : (Expr.wrapper (.groupBy (.container slots₁))).Sound := by
    refine .wrapper fun m e hm => ?_
    cases m <;> cases hm
    exact .container fun s hs => (Outcome.forall₂_mem h hs).elim fun _ ht => ht.2.2.sound
  refine .of_eval hsound rfl rfl rfl rfl rfl rfl rfl fun hV => ?_
  simp only [Expr.eval, Wrapper.groupBy, Wrapper.empty, evalMember, evalSlots_agree hV h]

namespace GroupingProperty

mutual

theorem bindValue_simulates (hK : BindM.Stable K)
    (hP : ∀ n, P n → Simulates K E (Expr.Agree c₁ c₂ V) n.bind n.bind) :
    ∀ g : GroupingProperty, g.All P → Simulates K E (Expr.Agree c₁ c₂ V) (bindValue g) (bindValue g)
  | .mk _ expression children, h => by
    cases h with
    | mk hexpression hchildren =>
      unfold bindValue
      split
      · cases expression with
        | some e => exact hP e (hexpression e rfl)
        | none => exact Simulates.fail _
      · exact Simulates.bind hK (bindSlots_simulates hK hP children hchildren) fun _ _ hslots =>
          Simulates.pure (Expr.agree_key hslots)
termination_by structural g => g

theorem bindSlots_simulates (hK : BindM.Stable K)
    (hP : ∀ n, P n → Simulates K E (Expr.Agree c₁ c₂ V) n.bind n.bind) :
    ∀ gs : List GroupingProperty, (∀ g ∈ gs, g.All P) →
      Simulates K E (SlotsAgree c₁ c₂ V) (bindSlots gs) (bindSlots gs)
  | [], _ => Simulates.pure .nil
  | g :: rest, h => by
    unfold bindSlots
    refine Simulates.bind hK (bindValue_simulates hK hP g (h g (by simp))) fun _ _ he => ?_
    refine Simulates.bind hK (bindSlots_simulates hK hP rest fun g hg => h g (by simp [hg]))
      fun _ _ hrest => ?_
    exact Simulates.pure (.cons ⟨rfl, he⟩ hrest)
termination_by structural gs => gs

end

end GroupingProperty

end Keys

/-! ## Aggregates -/

/-- An aggregate of a property whose input satisfies a predicate; a count has no input. -/
def AggregateExpr.OfProperty (P : Node → Prop) : AggregateExpr → Prop
  | .property a => (∀ n, a.input = some n → P n) ∧ (a.method = .count → a.input = none)
  | .entitySet .. => False

namespace Flattening

variable [External]

/-- Flattened records stand for records one by one. -/
abbrev AllStand (ctx : Context) (slots : List (String × String × Expr)) :
    List Value → List Value → Prop :=
  List.Forall₂ fun item flat => StandsFor ctx slots flat item

/-- Functions of a group have the same value at a group of records and at that of flattened ones. -/
def RowAgree (ctx : Context) (slots : List (String × String × Expr)) (l₁ l₂ : Lambda) : Prop :=
  ∀ key items flats, AllStand ctx slots items flats →
    (l₁.invoke (.grouping key items)).toOption = (l₂.invoke (.grouping key flats)).toOption

section Aggregates

variable {ctx d : Context} {slots : List (String × String × Expr)} {P : Node → Prop}

/-- A group of records, and the group of the flattened records that stand for them. -/
theorem AllStand.sameGroup {items flats : List Value} (h : AllStand ctx slots items flats) (g₁ g₂ : Param)
    (key : Value) :
    ctx.SameGroup d (Stands ctx d slots) g₁ g₂ (Expr.groupEnv g₁ key items) (Expr.groupEnv g₂ key flats) :=
  ⟨key, items, flats, Expr.lookup_group, Expr.lookup_group, h.imp fun _ _ hv => hv.stands _ _⟩

theorem row_agree (t : Transformation) {g₁ g₂ : Param} {slots₁ slots₂ : List (String × Expr)}
    (h : Expr.SlotsAgreeOn ctx d (Stands ctx d slots) g₁ g₂ slots₁ slots₂) :
    RowAgree ctx slots ⟨g₁, aggregationExpr slots₁ (t.keyContainer? g₁)⟩
      ⟨g₂, aggregationExpr slots₂ (t.keyContainer? g₂)⟩ := by
  intro key items flats hstand
  refine aggregationExpr_agree _ _ h (hstand.sameGroup g₁ g₂ key) ?_
  rw [t.keyContainer_eval, t.keyContainer_eval]

theorem result_simulates {t : Transformation}
    (h : ∀ a ∈ t.aggregates, ∀ g₁ g₂, Simulates (ctx.Within d) (fun _ => False)
      (Expr.AgreeOn ctx d (Stands ctx d slots) g₁ g₂) (a.bind (.param g₁)) (a.bind (.param g₂))) :
    Simulates (ctx.Within d) (fun _ => False) (RowAgree ctx slots) t.bindResult t.bindResult := by
  refine Simulates.bind Context.Within.frame Simulates.context fun c₁ c₂ _ => ?_
  refine Simulates.bind Context.Within.frame (Simulates.fresh _ _ _ _) fun g₁ g₂ _ => ?_
  refine Simulates.bind Context.Within.frame
    (AggregateExpr.bindSlots_simulates fun a ha => h a ha g₁ g₂) fun _ _ hslots => ?_
  exact Simulates.pure (row_agree t hslots)

/-- Aggregations of records and of flattened records agree. -/
structure BoundAgree (ctx d : Context) (slots : List (String × String × Expr))
    (b₁ b₂ : Transformation.BoundAggregation) : Prop where
  left_param : b₁.key.param = ctx.current
  right_param : b₂.key.param = d.current
  key : Expr.Agree ctx d (Stands ctx d slots) b₁.key.body b₂.key.body
  row : RowAgree ctx slots b₁.result b₂.result

theorem key_simulates {t : Transformation}
    (hP : ∀ n, P n → Simulates (ctx.Within d) (fun _ => False) (Expr.Agree ctx d (Stands ctx d slots))
      n.bind n.bind) (h : ∀ g ∈ t.grouping, g.All P) :
    Simulates (ctx.Within d) (fun _ => False)
      (fun l₁ l₂ => l₁.param = ctx.current ∧ l₂.param = d.current ∧
        Expr.Agree ctx d (Stands ctx d slots) l₁.body l₂.body) t.bindKey t.bindKey := by
  unfold Transformation.bindKey
  have finish {e₁ e₂ : Expr} (he : Expr.Agree ctx d (Stands ctx d slots) e₁ e₂) :
      Simulates (ctx.Within d) (fun _ => False)
        (fun l₁ l₂ => l₁.param = ctx.current ∧ l₂.param = d.current ∧
          Expr.Agree ctx d (Stands ctx d slots) l₁.body l₂.body)
        (do return (⟨(← BindM.context).current, e₁⟩ : Lambda))
        (do return (⟨(← BindM.context).current, e₂⟩ : Lambda)) :=
    Simulates.bind Context.Within.frame Simulates.context fun _ _ hc =>
      Simulates.pure ⟨hc.left.current, hc.right.current, he⟩
  dsimp only
  split
  · refine Simulates.bind Context.Within.frame (Simulates.pure ?_) fun _ _ he => finish he
    refine .of_eval (.wrapper fun m e hm => ?_) rfl rfl rfl rfl rfl rfl rfl fun _ => rfl
    cases m <;> cases hm
  · refine Simulates.bind Context.Within.frame
      (GroupingProperty.bindSlots_simulates Context.Within.frame hP _ h) fun _ _ hslots => ?_
    exact Simulates.bind Context.Within.frame (Simulates.pure (Expr.agree_key hslots))
      fun _ _ he => finish he

theorem aggregation_simulates {t : Transformation}
    (hP : ∀ n, P n → Simulates (ctx.Within d) (fun _ => False) (Expr.Agree ctx d (Stands ctx d slots))
      n.bind n.bind) (hg : ∀ g ∈ t.grouping, g.All P)
    (ha : ∀ a ∈ t.aggregates, ∀ g₁ g₂, Simulates (ctx.Within d) (fun _ => False)
      (Expr.AgreeOn ctx d (Stands ctx d slots) g₁ g₂) (a.bind (.param g₁)) (a.bind (.param g₂))) :
    Simulates (ctx.Within d) (fun _ => False) (BoundAgree ctx d slots) t.bindAggregation
      t.bindAggregation := by
  unfold Transformation.bindAggregation
  split
  · refine Simulates.bind Context.Within.frame (key_simulates hP hg) fun _ _ hkey => ?_
    refine Simulates.bind Context.Within.frame (result_simulates ha) fun _ _ hrow => ?_
    exact Simulates.pure ⟨hkey.1, hkey.2.1, hkey.2.2, hrow⟩
  · exact Simulates.fail _

end Aggregates

/-- The rows of records are those of the flattened records that stand for them. -/
theorem BoundAgree.rows {ctx d : Context} {slots : List (String × String × Expr)}
    {b₁ b₂ : Transformation.BoundAggregation} (h : BoundAgree ctx d slots b₁ b₂)
    {items flats : List Value} (hstand : AllStand ctx slots items flats) :
    (b₁.rows items).toOption = (b₂.rows flats).toOption := by
  have hkey : ∀ v w, StandsFor ctx slots w v → b₁.key.invoke v = b₂.key.invoke w := by
    intro v w hvw
    unfold Lambda.invoke
    rw [h.left_param, h.right_param]
    exact h.key.eval (hvw.stands [] [])
  have hgroups := groupItems_related hstand hkey
  unfold Transformation.BoundAggregation.rows
  cases hg : groupItems b₁.key.invoke items with
  | error e =>
    rw [hg] at hgroups
    rw [hgroups trivial]
    rfl
  | ok groups =>
    rw [hg] at hgroups
    obtain ⟨groups', hg', hrel⟩ := hgroups.exists_ok
    rw [hg', Outcome.ok_bind, Outcome.ok_bind]
    refine Outcome.mapM_toOption_congr hrel fun g₁ g₂ hgg => ?_
    unfold Transformation.BoundAggregation.row
    rw [hgg.1]
    exact h.row _ _ _ hgg.2

end Flattening

/-! ## Flattened paths -/

namespace Flattening

/-- The key of a chain that a transformation flattens. -/
def IsKeyOf (t : Transformation) (key : String) : Prop := ∃ node, (key, node) ∈ paths t.aggregates

section Paths

variable [External] {ctx : Context} (hfresh : ctx.Fresh) {t : Transformation} {P : Node → Prop}
  {bound : Transformation.BoundAggregation} {after : Context}
  (hbound : t.bindAggregation ctx = (.ok bound, after))
  (hinputs : ∀ a, .property a ∈ t.aggregates → (AggregateExpr.property a).OfProperty P)
include hfresh hbound hinputs

/-- A path that aggregates reach is the input of an aggregate that is bound, so it is bound. -/
theorem exists_of_mem_paths {key : String} {node : Node} (h : (key, node) ∈ paths t.aggregates) :
    ∃ path e, node.path? = some path ∧ path ≠ [] ∧ key = Node.pathKey path ∧ P node ∧
      ctx.pathExpr path = .ok e ∧
      (∀ c, ctx.SameClause c → c.depth = ctx.depth → ∃ c', node.bind c = (.ok e, c')) ∧
      ∀ k items v, v ∈ items → (e.eval [(ctx.current.id, v)]).toOption = none →
        (bound.row ⟨k, items⟩).toOption = none := by
  obtain ⟨a, ha, hpathOf⟩ := mem_paths h
  obtain ⟨method, name, path, rfl, hpath, hne, hkey⟩ := pathOf?_eq_some hpathOf
  obtain ⟨hinput, hcount⟩ := hinputs _ ha
  have hmethod : method ≠ .count := fun hm => by simpa using hcount hm
  obtain ⟨_, c₁, c₂, g, slots, -, hf₁, hslots, hresult⟩ :=
    Transformation.exists_of_bindAggregation hbound
  obtain ⟨⟨_, slot⟩, hmem, -, c₃, c₄, hf₃, hslot⟩ :=
    Outcome.forall₂_mem (AggregateExpr.forall₂_of_bindSlots hslots) ha
  rw [AggregateExpr.bind] at hslot
  obtain ⟨_, e, c₅, hnode, he, hcombine⟩ := PropertyAggregate.exists_of_bind hmethod hslot
  cases hnode
  have hframe := hf₁.trans hf₃
  have hc₅ : ctx.SameClause c₅ := by
    have hkeeps := node.bind_keeps c₃
    rw [he] at hkeeps
    exact hframe.sameClause.frame hkeeps
  have hexpr := hfresh.bindWithin_path hframe.sameClause hpath he
  refine ⟨path, e, hpath, hne, hkey, hinput node rfl, hexpr, fun c hc hdepth => ?_, ?_⟩
  · refine hfresh.bind_path ⟨hframe.sameClause, hc, ?_⟩ hpath he
    rw [hframe.depth, hdepth]
  · intro k items v hv hfail
    -- the slot of the aggregate needs the value at every record of the group
    have hlocal : e.eval ((ctx.current.id, v) :: Expr.groupEnv g k items) =
        e.eval [(ctx.current.id, v)] :=
      (hfresh.pathExpr_agree hexpr).eval (by simp [Context.Fresh.SameCurrent])
    have hvalues : (PropertyAggregate.valuesIn (Expr.groupEnv g k items) ctx.current items e).toOption = none :=
      Outcome.mapM_toOption_eq_none hv (by rw [hlocal, hfail])
    rw [hc₅.current] at hcombine
    have hslotFails : (slot.eval (Expr.groupEnv g k items)).toOption = none := by
      rw [PropertyAggregate.combine_eval Expr.lookup_group hmethod hcombine, Outcome.toOption_bind, hvalues]
      rfl
    have hslotsFail := Expr.evalSlots_toOption_eq_none.mpr ⟨_, hmem, hslotFails⟩
    unfold Transformation.BoundAggregation.row Lambda.invoke
    rw [hresult, aggregationExpr_eval, hslotsFail]
    cases (Expr.evalMember (t.keyContainer? g) (Expr.groupEnv g k items)).toOption <;> rfl

end Paths

/-- Paths that are bound wherever they stand are bound one after the other. -/
theorem bindPaths_eq_ok {ctx : Context} (expr : Node → Expr) {ps : Entries Node}
    (h : ∀ p ∈ ps, ∀ c, ctx.SameClause c → c.depth = ctx.depth →
      ∃ c', p.2.bind c = (.ok (expr p.2), c')) {c : Context} (hc : ctx.SameClause c)
    (hdepth : c.depth = ctx.depth) :
    ∃ c', c.Frame c' ∧ bindPaths ps c = (.ok (ps.map fun p => (p.1, expr p.2)), c') := by
  induction ps generalizing c with
  | nil => exact ⟨c, Context.Frame.refl c, rfl⟩
  | cons p rest ih =>
    obtain ⟨key, node⟩ := p
    obtain ⟨c₁, h₁⟩ := h (key, node) (by simp) c hc hdepth
    have hframe := node.bind_keeps c
    rw [h₁] at hframe
    obtain ⟨c₂, hf₂, h₂⟩ := ih (fun p hp => h p (by simp [hp])) (hc.frame hframe)
      (hframe.depth.trans hdepth)
    refine ⟨c₂, hframe.trans hf₂, ?_⟩
    rw [bindPaths, BindM.bind_of_ok h₁, BindM.bind_of_ok h₂]
    rfl

/-- The values of a flattened record stand for those of the record. -/
theorem standsFor_of_eval [External] {ctx : Context} {bound : Entries Expr} {item : Value}
    {values : List (String × Value)}
    (h : Expr.evalSlots ((named bound).map fun s => (s.2.1, s.2.2)) [(ctx.current.id, item)]
      = .ok values) :
    StandsFor ctx (named bound) (.wrapper (.flattening item (.container values))) item := by
  obtain ⟨hnames, hvalues⟩ := Expr.evalSlots_eq_ok h
  refine ⟨values, rfl, fun s hs => ?_⟩
  obtain ⟨v, hv, hmem⟩ := hvalues (s.2.1, s.2.2) (List.mem_map.mpr ⟨s, hs, rfl⟩)
  refine ⟨v, hv, Entries.get?_of_mem ?_ hmem⟩
  rw [hnames, List.map_map]
  exact named_nodup bound

/-- The slots of paths that are bound, as one chain. -/
theorem chain_named {bound : Entries Expr} (h : bound ≠ []) :
    chain (named bound) = .container ((named bound).map fun s => (s.2.1, s.2.2)) := by
  unfold chain
  cases hn : named bound with
  | nil =>
    have hlength := congrArg List.length hn
    simp [named, h] at hlength
  | cons s rest => rfl

end Flattening

/-! ## The aggregation of a collection -/

namespace Transformation

variable [External]

/-- The context over flattened records, with the paths that were bound in a context. -/
def flattenedContext (c : Context) (bound : Entries Expr) : Context :=
  let p : Param := ⟨c.nextId, RangeVariable.itName, .wrapper .flattening⟩
  ({ c with nextId := c.nextId + 1 } : Context).enterFlattening p
    (Flattening.slotReads p (Flattening.named bound))

/-- The projection of a record to a flattened one. -/
def flatteningLambda (c : Context) (bound : Entries Expr) : Lambda :=
  ⟨c.current, .wrapper (.flattening c.currentExpr (Flattening.chain (Flattening.named bound)))⟩

/-- An aggregation that is not flattened is applied to the collection as it is. -/
theorem applyTo_of_plain {t : Transformation} {source : Expr} {c c' : Context}
    {bound : BoundAggregation}
    (hplain : (!t.mayFlatten c || (Flattening.paths t.aggregates).isEmpty) = true)
    (hbound : t.bindAggregation c = (.ok bound, c')) :
    (t.applyTo source c).1 = .ok (bound.overSource source) := by
  have hflatten : t.flatten source c = (.ok none, c) := by
    unfold flatten
    rw [BindM.bind_of_ok (show BindM.context c = (.ok c, c) from rfl)]
    simp only [hplain, if_true]
    rfl
  unfold applyTo BindM.allOrNothing
  rw [BindM.bind_of_ok hflatten, BindM.bind_of_ok hbound]
  rfl

/-- An aggregation that is flattened is bound over flattened records and applied to them. -/
theorem applyTo_of_flattened {t : Transformation} {source : Expr} {c c₁ c' : Context}
    {bound : BoundAggregation} {slots : Entries Expr}
    (hflat : (!t.mayFlatten c || (Flattening.paths t.aggregates).isEmpty) = false)
    (hpaths : Flattening.bindPaths (Flattening.paths t.aggregates) c = (.ok slots, c₁))
    (hbound : t.bindAggregation (flattenedContext c₁ slots) = (.ok bound, c')) :
    (t.applyTo source c).1 =
      .ok (bound.overSource (.mkCollection .select [source, (flatteningLambda c₁ slots).toExpr])) := by
  have hflatten : ∃ f, t.flatten source c = (.ok (some f), flattenedContext c₁ slots) ∧
      f.source = .mkCollection .select [source, (flatteningLambda c₁ slots).toExpr] := by
    unfold flatten
    rw [BindM.bind_of_ok (show BindM.context c = (.ok c, c) from rfl)]
    simp only [hflat, Bool.false_eq_true, if_false]
    rw [BindM.bind_of_ok hpaths]
    exact ⟨_, rfl, rfl⟩
  obtain ⟨f, hf, hsource⟩ := hflatten
  unfold applyTo BindM.allOrNothing
  rw [BindM.bind_of_ok hf]
  dsimp only
  rw [BindM.bind_of_ok hbound, hsource]
  rfl

/-- The projection evaluates the slots of a flattened record next to the record. -/
theorem flatteningLambda_eval {c : Context} (hsource : c.flatteningSource = none)
    {bound : Entries Expr} (hne : bound ≠ []) (env : Env) (item : Value) :
    (Expr.function (flatteningLambda c bound) env item).toOption =
      (Expr.evalSlots ((Flattening.named bound).map fun s => (s.2.1, s.2.2))
        ((c.current.id, item) :: env)).toOption.map fun values =>
          .wrapper (.flattening item (.container values)) := by
  have hcurrent := Context.currentExpr_of_none hsource
  unfold Expr.function flatteningLambda
  simp only [hcurrent, Flattening.chain_named hne, Wrapper.flattening, Wrapper.empty, Expr.eval, Expr.evalMember,
    List.lookup_cons, beq_self_eq_true, orFail, Outcome.ok_bind, Outcome.toOption_bind]
  cases (Expr.evalSlots ((Flattening.named bound).map fun s => (s.2.1, s.2.2))
    ((c.current.id, item) :: env)).toOption <;> rfl

end Transformation

section Meaning

variable [External] {ctx : Context} (hfresh : ctx.Fresh) {chains : List String → Prop}
  (hkeys : ∀ p q, chains p → chains q → Node.pathKey p = Node.pathKey q → p = q)
  {t : Transformation} (hgrouping : ∀ g ∈ t.grouping, g.All (Node.ScopeFree chains))
  (haggs : ∀ a ∈ t.aggregates, a.OfProperty (Node.ScopeFree chains))
  {bound : Transformation.BoundAggregation} {after : Context}
  (hbound : t.bindAggregation ctx = (.ok bound, after))

/-- The expression that a chain of properties is bound to, in a context where it is bound. -/
def Node.boundIn (ctx : Context) (node : Node) : Expr := (node.bind ctx).1.toOption.getD default

namespace Flattening

include hfresh hbound

omit [External] hfresh hbound in
theorem boundIn_eq {node : Node} {e : Expr}
    (h : ∀ c, ctx.SameClause c → c.depth = ctx.depth → ∃ c', node.bind c = (.ok e, c')) :
    node.boundIn ctx = e := by
  obtain ⟨c', hc'⟩ := h ctx (.refl ctx) rfl
  unfold Node.boundIn
  rw [hc']
  rfl

/-- The paths of an aggregation that is bound are bound, and what comes of them are its slots, if the
chains that are bound satisfy a predicate. -/
theorem exists_bindPaths {P : Node → Prop}
    (hinputs : ∀ a, .property a ∈ t.aggregates → (AggregateExpr.property a).OfProperty P)
    (hchain : ∀ {node path e c}, P node → node.path? = some path → path ≠ [] →
      node.bind ctx = (.ok e, c) → chains path) :
    ∃ slots c, ctx.Frame c ∧ bindPaths (paths t.aggregates) ctx = (.ok slots, c) ∧
      slots.length = (paths t.aggregates).length ∧ SlotsOf ctx chains (named slots) ∧
      (∀ s ∈ named slots, IsKeyOf t s.1) ∧
      ∀ s ∈ named slots, ∀ k items v, v ∈ items →
        (s.2.2.eval [(ctx.current.id, v)]).toOption = none → (bound.row ⟨k, items⟩).toOption = none := by
  have hexpr {key : String} {node : Node} (h : (key, node) ∈ paths t.aggregates) :=
    exists_of_mem_paths hfresh hbound hinputs h
  have hbinds : ∀ p ∈ paths t.aggregates, ∀ c, ctx.SameClause c → c.depth = ctx.depth →
      ∃ c', p.2.bind c = (.ok (p.2.boundIn ctx), c') := by
    intro p hp
    obtain ⟨path, e, -, -, -, -, -, hbinds, -⟩ := hexpr hp
    rw [boundIn_eq hbinds]
    exact hbinds
  obtain ⟨c, hframe, hpaths⟩ := bindPaths_eq_ok (Node.boundIn ctx) hbinds (.refl ctx) rfl
  refine ⟨_, c, hframe, hpaths, by simp, fun s hs => ?_, fun s hs => ?_, fun s hs => ?_⟩
  · obtain ⟨⟨key, node⟩, hp, heq⟩ := List.mem_map.mp (mem_named hs)
    obtain ⟨path, e, hpath, hne, hkey, hnode, he, hbinds, -⟩ := hexpr hp
    obtain ⟨hk, hv⟩ := Prod.mk.inj heq
    obtain ⟨c', hc'⟩ := hbinds ctx (.refl ctx) rfl
    refine ⟨path, hchain hnode hpath hne hc', hne, hk.symm.trans hkey, ?_⟩
    rw [← hv, boundIn_eq hbinds, he]
  · obtain ⟨⟨key, node⟩, hp, heq⟩ := List.mem_map.mp (mem_named hs)
    exact ⟨node, (Prod.mk.inj heq).1 ▸ hp⟩
  · obtain ⟨⟨key, node⟩, hp, heq⟩ := List.mem_map.mp (mem_named hs)
    obtain ⟨path, e, -, -, -, -, -, hbinds, hfails⟩ := hexpr hp
    obtain ⟨-, hv⟩ := Prod.mk.inj heq
    rw [← hv, boundIn_eq hbinds]
    exact hfails

end Flattening

/-- Without the value of a slot at an item there are no rows. -/
theorem Flattening.rows_fail {slots : List (String × String × Expr)}
    (hrow : ∀ s ∈ slots, ∀ k items v, v ∈ items →
      (s.2.2.eval [(ctx.current.id, v)]).toOption = none → (bound.row ⟨k, items⟩).toOption = none)
    {items : List Value} {v : Value} (hv : v ∈ items)
    (hfail : (Expr.evalSlots (slots.map fun s => (s.2.1, s.2.2)) [(ctx.current.id, v)]).toOption
      = none) : (bound.rows items).toOption = none := by
  obtain ⟨_, hmem, hfail⟩ := Expr.evalSlots_toOption_eq_none.mp hfail
  obtain ⟨s, hs, rfl⟩ := List.mem_map.mp hmem
  unfold Transformation.BoundAggregation.rows
  cases hg : groupItems bound.key.invoke items with
  | error e => rfl
  | ok groups =>
    obtain ⟨g, hgroup, hvg⟩ := (mem_of_groupItems hg v).mpr hv
    exact Outcome.mapM_toOption_eq_none hgroup (hrow s hs g.key g.items v hvg hfail)

/-- Flattened records give the rows of the records that they stand for; what cannot be flattened gives
none. -/
theorem Flattening.rows_flattened {d : Context} {slots : Entries Expr}
    {bound' : Transformation.BoundAggregation} {project : Value → Outcome Value}
    (hproject : ∀ item, (project item).toOption =
      (Expr.evalSlots ((named slots).map fun s => (s.2.1, s.2.2))
        [(ctx.current.id, item)]).toOption.map fun values =>
          .wrapper (.flattening item (.container values)))
    (hrow : ∀ s ∈ named slots, ∀ k items v, v ∈ items →
      (s.2.2.eval [(ctx.current.id, v)]).toOption = none → (bound.row ⟨k, items⟩).toOption = none)
    (hagree : BoundAgree ctx d (named slots) bound bound') (items : List Value) :
    ((items.mapM project).toOption.bind fun flats => (bound'.rows flats).toOption) =
      (bound.rows items).toOption := by
  cases hflats : (items.mapM project).toOption with
  | none =>
    obtain ⟨item, hitem, hfail⟩ := Outcome.mapM_toOption_exists hflats
    rw [hproject, Option.map_eq_none_iff] at hfail
    rw [rows_fail hrow hitem hfail]
    rfl
  | some flats =>
    have hstand : AllStand ctx (named slots) items flats := by
      refine (Outcome.forall₂_of_mapM (Outcome.toOption_eq_some.mp hflats)).imp ?_
      intro item flat hitem
      have hvalue := hproject item
      rw [hitem] at hvalue
      obtain ⟨values, hvalues, heq⟩ := Option.map_eq_some_iff.mp hvalue.symm
      rw [← heq]
      exact standsFor_of_eval (Outcome.toOption_eq_some.mp hvalues)
    exact (hagree.rows hstand).symm

/-- What is applied to the flattened records of a source gives what is applied to the records. -/
theorem Flattening.overSource_flattened {d c : Context} {slots : Entries Expr}
    {bound' : Transformation.BoundAggregation} (hsource : c.flatteningSource = none)
    (hcurrent : c.current = ctx.current) (hne : slots ≠ [])
    (hrow : ∀ s ∈ named slots, ∀ k items v, v ∈ items →
      (s.2.2.eval [(ctx.current.id, v)]).toOption = none → (bound.row ⟨k, items⟩).toOption = none)
    (hagree : BoundAgree ctx d (named slots) bound bound') (source : Expr) :
    ((bound'.overSource (.mkCollection .select
        [source, (Transformation.flatteningLambda c slots).toExpr])).eval []).toOption =
      ((bound.overSource source).eval []).toOption := by
  rw [Transformation.BoundAggregation.overSource_eval_toOption,
    Transformation.BoundAggregation.overSource_eval_toOption, Expr.eval_select, Option.bind_assoc]
  refine Option.bind_congr fun v _ => ?_
  rw [Option.bind_assoc]
  refine Option.bind_congr fun items _ => ?_
  have hproject (item : Value) := Transformation.flatteningLambda_eval hsource hne [] item
  rw [hcurrent] at hproject
  rw [← rows_flattened hproject hrow hagree items]
  cases (items.mapM (Expr.function (Transformation.flatteningLambda c slots) [])).toOption <;> rfl

omit [External] in
/-- What is flattened has a slot. -/
theorem Flattening.ne_nil_of_flattened {c : Context} {slots : Entries Expr}
    (hflat : (!t.mayFlatten c || (paths t.aggregates).isEmpty) = false)
    (hlength : slots.length = (paths t.aggregates).length) : slots ≠ [] := by
  rintro rfl
  rw [Bool.or_eq_false_iff, List.isEmpty_eq_false_iff_exists_mem] at hflat
  obtain ⟨p, hp⟩ := hflat.2
  rw [List.length_nil] at hlength
  simp [List.length_eq_zero_iff.mp hlength.symm] at hp

include hfresh

omit [External] in
/-- The context over flattened records that a transformation enters. -/
theorem Flattening.entered_flattenedContext {c : Context} (hframe : ctx.Frame c) (slots : Entries Expr) :
    Entered ctx (Transformation.flattenedContext c slots) (named slots) ∧
      (Transformation.flattenedContext c slots).root =
        (Transformation.flattenedContext c slots).current := by
  refine ⟨⟨hframe.schema, hframe.settings, hframe.scope, hframe.computed, ?_, rfl⟩, if_pos ?_⟩
  · exact congrArg (fun p : Param => some p.type) hframe.current
  · change c.root = c.current
    rw [hframe.root, hframe.current, hfresh.root]

/-- A transformation can be applied and gives what it gives over the records, if its nodes and its
aggregates agree over the flattened records. -/
theorem Flattening.exists_applied {P : Node → Prop} (source : Expr)
    (hbound : (t.bindAggregation ctx).1 = .ok bound) (hgrouping : ∀ g ∈ t.grouping, g.All P)
    (hinputs : ∀ a, .property a ∈ t.aggregates → (AggregateExpr.property a).OfProperty P)
    (hchain : ∀ {node path e c}, P node → node.path? = some path → path ≠ [] →
      node.bind ctx = (.ok e, c) → chains path)
    (hagree : ∀ {slots c}, ctx.Frame c → SlotsOf ctx chains (named slots) →
      (∀ s ∈ named slots, IsKeyOf t s.1) →
        let d := Transformation.flattenedContext c slots
        (∀ n, P n → Simulates (ctx.Within d) (fun _ => False)
          (Expr.Agree ctx d (Stands ctx d (named slots))) n.bind n.bind) ∧
        ∀ a ∈ t.aggregates, ∀ g₁ g₂, Simulates (ctx.Within d) (fun _ => False)
          (Expr.AgreeOn ctx d (Stands ctx d (named slots)) g₁ g₂) (a.bind (.param g₁)) (a.bind (.param g₂))) :
    ∃ e, (t.applyTo source ctx).1 = .ok e ∧
      (e.eval []).toOption = ((bound.overSource source).eval []).toOption := by
  have hbound : t.bindAggregation ctx = (.ok bound, (t.bindAggregation ctx).2) := Prod.ext hbound rfl
  cases hflat : !t.mayFlatten ctx || (paths t.aggregates).isEmpty with
  | true => exact ⟨_, Transformation.applyTo_of_plain hflat hbound, rfl⟩
  | false =>
    obtain ⟨slots, c, hframe, hpaths, hlength, hslots, htaken, hrow⟩ :=
      exists_bindPaths hfresh hbound hinputs hchain
    -- the aggregation is bound over flattened records, and agrees
    obtain ⟨hnodes, haggregates⟩ := hagree hframe hslots htaken
    obtain ⟨bound', _, hbound', hagree, -⟩ :=
      (aggregation_simulates hnodes hgrouping haggregates).ok ⟨.refl ctx, .refl _, hframe.depth.symm⟩ hbound
    exact ⟨_, Transformation.applyTo_of_flattened hflat hpaths hbound',
      overSource_flattened (hframe.flatteningSource.trans hfresh.flatteningSource) hframe.current
        (ne_nil_of_flattened hflat hlength) hrow hagree source⟩

include hkeys hgrouping haggs

/-- **Flattening preserves meaning.** In the context of a top-level clause, let a transformation
group by and aggregate expressions without nested scopes, in which different chains of properties
have different keys. If it can be bound over the records, it can be applied, and what it is applied
to a collection gives is what the aggregation over the records gives; if one fails, both fail. -/
theorem flattening_preserves_meaning (source : Expr) (hbound : (t.bindAggregation ctx).1 = .ok bound) :
    ∃ e, (t.applyTo source ctx).1 = .ok e ∧
      (e.eval []).toOption = ((bound.overSource source).eval []).toOption := by
  refine Flattening.exists_applied hfresh source hbound hgrouping (fun a ha => haggs _ ha)
    (fun hfree hpath hne _ => hfree.chain hpath hne) fun {slots c} hframe hslots _ => ?_
  have hentered := (Flattening.entered_flattenedContext hfresh hframe slots).1
  have hnodes (n : Node) (hn : n.ScopeFree chains) := hentered.simulates hfresh hkeys hslots hn
  refine ⟨hnodes, fun a ha g₁ g₂ => ?_⟩
  cases a with
  | entitySet => exact (haggs _ ha).elim
  | property p =>
    rw [AggregateExpr.bind, AggregateExpr.bind]
    exact PropertyAggregate.simulates hentered.schema.symm fun n hn => hnodes n ((haggs _ ha).1 n hn)

end Meaning

/-! ### Sales by a property -/

/-- Sales with a product, its price, and one more number. -/
def saleSchema (property : String) : Schema :=
  ⟨[("Sale", ⟨"Sale", [("Product", .record "Product"), (property, .int .int32)], none⟩),
    ("Product", ⟨"Product", [("Price", .int .int32)], none⟩)], [], []⟩

/-- The clause over sales. -/
def saleContext (property : String) : Context :=
  .initial (saleSchema property) {} (.record "Sale")

/-- The current sale. -/
def saleNode : Node := .rangeVariable ⟨RangeVariable.itName, .entity "Sale" true⟩

/-- The price of the product, summed up for each value of the number. -/
def salesBy (property : String) : Transformation :=
  .groupBy [.mk "By" (some (.property saleNode property .single)) []]
    [.property ⟨.sum, some (.property (.property saleNode "Product" .navigation) "Price" .single), "Total"⟩]

/-- One sale of a product. -/
def sales (property : String) : Expr :=
  .mkConst (.collection [.record "Sale"
    [("Product", .record "Product" [("Price", .int32 1)]), (property, .int32 7)]])

theorem saleContext_fresh (property : String) : (saleContext property).Fresh := ⟨rfl, rfl, rfl, rfl, rfl⟩

theorem salesBy_scopeFree {chains : List String → Prop} {property : String} (hby : chains [property])
    (hproduct : chains ["Product"]) (hprice : chains ["Product", "Price"]) :
    (∀ g ∈ (salesBy property).grouping, g.All (Node.ScopeFree chains)) ∧
      ∀ a ∈ (salesBy property).aggregates, a.OfProperty (Node.ScopeFree chains) := by
  constructor
  · intro g hg
    obtain rfl := List.mem_singleton.mp hg
    refine .mk (fun e he => ?_) (by simp)
    cases he
    exact .property (.rangeVariable _) fun path hpath => by cases hpath; exact hby
  · intro a ha
    obtain rfl := List.mem_singleton.mp ha
    refine ⟨fun n hn => ?_, fun hm => by cases hm⟩
    cases hn
    refine .property (.property (.rangeVariable _) fun path hpath => ?_) fun path hpath => ?_
    · cases hpath
      exact hproduct
    · cases hpath
      exact hprice

theorem flattening_preserves_sales_by_year :
    ∃ bound, ((salesBy "Year").bindAggregation (saleContext "Year")).1 = .ok bound ∧
      ∃ e, ((salesBy "Year").applyTo (sales "Year") (saleContext "Year")).1 = .ok e ∧
        (e.eval []).toOption = ((bound.overSource (sales "Year")).eval []).toOption := by
  have hplain : Node.PlainChain ["Year"] ∧ Node.PlainChain ["Product"] ∧
      Node.PlainChain ["Product", "Price"] := by
    unfold Node.PlainChain
    decide +kernel
  obtain ⟨hgrouping, haggs⟩ := salesBy_scopeFree hplain.1 hplain.2.1 hplain.2.2
  have hok : ((salesBy "Year").bindAggregation (saleContext "Year")).1.toOption.isSome = true := by
    decide +kernel
  obtain ⟨bound, hbound⟩ := Option.isSome_iff_exists.mp hok
  have hbound := Outcome.toOption_eq_some.mp hbound
  exact ⟨bound, hbound, flattening_preserves_meaning (saleContext_fresh "Year") Node.pathKey_injective
    hgrouping haggs (sales "Year") hbound⟩

/-- The number by which the first row was grouped. -/
def firstGroup? (rows : Value) : Option Int := do
  let row ← rows.asItems?.bind List.head?
  let key ← (row.member WrapperMember.groupByContainer.text).toOption
  let number ← (key.slot "By").toOption
  number.asInt?

/-- **A name with the separator in it is taken for a chain**: a property that is called like the key
of a flattened chain is read from the slot of that chain, and the groups are others. -/
theorem flattening_confuses_separator :
    (saleContext "Product\\Price").Fresh ∧
      (∀ g ∈ (salesBy "Product\\Price").grouping, g.All (Node.ScopeFree fun _ => True)) ∧
      (∀ a ∈ (salesBy "Product\\Price").aggregates, a.OfProperty (Node.ScopeFree fun _ => True)) ∧
      ∃ bound e,
        ((salesBy "Product\\Price").bindAggregation (saleContext "Product\\Price")).1 = .ok bound ∧
        ((salesBy "Product\\Price").applyTo (sales "Product\\Price")
          (saleContext "Product\\Price")).1 = .ok e ∧
        (e.eval []).toOption ≠ ((bound.overSource (sales "Product\\Price")).eval []).toOption := by
  have hok : ((salesBy "Product\\Price").bindAggregation
      (saleContext "Product\\Price")).1.toOption.isSome = true := by decide +kernel
  obtain ⟨bound, hbound⟩ := Option.isSome_iff_exists.mp hok
  have hok' : ((salesBy "Product\\Price").applyTo (sales "Product\\Price")
      (saleContext "Product\\Price")).1.toOption.isSome = true := by decide +kernel
  obtain ⟨e, he⟩ := Option.isSome_iff_exists.mp hok'
  obtain ⟨hgrouping, haggs⟩ :
      (∀ g ∈ (salesBy "Product\\Price").grouping, g.All (Node.ScopeFree fun _ => True)) ∧
      ∀ a ∈ (salesBy "Product\\Price").aggregates, a.OfProperty (Node.ScopeFree fun _ => True) :=
    salesBy_scopeFree trivial trivial trivial
  refine ⟨saleContext_fresh _, hgrouping, haggs, bound, e, Outcome.toOption_eq_some.mp hbound,
    Outcome.toOption_eq_some.mp he, fun heq => ?_⟩
  have hflat : (((salesBy "Product\\Price").applyTo (sales "Product\\Price")
      (saleContext "Product\\Price")).1.toOption.bind fun e =>
        (e.eval []).toOption.bind firstGroup?) = some 1 := by decide +kernel
  have hplain : (((salesBy "Product\\Price").bindAggregation
      (saleContext "Product\\Price")).1.toOption.bind fun bound =>
        ((bound.overSource (sales "Product\\Price")).eval []).toOption.bind firstGroup?) = some 7 := by
    decide +kernel
  rw [he] at hflat
  rw [hbound] at hplain
  simp only [Option.bind_some, heq] at hflat hplain
  rw [hflat] at hplain
  cases hplain

end TypedQuery
