import Mathlib.Data.List.Infix
import TypedQuery.Proofs.ClauseRuns
import TypedQuery.Proofs.ClosedAggregations

/-!
# Names of literals

A literal that is kept apart from its expression is referred to by a name with a number, which a context
counts up. Bound expressions are copied into guards, nested clauses count on from the number of the
clause around them, and a request that fails has used up numbers all the same; still no number is given
to two literals. A ledger of the literals that a context has kept apart gives each name its meaning: it
only gets longer, and every reference of an expression is an entry.

* `Expr.references`: the literals that an expression refers to; `Expr.RefersOnly`: they are all of a
  kind.
* `Ledger`, `Context.bookkeeping`: the demand that references are entries of a ledger.
* `Request.run_spec`: what one request does to the count and to the names.
* **`reference_names_are_unambiguous`**: all requests of a session.
-/

namespace TypedQuery

/-! ## References -/

/-- A literal that is referred to by a name. -/
structure Reference where
  name : String
  value : Value
  type : HostType

/-- Whether the reference is that to the schema, which is no literal. -/
def Reference.isSchema (r : Reference) : Bool :=
  match r.value with
  | .model _ => r.name == "model"
  | _ => false

namespace Expr

mutual

/-- The literals that an expression refers to. -/
def references (e : Expr) : List Reference :=
  match e with
  | .const .. | .param _ => []
  | .captured name v t => if Reference.isSchema ⟨name, v, t⟩ then [] else [⟨name, v, t⟩]
  | .member source _ => references source
  | .index source key => references source ++ references key
  | .binary _ left right _ _ => references left ++ references right
  | .unary _ x _ | .convert x _ | .typeIs x _ | .typeAs x _ => references x
  | .cond test ifTrue ifFalse _ => references test ++ (references ifTrue ++ references ifFalse)
  | .call _ args _ => referencesOfArgs args
  | .lambda _ body => references body
  | .container slots => referencesOfSlots slots
  | .wrapper ⟨_, g, c, s, i, m⟩ =>
    referencesOfMember g ++ (referencesOfMember c ++ (referencesOfMember s ++
      (referencesOfMember i ++ referencesOfMember m)))
  | .slot chain _ _ => references chain
termination_by structural e

/-- The literals that arguments refer to. -/
def referencesOfArgs (args : List Expr) : List Reference :=
  match args with
  | [] => []
  | e :: rest => references e ++ referencesOfArgs rest
termination_by structural args

/-- The literals that slots refer to. -/
def referencesOfSlots (slots : List (String × Expr)) : List Reference :=
  match slots with
  | [] => []
  | (_, e) :: rest => references e ++ referencesOfSlots rest
termination_by structural slots

/-- The literals that a member refers to, which may be missing. -/
def referencesOfMember (member : Option Expr) : List Reference :=
  match member with
  | none => []
  | some e => references e
termination_by structural member

end

/-- The literals that an expression refers to are all of a kind. -/
def RefersOnly (P : Reference → Prop) (e : Expr) : Prop := ∀ r ∈ e.references, P r

variable {P Q : Reference → Prop} {e x : Expr}

theorem RefersOnly.mono (h : e.RefersOnly P) (hPQ : ∀ r, P r → Q r) : e.RefersOnly Q :=
  fun r hr => hPQ r (h r hr)

theorem refersOnly_of_inline (h : e.references = []) : e.RefersOnly P := by
  unfold RefersOnly
  rw [h]
  nofun

theorem mem_referencesOfArgs {args : List Expr} {r : Reference} :
    r ∈ referencesOfArgs args ↔ ∃ e ∈ args, r ∈ e.references := by
  induction args with
  | nil => simp [referencesOfArgs]
  | cons e rest ih => simp [referencesOfArgs, ih]

theorem mem_referencesOfSlots {slots : List (String × Expr)} {r : Reference} :
    r ∈ referencesOfSlots slots ↔ ∃ s ∈ slots, r ∈ s.2.references := by
  induction slots with
  | nil => simp [referencesOfSlots]
  | cons s rest ih => simp [referencesOfSlots, ih]

theorem mem_referencesOfMember {member : Option Expr} {r : Reference} :
    r ∈ referencesOfMember member ↔ ∃ e, member = some e ∧ r ∈ e.references := by
  cases member <;> simp [referencesOfMember]

/-- Nodes refer to what the nodes inside refer to. -/
theorem refersOnly_inherited (P : Reference → Prop) : Inherited (RefersOnly P) where
  const _ _ := nofun
  model _ := nofun
  member _ h := h
  index hs hk := List.forall_mem_append.mpr ⟨hs, hk⟩
  binary _ _ _ hl hr := List.forall_mem_append.mpr ⟨hl, hr⟩
  unary _ _ h := h
  convert _ h := h
  typeIs _ h := h
  typeAs _ h := h
  cond _ hb hx hy := List.forall_mem_append.mpr ⟨hb, List.forall_mem_append.mpr ⟨hx, hy⟩⟩
  call _ _ h r hr := by
    obtain ⟨e, he, hr⟩ := mem_referencesOfArgs.mp hr
    exact h e he r hr

theorem refersOnly_captured {name : String} {v : Value} {t : HostType} (h : P ⟨name, v, t⟩) :
    (captured name v t).RefersOnly P := by
  unfold RefersOnly references
  split_ifs
  · exact List.forall_mem_nil _
  · exact List.forall_mem_singleton.mpr h

theorem refersOnly_container {slots : List (String × Expr)} (h : ∀ s ∈ slots, s.2.RefersOnly P) :
    (container slots).RefersOnly P := by
  intro r hr
  obtain ⟨s, hs, hr⟩ := mem_referencesOfSlots.mp hr
  exact h s hs r hr

theorem refersOnly_wrapper {w : Wrapper Expr} (h : ∀ m e, w.get? m = some e → e.RefersOnly P) :
    (wrapper w).RefersOnly P := by
  obtain ⟨kind, g, c, s, i, m⟩ := w
  have member {o : Option Expr} (ho : ∀ e, o = some e → e.RefersOnly P) :
      ∀ r ∈ referencesOfMember o, P r := by
    intro r hr
    obtain ⟨e, he, hr⟩ := mem_referencesOfMember.mp hr
    exact ho e he r hr
  simp only [RefersOnly, references, List.forall_mem_append]
  exact ⟨member (h .groupByContainer), member (h .container), member (h .source), member (h .inst),
    member (h .model)⟩

end Expr

/-- What flattening has put in place of properties refers to no literal. -/
def Context.ReadsInline (ctx : Context) : Prop :=
  ∀ key e, Entries.get? ctx.flattened key = some e → e.references = []

theorem Context.initial_readsInline (schema : Schema) (settings : Settings) (element : HostType) :
    (initial schema settings element).ReadsInline := fun _ _ h => by cases h

theorem Context.ReadsInline.read {ctx : Context} (h : ctx.ReadsInline) {node : Node} {e : Expr}
    (he : ctx.flattenedRead? node = some e) : e.references = [] := by
  obtain ⟨path, -, hget⟩ := Option.bind_eq_some_iff.mp he
  exact h _ e hget

/-- Slots are read without literals. -/
theorem Flattening.slotReads_inline {p : Param} {slots : List (String × String × Expr)} {key : String}
    {e : Expr} (h : Entries.get? (slotReads p slots) key = some e) : e.references = [] := by
  obtain ⟨slot, -, hslot⟩ := List.mem_map.mp (Entries.mem_of_get?_ofPairs h)
  rw [← (Prod.mk.inj hslot).2]
  rfl

/-! ## Ledgers -/

/-- The literals that have been kept apart, in order. -/
structure Ledger where
  literals : List (Value × HostType)

instance : Preorder Ledger where
  le w w₁ := w.literals <+: w₁.literals
  le_refl w := List.prefix_refl w.literals
  le_trans _ _ _ := List.IsPrefix.trans

namespace Ledger

/-- The name of the literal with a number. -/
def name (k : Nat) : String := "p" ++ toString k

/-- The reference is an entry, if the entries have numbers from a first one on. -/
def Has (first : Nat) (w : Ledger) (r : Reference) : Prop :=
  ∃ i, w.literals[i]? = some (r.value, r.type) ∧ r.name = name (first + i)

variable {first : Nat} {w w₁ : Ledger} {r r₁ : Reference}

theorem Has.mono (hw : w ≤ w₁) (h : w.Has first r) : w₁.Has first r := by
  obtain ⟨i, hi, hname⟩ := h
  have hlt : i < w.literals.length := (List.getElem?_eq_some_iff.mp hi).1
  obtain ⟨tail, htail⟩ : w.literals <+: w₁.literals := hw
  exact ⟨i, by rw [← htail, List.getElem?_append_left hlt, hi], hname⟩

/-- An entry has a number below the next one. -/
theorem Has.numbered (h : w.Has first r) :
    ∃ k, first ≤ k ∧ k < first + w.literals.length ∧ r.name = name k := by
  obtain ⟨i, hi, hname⟩ := h
  have hlt : i < w.literals.length := (List.getElem?_eq_some_iff.mp hi).1
  exact ⟨first + i, by omega, by omega, hname⟩

/-- The name of an entry tells the literal. -/
theorem Has.eq (h : w.Has first r) (h₁ : w.Has first r₁) (hname : r.name = r₁.name) : r = r₁ := by
  obtain ⟨i, hi, hr⟩ := h
  obtain ⟨j, hj, hr₁⟩ := h₁
  have hnames : name (first + i) = name (first + j) := by rw [← hr, hname, hr₁]
  have hij : first + i = first + j := Flattening.numbered_injective "p" hnames
  obtain rfl : i = j := by omega
  obtain ⟨hvalue, htype⟩ := Prod.mk.inj (Option.some.inj (hi.symm.trans hj))
  obtain ⟨n, v, t⟩ := r
  obtain ⟨n₁, v₁, t₁⟩ := r₁
  subst hname hvalue htype
  rfl

/-- The ledger with one more literal. -/
def add (w : Ledger) (v : Value) (t : HostType) : Ledger := ⟨w.literals ++ [(v, t)]⟩

theorem le_add (w : Ledger) (v : Value) (t : HostType) : w ≤ w.add v t := List.prefix_append _ _

theorem add_has (w : Ledger) (v : Value) (t : HostType) :
    (w.add v t).Has first ⟨name (first + w.literals.length), v, t⟩ :=
  ⟨w.literals.length, by simp [add], rfl⟩

end Ledger

/-! ## References are entries -/

/-- The demand that a run counts the literals that it keeps apart, and that expressions refer to these
or to literals that were given before. -/
def Context.bookkeeping (first : Nat) (given : Reference → Prop) : Demand Ledger where
  context w c := c.captures = first + w.literals.length ∧ c.ReadsInline
  error _ := True
  expr w e := e.RefersOnly fun r => given r ∨ w.Has first r

section Bookkeeping

variable {first : Nat} {given : Reference → Prop}

theorem BindM.constant_bookkeeping (w : Ledger) (v : Value) (t : HostType) :
    (Context.bookkeeping first given).Holds w (Context.bookkeeping first given).expr
      (BindM.constant v t) where
  run {w₁ c} _ hc := by
    obtain ⟨hcount, hreads⟩ := hc
    obtain ⟨-, -, h⟩ | h := BindM.constant_cases v t c <;> rw [h]
    · refine ⟨w₁.add v t, w₁.le_add v t, ⟨?_, hreads⟩, Expr.refersOnly_captured (.inr ?_)⟩
      · simp [Ledger.add, hcount, Nat.add_assoc]
      · rw [hcount]
        exact w₁.add_has v t
    · exact ⟨w₁, le_refl w₁, ⟨hcount, hreads⟩, nofun⟩

theorem Context.bookkeeping_lawful : (bookkeeping first given).Lawful where
  errors _ := trivial
  grows hw h := h.mono fun _ => Or.imp_right (Ledger.Has.mono hw)
  inherited _ := Expr.refersOnly_inherited _
  param _ _ := nofun
  lambda _ h := h
  constant := BindM.constant_bookkeeping
  push _ _ hc := hc
  pop _ hc := hc
  derive _ hc := ⟨hc.1, nofun⟩
  absorb {w w₁ c child} hw hc hchild := by
    -- the clause inside has counted on from the count of this one
    have hle : w.literals.length ≤ w₁.literals.length := List.IsPrefix.length_le hw
    refine ⟨?_, hc.2⟩
    show max c.captures child.captures = _
    rw [hc.1, hchild.1]
    omega

theorem Context.bookkeeping_ofClauses : (bookkeeping first given).OfClauses where
  toLawful := bookkeeping_lawful
  node _ := bookkeeping_lawful.node (fun _ => trivial) (fun hc => hc) (fun hc => hc)
    fun hc he => Expr.refersOnly_of_inline (hc.2.read he)
  container := Expr.refersOnly_container
  wrapper := Expr.refersOnly_wrapper
  slot _ _ h := h
  define _ hc := hc
  fresh _ hc := hc
  enter _ _ hc := ⟨hc.1, fun _ _ => Flattening.slotReads_inline⟩
  restore _ hc hafter := ⟨hafter.1, hc.2⟩

end Bookkeeping

/-! ## Requests -/

/-- What can be asked of a context: to bind a node, a clause or a transformation, alone or for a
collection. -/
inductive Request where
  | node (n : Node)
  | filter (clause : FilterClause)
  | orderBy (keys : List OrderKey)
  | compute (columns : List Column)
  | groupKey (t : Transformation)
  | groupResult (t : Transformation)
  | aggregation (t : Transformation)
  | filterOf (source : Expr) (clause : FilterClause)
  | computeOf (source : Expr) (columns : List Column)
  | flatteningOf (source : Expr) (t : Transformation)
  | aggregationOf (source : Expr) (t : Transformation)

namespace Request

variable [External]

/-- The collection that a request is for. -/
def source? : Request → Option Expr
  | .filterOf source _ | .computeOf source _ | .flatteningOf source _ | .aggregationOf source _ =>
    some source
  | _ => none

/-- The literals that the collection of a request refers to. -/
def given (q : Request) (r : Reference) : Prop := ∃ source ∈ q.source?, r ∈ source.references

/-- The expressions of a projection to flattened records. -/
def ofFlattening (f : Flattening) : List Expr :=
  f.source :: f.lambda.toExpr :: f.reads.map Prod.snd

/-- Does what is asked for: the expressions that it is bound to. -/
def run : Request → BindM (List Expr)
  | .node n => do return [← n.bind]
  | .filter clause => do return [(← clause.bind).toExpr]
  | .orderBy keys => do return (← OrderKey.bindAll keys).map fun key => key.lambda.toExpr
  | .compute columns => do return [(← Column.bindAll columns).toExpr]
  | .groupKey t => do return [(← t.bindKey).toExpr]
  | .groupResult t => do return [(← t.bindResult).toExpr]
  | .aggregation t => do
    let bound ← t.bindAggregation
    return [bound.key.toExpr, bound.result.toExpr]
  | .filterOf source clause => do return [← clause.applyTo source]
  | .computeOf source columns => do return [← Column.applyTo columns source]
  | .flatteningOf source t => do return (← t.flatten source).toList.flatMap ofFlattening
  | .aggregationOf source t => do return [← t.applyTo source]

/-- Every request meets a demand that clauses keep. -/
theorem run_holds {W : Type} [Preorder W] {D : Demand W} (h : D.OfClauses) {w : W} (q : Request)
    (hsource : ∀ source ∈ q.source?, D.expr w source) :
    D.Holds w (fun w es => ∀ e ∈ es, D.expr w e) q.run := by
  have one {x : BindM Expr} (hx : D.Holds w D.expr x) :
      D.Holds w (fun w es => ∀ e ∈ es, D.expr w e) (do return [← x]) :=
    hx.bind fun _ he => .pure fun hw => List.forall_mem_singleton.mpr (h.grows hw he)
  have lambda {x : BindM Lambda} (hx : D.Holds w (fun w l => D.expr w l.toExpr) x) :
      D.Holds w (fun w es => ∀ e ∈ es, D.expr w e) (do return [(← x).toExpr]) :=
    hx.bind fun _ hl => .pure fun hw => List.forall_mem_singleton.mpr (h.grows hw hl)
  cases q with
  | node n => exact one (h.node w n)
  | filter clause => exact lambda (h.filter clause)
  | orderBy keys =>
    refine (h.orderKeys keys).bind fun {w₁ ks} _ hks => .pure fun hw => ?_
    exact List.forall_mem_map.mpr fun k hk => h.grows hw (hks k hk)
  | compute columns => exact lambda (h.columns columns)
  | groupKey t => exact lambda (h.key t)
  | groupResult t => exact lambda (h.result t)
  | aggregation t =>
    refine (h.aggregation t).bind fun {w₁ bound} _ hbound => .pure fun hw => ?_
    exact List.forall_mem_cons.mpr
      ⟨h.grows hw hbound.1, List.forall_mem_singleton.mpr (h.grows hw hbound.2)⟩
  | filterOf source clause => exact one (h.filterTo clause (hsource source rfl))
  | computeOf source columns => exact one (h.columnsTo columns (hsource source rfl))
  | flatteningOf source t =>
    refine (h.flatten t (hsource source rfl)).bind fun {w₁ f} _ hf => .pure fun {w₂} hw e he => ?_
    obtain ⟨flat, hflat, he⟩ := List.mem_flatMap.mp he
    have hflat := Option.mem_toList.mp hflat
    have hprojection : ∀ e ∈ ofFlattening flat, D.expr w₁ e :=
      List.forall_mem_cons.mpr ⟨hf.source flat hflat, List.forall_mem_cons.mpr
        ⟨hf.lambda flat hflat, List.forall_mem_map.mpr (hf.reads flat hflat)⟩⟩
    exact h.grows hw (hprojection e he)
  | aggregationOf source t => exact one (h.applyTo t (hsource source rfl))

/-- The expressions that a request leads to; none if it fails. -/
def results (q : Request) (ctx : Context) : List Expr := (q.run ctx).1.toOption.getD []

/-- What a request does in a context that has kept a ledger of literals: the ledger gets longer, and the
expressions refer to the literals of the collection and to literals that are new in it. -/
theorem run_spec (q : Request) {ctx : Context} (hreads : ctx.ReadsInline) :
    ∃ new : Ledger, (q.run ctx).2.captures = ctx.captures + new.literals.length ∧
      (q.run ctx).2.ReadsInline ∧
      ∀ e ∈ q.results ctx, e.RefersOnly fun r => q.given r ∨ new.Has ctx.captures r := by
  have hsource (source : Expr) (hs : source ∈ q.source?) :
      (Context.bookkeeping ctx.captures q.given).expr ⟨[]⟩ source := fun r hr => .inl ⟨source, hs, hr⟩
  have hholds := q.run_holds Context.bookkeeping_ofClauses hsource
  obtain ⟨new, -, ⟨hcount, hreads⟩, hrun⟩ := hholds.run (le_refl _) ⟨rfl, hreads⟩
  refine ⟨new, hcount, hreads, ?_⟩
  unfold results
  cases hr : (q.run ctx).1 with
  | error e => nofun
  | ok es =>
    rw [hr] at hrun
    exact hrun

end Request

/-! ## Sessions -/

/-- Requests to a context one after the other, with all expressions that they led to. A collection that
a request is for refers to literals of the expressions before. -/
inductive Session [External] (start : Context) : List Expr → Context → Prop
  | start : Session start [] start
  | request {produced : List Expr} {ctx : Context} (h : Session start produced ctx) (q : Request)
      (hgiven : ∀ r, q.given r → ∃ e ∈ produced, r ∈ e.references) :
      Session start (produced ++ q.results ctx) (q.run ctx).2

/-- A session keeps a ledger, of which all references are entries. -/
theorem Session.ledger [External] {start ctx : Context} {produced : List Expr} (hstart : start.ReadsInline)
    (h : Session start produced ctx) :
    ∃ w : Ledger, ctx.captures = start.captures + w.literals.length ∧ ctx.ReadsInline ∧
      ∀ e ∈ produced, e.RefersOnly (w.Has start.captures) := by
  induction h with
  | start => exact ⟨⟨[]⟩, rfl, hstart, nofun⟩
  | @request produced ctx h q hgiven ih =>
    obtain ⟨w, hcount, hreads, hproduced⟩ := ih
    have hsource (source : Expr) (hs : source ∈ q.source?) :
        (Context.bookkeeping start.captures fun _ => False).expr w source := by
      intro r hr
      obtain ⟨e, he, hr⟩ := hgiven r ⟨source, hs, hr⟩
      exact .inr (hproduced e he r hr)
    obtain ⟨w₁, hw, ⟨hcount, hreads⟩, hrun⟩ :=
      (q.run_holds Context.bookkeeping_ofClauses hsource).run (le_refl w) ⟨hcount, hreads⟩
    refine ⟨w₁, hcount, hreads, fun e he => ?_⟩
    rcases List.mem_append.mp he with he | he
    · exact (hproduced e he).mono fun _ => Ledger.Has.mono hw
    · unfold Request.results at he
      cases hr : (q.run ctx).1 with
      | error err =>
        rw [hr] at he
        cases he
      | ok es =>
        rw [hr] at he hrun
        exact (hrun e he).mono fun _ hr => hr.resolve_left id

/-- **Names of literals are unambiguous.** In all expressions of a session, successful and failed
requests alike, references with one name have one value and one type. Each request counts on: the names
that it adds to those of its collection have numbers from the count before it to the count after it. -/
theorem reference_names_are_unambiguous [External] {start ctx : Context} {produced : List Expr}
    (hstart : start.ReadsInline) (h : Session start produced ctx) :
    (∀ e ∈ produced, ∀ e₁ ∈ produced, ∀ r ∈ e.references, ∀ r₁ ∈ e₁.references, r.name = r₁.name →
      r.value = r₁.value ∧ r.type = r₁.type) ∧
    ∀ q : Request, ctx.captures ≤ (q.run ctx).2.captures ∧
      ∀ e ∈ q.results ctx, ∀ r ∈ e.references, q.given r ∨
        ∃ k, ctx.captures ≤ k ∧ k < (q.run ctx).2.captures ∧ r.name = "p" ++ toString k := by
  obtain ⟨w, -, hreads, hproduced⟩ := h.ledger hstart
  refine ⟨fun e he e₁ he₁ r hr r₁ hr₁ hname => ?_, fun q => ?_⟩
  · obtain rfl := (hproduced e he r hr).eq (hproduced e₁ he₁ r₁ hr₁) hname
    exact ⟨rfl, rfl⟩
  · obtain ⟨new, hcount, -, hresults⟩ := q.run_spec hreads
    rw [hcount]
    exact ⟨Nat.le_add_right _ _, fun e he r hr => (hresults e he r hr).imp_right Ledger.Has.numbered⟩

/-! ### A session about lines -/

/-- The clause over sales, with literals kept apart. -/
def apartContext : Context := .initial lineSchema .parameterized (.record "Sale")

/-- Sales with a line above a quantity. -/
def withLineAbove (quantity : Int32) : FilterClause :=
  ⟨.binary .gt (linesAbove (.constant (.int32 quantity) none)) (.constant (.int32 0) none), lineVariable⟩

/-- Two columns, of which the second one does not exist. -/
def brokenColumns : List Column :=
  [⟨.constant (.int32 7) none, "Seven"⟩, ⟨.property saleNode "Nothing" .single, "Nothing"⟩]

/-- Quantities one higher, added up over the lines of all sales. -/
def raisedTotal : Transformation :=
  linesTotal (.binary .add lineQuantity (.constant (.int32 1) none))

/-- A filter with a clause over lines, columns that fail, and an aggregation with aggregates over lines:
the failure has used up a number, and the equal literals have different names. -/
theorem reference_names_about_lines :
    ∃ produced ctx, Session apartContext produced ctx ∧
      (produced.flatMap Expr.references).map Reference.name = ["p0", "p1", "p3"] ∧
      ∀ e ∈ produced, ∀ e₁ ∈ produced, ∀ r ∈ e.references, ∀ r₁ ∈ e₁.references, r.name = r₁.name →
        r.value = r₁.value ∧ r.type = r₁.type := by
  have hreads := Context.initial_readsInline lineSchema .parameterized (.record "Sale")
  have hstart : Session apartContext [] apartContext := .start
  have hfilter := hstart.request (.filter (withLineAbove 1)) nofun
  have hcolumns := hfilter.request (.compute brokenColumns) nofun
  have htotal := hcolumns.request (.aggregationOf lineSales raisedTotal) fun r ⟨_, hsource, hr⟩ => by
    cases hsource
    cases hr
  refine ⟨_, _, htotal, ?_, (reference_names_are_unambiguous hreads htotal).1⟩
  decide +kernel

end TypedQuery
