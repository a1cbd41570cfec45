import TypedQuery.Proofs.Parameterization
import TypedQuery.Proofs.ReferenceNames
import TypedQuery.Proofs.Rewriting

/-!
# References without guards

The one test of binding that tells a reference from a literal is that for guards. Where nulls are not
propagated there are no guards, and to keep literals apart is to give them names: with literals in the
place of its references, an expression is the one that is bound with literals inline.

* `Expr.inlined`: an expression with literals in the place of references.
* `Context.Unguarded.bindWithin`: a run with literals apart and a run with literals inline.
* `Node.bind_inline`: a run with literals inline refers to no literal.
* **`references_are_only_labels`**: the two together.
-/

namespace TypedQuery

open BindM (Relates)

/-! ## Literals in the place of references -/

/-- Puts literals in the place of references to them. -/
def Rewriting.inline : Rewriting where
  reference name v t := if Reference.isSchema ⟨name, v, t⟩ then .captured name v t else .const v t
  number id := id
  type_reference name v t := by split_ifs <;> rfl
  constValue_reference name v t := by split_ifs <;> rfl

namespace Expr

/-- The expression with literals in the place of references to them. -/
def inlined (e : Expr) : Expr := e.rewrite .inline

mutual

/-- An expression that refers to no literal stays as it is. -/
theorem rewrite_inline (e : Expr) (h : e.references = []) : e.rewrite .inline = e := by
  cases e with
  | const v t => rfl
  | captured name v t =>
    -- the one reference that is no literal is that to the schema
    unfold references at h
    split_ifs at h with hschema
    exact if_pos hschema
  | param p => rfl
  | member source m => simp only [rewrite, rewrite_inline source h]
  | index source key =>
    obtain ⟨hs, hk⟩ := List.append_eq_nil_iff.mp h
    simp only [rewrite, rewrite_inline source hs, rewrite_inline key hk]
  | binary op l r lifted t =>
    obtain ⟨hl, hr⟩ := List.append_eq_nil_iff.mp h
    simp only [rewrite, rewrite_inline l hl, rewrite_inline r hr]
  | unary op x t => simp only [rewrite, rewrite_inline x h]
  | convert x t => simp only [rewrite, rewrite_inline x h]
  | typeIs x t => simp only [rewrite, rewrite_inline x h]
  | typeAs x t => simp only [rewrite, rewrite_inline x h]
  | cond test a b t =>
    obtain ⟨htest, hbranches⟩ := List.append_eq_nil_iff.mp h
    obtain ⟨ha, hb⟩ := List.append_eq_nil_iff.mp hbranches
    simp only [rewrite, rewrite_inline test htest, rewrite_inline a ha, rewrite_inline b hb]
  | call m args t => simp only [rewrite, rewriteArgs_inline args h]
  | lambda params body =>
    have hparams : params.map (Param.mapId Rewriting.inline.number) = params := List.map_id _
    simp only [rewrite, hparams, rewrite_inline body h]
  | container slots => simp only [rewrite, rewriteSlots_inline slots h]
  | wrapper w =>
    obtain ⟨kind, g, c, s, i, m⟩ := w
    obtain ⟨hg, h⟩ := List.append_eq_nil_iff.mp h
    obtain ⟨hc, h⟩ := List.append_eq_nil_iff.mp h
    obtain ⟨hs, h⟩ := List.append_eq_nil_iff.mp h
    obtain ⟨hi, hm⟩ := List.append_eq_nil_iff.mp h
    simp only [rewrite, rewriteMember_inline g hg, rewriteMember_inline c hc, rewriteMember_inline s hs,
      rewriteMember_inline i hi, rewriteMember_inline m hm]
  | slot chain name t => simp only [rewrite, rewrite_inline chain h]
termination_by structural e

theorem rewriteArgs_inline (args : List Expr) (h : referencesOfArgs args = []) :
    rewriteArgs .inline args = args := by
  cases args with
  | nil => rfl
  | cons e rest =>
    obtain ⟨he, hrest⟩ := List.append_eq_nil_iff.mp h
    simp only [rewriteArgs, rewrite_inline e he, rewriteArgs_inline rest hrest]
termination_by structural args

theorem rewriteSlots_inline (slots : List (String × Expr)) (h : referencesOfSlots slots = []) :
    rewriteSlots .inline slots = slots := by
  cases slots with
  | nil => rfl
  | cons s rest =>
    obtain ⟨name, e⟩ := s
    obtain ⟨he, hrest⟩ := List.append_eq_nil_iff.mp h
    simp only [rewriteSlots, rewrite_inline e he, rewriteSlots_inline rest hrest]
termination_by structural slots

theorem rewriteMember_inline (member : Option Expr) (h : referencesOfMember member = []) :
    rewriteMember .inline member = member := by
  cases member with
  | none => rfl
  | some e => simp only [rewriteMember, rewrite_inline e h]
termination_by structural member

end

theorem inlined_eq_self {e : Expr} (h : e.references = []) : e.inlined = e := rewrite_inline e h

end Expr

/-! ## Runs without guards -/

/-- The name of a literal is not that of the schema. -/
theorem Ledger.name_ne_model (k : Nat) : name k ≠ "model" := by
  intro h
  have hchars := congrArg String.toList h
  simp [name] at hchars

/-- A reference that binding makes is replaced by its literal. -/
theorem Rewriting.inline_reference (k : Nat) (v : Value) (t : HostType) :
    Rewriting.inline.reference (Ledger.name k) v t = .const v t := by
  refine if_neg fun h => ?_
  unfold Reference.isSchema at h
  split at h
  · exact Ledger.name_ne_model k (by simpa using h)
  · cases h

/-- The second context binds literals inline where the first keeps them apart; neither propagates
nulls. -/
structure Context.Unguarded (c₁ c₂ : Context) : Prop where
  parameterizeConstants : c₁.settings.parameterizeConstants = true
  nullPropagation : c₁.settings.nullPropagation = false
  eq : c₂ = { c₁ with
    settings := { c₁.settings with parameterizeConstants := false }, captures := c₂.captures }

namespace Context.Unguarded

/-- The expressions become the same with literals in the place of references. -/
abbrev Same : Expr → Expr → Prop := Expr.Matches .inline .inline

theorem same_refl (e : Expr) : Same e e := ⟨rfl, rfl⟩

theorem congruence {c₁ c₂ : Context} (h : Unguarded c₁ c₂) : Congruence c₁ c₂ Same := by
  have hnull : c₂.settings.nullPropagation = c₁.settings.nullPropagation := by rw [h.eq]
  refine Expr.Matches.congruence (by rw [h.eq]) hnull.symm (fun {e₁ e₂} _ => ?_) fun _ => rfl
  unfold Context.needsGuard
  simp only [hnull, h.nullPropagation, Bool.false_and]

/-- A literal is bound to a reference in the first context and inline in the second. -/
theorem constant {E : Error → Prop} (v : Value) (t : HostType) :
    Relates Unguarded E Eq Same (BindM.constant v t) (BindM.constant v t) where
  ok {c₁ c₂ a c₁'} hc hx := by
    refine ⟨_, _, BindM.constant_inline v t (by rw [hc.eq]), ?_⟩
    obtain ⟨-, hnull, h₁⟩ | h₁ := BindM.constant_cases v t c₁
    · cases hx.symm.trans h₁
      refine ⟨⟨Rewriting.inline_reference c₁.captures v t, ?_⟩, hc.parameterizeConstants, hc.nullPropagation, hc.eq⟩
      cases v <;> first | rfl | cases hnull
    · cases hx.symm.trans h₁
      exact ⟨same_refl _, hc⟩
  error _ hx _ := absurd hx BindM.constant_ne_error

theorem aligned : Aligned Unguarded :=
  .of_settings (fun s => s.parameterizeConstants = true ∧ s.nullPropagation = false)
    (fun s => { s with parameterizeConstants := false })
    fun _ _ => ⟨fun h => ⟨⟨h.parameterizeConstants, h.nullPropagation⟩, h.eq⟩, fun h => ⟨h.1.1, h.1.2, h.2⟩⟩

/-- **Without guards, a run with literals inline does what a run with literals apart does.** -/
theorem bindWithin (levels : Nat) (node : Node) :
    Relates Unguarded (fun _ => True) Eq Same (node.bindWithin levels) (node.bindWithin levels) := by
  induction levels generalizing node with
  | zero =>
    refine Relates.reads (fun _ => rfl) fun hc => ?_
    rw [hc.eq]
    exact Follows.error _
  | succ levels ih =>
    have rules : Rules Unguarded (fun _ => True) Eq Same Same _ :=
      Expr.Matches.rules (fun hc => hc.congruence)
        (fun v hc => by
          rw [hc.eq]
          exact (Follows.eq_refl _).mono fun _ _ he => he ▸ same_refl _) constant
    refine Relates.descend (fun _ => rfl) ?_ (fun hc => by rw [hc.eq]) (fun hc => by rw [hc.eq])
      aligned.deeper aligned.shallower
    exact rules.alignedStep aligned same_refl
      (fun hparam hbody => Expr.Matches.toExpr (by rw [hparam]) hbody) (fun node => ih node) node

end Context.Unguarded

/-! ## Runs with literals inline -/

/-- The demand that a run with literals inline refers to no literal. -/
def Context.inlineOnly : Demand Stage where
  context _ c := c.settings.parameterizeConstants = false ∧ c.ReadsInline
  error _ := True
  expr _ e := e.RefersOnly fun _ => False

theorem Context.inlineOnly_lawful : inlineOnly.Lawful where
  errors _ := trivial
  grows _ h := h
  inherited _ := Expr.refersOnly_inherited _
  param _ _ := nofun
  lambda _ h := h
  constant _ v t := ⟨fun {_ c} _ hc => by
    rw [BindM.constant_inline v t hc.1]
    exact ⟨.any, le_refl _, hc, nofun⟩⟩
  push _ _ hc := hc
  pop _ hc := hc
  derive _ hc := ⟨hc.1, nofun⟩
  absorb _ hc _ := hc

/-- A node that is bound with literals inline refers to no literal. -/
theorem Node.bind_inline {node : Node} {ctx : Context} {e : Expr}
    (hinline : ctx.settings.parameterizeConstants = false) (hreads : ctx.ReadsInline)
    (he : (node.bind ctx).1 = .ok e) : e.references = [] := by
  have hnode : Context.inlineOnly.Holds .any Context.inlineOnly.expr node.bind :=
    Context.inlineOnly_lawful.node (fun _ => trivial) (fun hc => hc) (fun hc => hc)
      (fun hc he => Expr.refersOnly_of_inline (hc.2.read he)) node
  obtain ⟨_, -, -, hrun⟩ := hnode.run (le_refl _) ⟨hinline, hreads⟩
  rw [he] at hrun
  exact List.eq_nil_iff_forall_not_mem.mpr hrun

/-- **References are only labels.** Let a context not propagate nulls. A node is bound with literals
apart if and only if it is bound with literals inline, or else it fails with the same error in both
cases. The two expressions have the same static type, and become the same with literals in the place of
references; where flattening has not put a reference in the place of a property, the second one is the
first one with literals in the place of references. -/
theorem references_are_only_labels {ctx : Context} (hnull : ctx.settings.nullPropagation = false)
    (node : Node) :
    (∀ e₁, (node.bind (ctx.parameterized true)).1 = .ok e₁ →
      ∃ e₂, (node.bind (ctx.parameterized false)).1 = .ok e₂ ∧ e₁.type = e₂.type ∧
        e₁.inlined = e₂.inlined ∧ (ctx.ReadsInline → e₂ = e₁.inlined)) ∧
    ∀ error, (node.bind (ctx.parameterized true)).1 = .error error →
      (node.bind (ctx.parameterized false)).1 = .error error := by
  have hc : (ctx.parameterized true).Unguarded (ctx.parameterized false) := ⟨rfl, hnull, rfl⟩
  have hrun := Context.Unguarded.bindWithin (ctx.parameterized true).levelsLeft node
  refine ⟨fun e₁ he₁ => ?_, fun error herror => ?_⟩
  · obtain ⟨e₂, c₂, he₂, hsame, -⟩ := hrun.ok hc (Prod.ext he₁ rfl)
    have he₂ : (node.bind (ctx.parameterized false)).1 = .ok e₂ := congrArg Prod.fst he₂
    refine ⟨e₂, he₂, hsame.type, hsame.rewrite, fun hreads => ?_⟩
    have hreads : (ctx.parameterized false).ReadsInline := hreads
    have hinline : e₂.inlined = e₂ := Expr.inlined_eq_self (Node.bind_inline rfl hreads he₂)
    exact hinline.symm.trans hsame.rewrite.symm
  · obtain ⟨_, c₂, he₂, rfl⟩ := hrun.error hc (Prod.ext herror rfl) trivial
    exact congrArg Prod.fst he₂

/-- The clause over items, without null propagation. -/
def unguardedContext : Context := .initial itemSchema .withoutNullPropagation (.record "Item")

/-- The colours that are looked for are kept apart: the node refers to a collection and two numbers, and
is the one with literals inline but for that. -/
theorem references_are_only_labels_of_scarce :
    ∃ e, (scarceNode.bind (unguardedContext.parameterized true)).1 = .ok e ∧
      e.references.map Reference.name = ["p0", "p1", "p2"] ∧
      (scarceNode.bind (unguardedContext.parameterized false)).1 = .ok e.inlined := by
  have hok : ((scarceNode.bind (unguardedContext.parameterized true)).1.toOption.map fun e =>
      e.references.map Reference.name) = some ["p0", "p1", "p2"] := by decide +kernel
  obtain ⟨e, he, hnames⟩ := Option.map_eq_some_iff.mp hok
  have he := Outcome.toOption_eq_some.mp he
  obtain ⟨e₂, he₂, -, -, hlabels⟩ := (references_are_only_labels rfl scarceNode).1 e he
  rw [hlabels (Context.initial_readsInline _ _ _)] at he₂
  exact ⟨e, he, hnames, he₂⟩

end TypedQuery
