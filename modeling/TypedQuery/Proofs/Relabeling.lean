import TypedQuery.Proofs.Locality

/-!
# Binding but for numbers and names

Two runs of binding in one clause, whose counters have grown apart, differ in the numbers that they
give to parameters and in the names that they give to references to literals. The tests of binding see
neither: the second run meets the same types, the same guards and the same variables, and fails where
the first one does.

* `Expr.relabel`: an expression but for numbers and names; `Expr.text_relabel`: its text.
* `Error.Repeats`: errors that differ at most in the names of references that they quote.
* `Context.Again`: the contexts of two runs of one clause.
* **`Context.Again.bindWithin`**: nodes in such contexts.
-/

namespace TypedQuery

open BindM (Relates Keeps)

/-! ## Expressions but for numbers and names -/

/-- The parameter without its number. -/
def Param.unnumbered (p : Param) : Param := { p with id := 0 }

namespace Expr

mutual

/-- The expression without the numbers of its parameters, and with other names for references. -/
def relabel (f : String → String) (e : Expr) : Expr :=
  match e with
  | .const v t => .const v t
  | .captured name v t => .captured (f name) v t
  | .param p => .param p.unnumbered
  | .member source m => .member (relabel f source) m
  | .index source key => .index (relabel f source) (relabel f key)
  | .binary op l r lifted t => .binary op (relabel f l) (relabel f r) lifted t
  | .unary op x t => .unary op (relabel f x) t
  | .convert x t => .convert (relabel f x) t
  | .typeIs x t => .typeIs (relabel f x) t
  | .typeAs x t => .typeAs (relabel f x) t
  | .cond test a b t => .cond (relabel f test) (relabel f a) (relabel f b) t
  | .call m args t => .call m (relabelArgs f args) t
  | .lambda params body => .lambda (params.map Param.unnumbered) (relabel f body)
  | .container slots => .container (relabelSlots f slots)
  | .wrapper ⟨kind, g, c, s, i, m⟩ =>
    .wrapper ⟨kind, relabelMember f g, relabelMember f c, relabelMember f s, relabelMember f i,
      relabelMember f m⟩
  | .slot chain name t => .slot (relabel f chain) name t
termination_by structural e

/-- Arguments without the numbers of parameters. -/
def relabelArgs (f : String → String) (args : List Expr) : List Expr :=
  match args with
  | [] => []
  | e :: rest => relabel f e :: relabelArgs f rest
termination_by structural args

/-- Slots without the numbers of parameters. -/
def relabelSlots (f : String → String) (slots : List (String × Expr)) : List (String × Expr) :=
  match slots with
  | [] => []
  | (name, e) :: rest => (name, relabel f e) :: relabelSlots f rest
termination_by structural slots

/-- A member that may be missing without the numbers of parameters. -/
def relabelMember (f : String → String) (member : Option Expr) : Option Expr :=
  match member with
  | none => none
  | some e => some (relabel f e)
termination_by structural member

end

variable {f : String → String} {e e₁ e₂ : Expr}

theorem relabelArgs_eq_map (f : String → String) (args : List Expr) :
    relabelArgs f args = args.map (relabel f) := by
  induction args with
  | nil => rfl
  | cons e rest ih => rw [relabelArgs, ih, List.map_cons]

theorem type_relabel (f : String → String) (e : Expr) : (e.relabel f).type = e.type := by
  cases e with
  | lambda params body => exact type_relabel f body
  | _ => rfl
termination_by structural e

theorem type_eq_of_relabel (h : e₁.relabel f = e₂.relabel f) : e₁.type = e₂.type := by
  rw [← type_relabel f e₁, h, type_relabel]

theorem isNullConst_relabel (f : String → String) (e : Expr) :
    (e.relabel f).isNullConst = e.isNullConst := by cases e <;> rfl

theorem isNonNullConst_relabel (f : String → String) (e : Expr) :
    (e.relabel f).isNonNullConst = e.isNonNullConst := by cases e <;> rfl

theorem constValue?_relabel (f : String → String) (e : Expr) :
    (e.relabel f).constValue? = e.constValue? := by cases e <;> rfl

theorem lambdaType?_relabel (f : String → String) (e : Expr) :
    (e.relabel f).lambdaType? = e.lambdaType? := by
  cases e with
  | lambda params body => exact congrArg some (type_relabel f body)
  | _ => rfl

theorem paramsText_unnumbered (params : List Param) :
    paramsText (params.map Param.unnumbered) = paramsText params := by
  have hnames : (params.map Param.unnumbered).map Param.name = params.map Param.name := by
    rw [List.map_map]
    rfl
  rcases params with _ | ⟨p, _ | ⟨q, rest⟩⟩
  · rfl
  · rfl
  · exact congrArg (fun names => "(" ++ Text.joinWith ", " names ++ ")") hnames

mutual

/-- The numbers of parameters do not show in the text of an expression. -/
theorem text_relabel (e : Expr) : (e.relabel id).text = e.text := by
  cases e with
  | const v t => rfl
  | captured name v t => rfl
  | param p => rfl
  | member source m => simp only [relabel, text, text_relabel source]
  | index source key => simp only [relabel, text, text_relabel source, text_relabel key]
  | binary op l r lifted t => simp only [relabel, text, text_relabel l, text_relabel r]
  | unary op x t => cases op <;> simp only [relabel, text, text_relabel x]
  | convert x t => simp only [relabel, text, text_relabel x]
  | typeIs x t => simp only [relabel, text, text_relabel x]
  | typeAs x t => simp only [relabel, text, text_relabel x]
  | cond test a b t =>
    simp only [relabel, text, text_relabel test, text_relabel a, text_relabel b]
  | call m args t => simp only [relabel, text, argTexts_relabel args]
  | lambda params body => simp only [relabel, text, text_relabel body, paramsText_unnumbered]
  | container slots => simp only [relabel, text, slotTexts_relabel slots]
  | wrapper w =>
    obtain ⟨kind, g, c, s, i, m⟩ := w
    simp only [relabel, text, memberText_relabel g, memberText_relabel c, memberText_relabel s,
      memberText_relabel i, memberText_relabel m]
  | slot chain name t => simp only [relabel, text, text_relabel chain]
termination_by structural e

theorem argTexts_relabel (args : List Expr) : argTexts (relabelArgs id args) = argTexts args := by
  cases args with
  | nil => rfl
  | cons e rest => simp only [relabelArgs, argTexts, text_relabel e, argTexts_relabel rest]
termination_by structural args

theorem slotTexts_relabel (slots : List (String × Expr)) :
    slotTexts (relabelSlots id slots) = slotTexts slots := by
  cases slots with
  | nil => rfl
  | cons s rest =>
    obtain ⟨name, e⟩ := s
    simp only [relabelSlots, slotTexts, text_relabel e, slotTexts_relabel rest]
termination_by structural slots

theorem memberText_relabel (member : Option Expr) :
    memberText (relabelMember id member) = memberText member := by
  cases member with
  | none => rfl
  | some e => simp only [relabelMember, memberText, text_relabel e]
termination_by structural member

end

end Expr

/-! ## Contexts of two runs -/

/-- Binding tells the expressions of two contexts apart by numbers and names only. -/
structure Expr.Looks (f : String → String) (d₁ d₂ : Context) (e₁ e₂ : Expr) : Prop where
  relabel : e₁.relabel f = e₂.relabel f
  current : e₁ = .param d₁.current ↔ e₂ = .param d₂.current
  isCurrent : d₁.isCurrent e₁ = d₂.isCurrent e₂

/-- What looks alike in two contexts looks alike in others with the same records. -/
theorem Expr.Looks.transfer {f : String → String} {d₁ d₂ c₁ c₂ : Context}
    {o₁ o₂ : Option Expr} (ho : Option.Rel (Expr.Looks f d₁ d₂) o₁ o₂)
    (h : ∀ {e₁ e₂}, Expr.Looks f d₁ d₂ e₁ e₂ → Expr.Looks f c₁ c₂ e₁ e₂) :
    Option.Rel (Expr.Looks f c₁ c₂) o₁ o₂ := by
  cases ho with
  | none => exact .none
  | some he => exact .some (h he)

namespace Context

/-- The numbers of parameters are below the next one. -/
structure Numbered (ctx : Context) : Prop where
  current : ctx.current.id < ctx.nextId
  root : ctx.root.id < ctx.nextId
  scope : ∀ name p, Entries.get? ctx.scope name = some p → p.id < ctx.nextId

theorem initial_numbered (schema : Schema) (settings : Settings) (element : HostType) :
    (initial schema settings element).Numbered := ⟨Nat.zero_lt_one, Nat.zero_lt_one, nofun⟩

theorem Numbered.frame {ctx after : Context} (h : ctx.Numbered) (hframe : ctx.Frame after) :
    after.Numbered where
  current := by
    rw [hframe.current]
    exact Nat.lt_of_lt_of_le h.current hframe.nextId
  root := by
    rw [hframe.root]
    exact Nat.lt_of_lt_of_le h.root hframe.nextId
  scope := by
    rw [hframe.scope]
    exact fun name p hp => Nat.lt_of_lt_of_le (h.scope name p hp) hframe.nextId

/-- Parameters in pairs that differ at most in their numbers, which are below two bounds. -/
structure Counted (P : Param → Param → Prop) (n₁ n₂ : Nat) : Prop where
  unnumbered : ∀ {p₁ p₂}, P p₁ p₂ → p₁.unnumbered = p₂.unnumbered
  below : ∀ {p₁ p₂}, P p₁ p₂ → p₁.id < n₁ ∧ p₂.id < n₂
  same : ∀ {p₁ p₂ q₁ q₂}, P p₁ p₂ → P q₁ q₂ → (p₁ = q₁ ↔ p₂ = q₂)

theorem Counted.mono {P Q : Param → Param → Prop} {m₁ m₂ n₁ n₂ : Nat} (h : Counted P m₁ m₂)
    (hQ : ∀ {p₁ p₂}, Q p₁ p₂ → P p₁ p₂) (h₁ : m₁ ≤ n₁) (h₂ : m₂ ≤ n₂) : Counted Q n₁ n₂ where
  unnumbered hp := h.unnumbered (hQ hp)
  below hp := ⟨Nat.lt_of_lt_of_le (h.below (hQ hp)).1 h₁, Nat.lt_of_lt_of_le (h.below (hQ hp)).2 h₂⟩
  same hp hq := h.same (hQ hp) (hQ hq)

/-- Pairs with a new one. -/
theorem Counted.extend {P Q : Param → Param → Prop} {n₁ n₂ : Nat} (h : Counted P n₁ n₂)
    (name : String) (type : HostType)
    (hQ : ∀ {p₁ p₂}, Q p₁ p₂ → P p₁ p₂ ∨ p₁ = ⟨n₁, name, type⟩ ∧ p₂ = ⟨n₂, name, type⟩) :
    Counted Q (n₁ + 1) (n₂ + 1) := by
  -- the numbers of the new pair are not used yet
  have hnew {p₁ p₂ : Param} (hp : P p₁ p₂) : p₁ ≠ ⟨n₁, name, type⟩ ∧ p₂ ≠ ⟨n₂, name, type⟩ :=
    ⟨fun heq => absurd (heq ▸ (h.below hp).1) (Nat.lt_irrefl _),
      fun heq => absurd (heq ▸ (h.below hp).2) (Nat.lt_irrefl _)⟩
  refine ⟨fun hp => ?_, fun hp => ?_, fun hp hq => ?_⟩
  · rcases hQ hp with hp | ⟨rfl, rfl⟩
    · exact h.unnumbered hp
    · rfl
  · rcases hQ hp with hp | ⟨rfl, rfl⟩
    · exact ⟨Nat.lt_succ_of_lt (h.below hp).1, Nat.lt_succ_of_lt (h.below hp).2⟩
    · exact ⟨Nat.lt_succ_self n₁, Nat.lt_succ_self n₂⟩
  · rcases hQ hp with hp | ⟨rfl, rfl⟩ <;> rcases hQ hq with hq | ⟨rfl, rfl⟩
    · exact h.same hp hq
    · exact iff_of_false (hnew hp).1 (hnew hp).2
    · exact iff_of_false (hnew hq).1.symm (hnew hq).2.symm
    · exact iff_of_true rfl rfl

/-- The contexts of two runs of one clause: they differ in the numbers of parameters and in the names
of references, which do not count if literals are kept apart. -/
structure Again (f : String → String) (d₁ d₂ : Context) : Prop where
  schema : d₁.schema = d₂.schema
  settings : d₁.settings = d₂.settings
  computed : d₁.computed = d₂.computed
  flatteningSource : d₁.flatteningSource = d₂.flatteningSource
  depth : d₁.depth = d₂.depth
  references : d₁.settings.parameterizeConstants = true → ∀ m n, f m = f n
  scope : ∀ name, (Entries.get? d₁.scope name).isSome = (Entries.get? d₂.scope name).isSome
  params : Counted (Paired d₁ d₂) d₁.nextId d₂.nextId
  reads : ∀ key, Option.Rel (Expr.Looks f d₁ d₂) (Entries.get? d₁.flattened key)
    (Entries.get? d₂.flattened key)

/-- A context in which a run can be repeated, and the context that the run leaves. -/
theorem Numbered.again {f : String → String} {ctx after : Context} (h : ctx.Numbered)
    (hframe : ctx.Frame after)
    (hf : ctx.settings.parameterizeConstants = true → ∀ m n, f m = f n) : Again f ctx after where
  schema := hframe.schema.symm
  settings := hframe.settings.symm
  computed := hframe.computed.symm
  flatteningSource := hframe.flatteningSource.symm
  depth := hframe.depth.symm
  references := hf
  scope name := by rw [hframe.scope]
  params := by
    have hpaired {p₁ p₂ : Param} (hp : Paired ctx after p₁ p₂) : p₁ = p₂ ∧ p₁.id < ctx.nextId := by
      cases hp with
      | current => exact ⟨hframe.current.symm, h.current⟩
      | root => exact ⟨hframe.root.symm, h.root⟩
      | scope h₁ h₂ =>
        rw [hframe.scope, h₁] at h₂
        exact ⟨Option.some.inj h₂, h.scope _ _ h₁⟩
    refine ⟨fun hp => ?_, fun hp => ?_, fun hp hq => ?_⟩
    · rw [(hpaired hp).1]
    · obtain ⟨rfl, hlt⟩ := hpaired hp
      exact ⟨hlt, Nat.lt_of_lt_of_le hlt hframe.nextId⟩
    · rw [(hpaired hp).1, (hpaired hq).1]
  reads key := by
    rw [hframe.flattened]
    cases Entries.get? ctx.flattened key with
    | none => exact .none
    | some read =>
      exact .some ⟨rfl, by rw [hframe.current], (hframe.sameClause.isCurrent read).symm⟩

namespace Again

variable {f : String → String} {d₁ d₂ : Context} (h : Again f d₁ d₂)
include h

/-- Runs stay alike as their counters grow. -/
theorem within {c₁ c₂ : Context} (hc : d₁.Within d₂ c₁ c₂) : Again f c₁ c₂ where
  schema := by rw [hc.left.schema, hc.right.schema, h.schema]
  settings := by rw [hc.left.settings, hc.right.settings, h.settings]
  computed := by rw [hc.left.computed, hc.right.computed, h.computed]
  flatteningSource := by rw [hc.left.flatteningSource, hc.right.flatteningSource, h.flatteningSource]
  depth := hc.depth
  references := by
    rw [hc.left.settings]
    exact h.references
  scope name := by rw [hc.left.scope, hc.right.scope, h.scope]
  params := h.params.mono (fun hp => (hc.left.paired hc.right).mp hp) hc.left.nextId hc.right.nextId
  reads key := by
    rw [hc.left.flattened, hc.right.flattened]
    refine Expr.Looks.transfer (h.reads key) fun he => ⟨he.relabel, ?_, ?_⟩
    · rw [hc.left.current, hc.right.current]
      exact he.current
    · rw [hc.left.isCurrent, hc.right.isCurrent]
      exact he.isCurrent

theorem frames {c₁ c₂ : Context} (h₁ : d₁.Frame c₁) (h₂ : d₂.Frame c₂) : Again f c₁ c₂ :=
  h.within ((Within.refl h.depth).frame h₁ h₂)

/-- Contexts with a new variable. -/
theorem push (name : String) (type : HostType) :
    Again f (d₁.push name type) (d₂.push name type) :=
  { h with
    scope := fun key => by
      simp only [Context.push, Entries.get?_insert]
      split_ifs
      · rfl
      · exact h.scope key
    params := h.params.extend name type Alike.paired_push
    reads := fun key =>
      Expr.Looks.transfer (h.reads key) fun he => ⟨he.relabel, he.current, he.isCurrent⟩ }

/-- The contexts of nested clauses. -/
theorem derive (element : HostType) : Again f (d₁.derive element) (d₂.derive element) :=
  { h with
    flatteningSource := rfl
    params := h.params.extend _ element Alike.paired_derive
    reads := fun _ => .none }

/-- Contexts with a new column. -/
theorem define (column : Column) :
    Again f { d₁ with computed := Entries.insert d₁.computed column.name column.expression }
      { d₂ with computed := Entries.insert d₂.computed column.name column.expression } :=
  { h with
    computed := by rw [h.computed]
    params := h.params.mono (fun hp => hp.of_eq rfl rfl rfl rfl rfl rfl) (Nat.le_refl _) (Nat.le_refl _)
    reads := fun key =>
      Expr.Looks.transfer (h.reads key) fun he => ⟨he.relabel, he.current, he.isCurrent⟩ }

theorem type_eq {p₁ p₂ : Param} (hp : Paired d₁ d₂ p₁ p₂) : p₁.type = p₂.type :=
  show p₁.unnumbered.type = p₂.unnumbered.type by rw [h.params.unnumbered hp]

theorem root_eq_iff : d₁.root = d₁.current ↔ d₂.root = d₂.current := h.params.same .root .current

/-! ### Records and variables -/

theorem param {p₁ p₂ : Param} (hp : Paired d₁ d₂ p₁ p₂) :
    Expr.Looks f d₁ d₂ (.param p₁) (.param p₂) where
  relabel := by simp only [Expr.relabel, h.params.unnumbered hp]
  current := by simpa only [Expr.param.injEq] using h.params.same hp .current
  isCurrent := decide_eq_decide.mpr (h.params.same hp .current)

theorem sourceMember_eq (type : HostType) : d₁.sourceMember type = d₂.sourceMember type := by
  unfold sourceMember
  rw [h.type_eq .current]

theorem member {s₁ s₂ : Expr} (m : Member) (hs : Expr.Looks f d₁ d₂ s₁ s₂) :
    Expr.Looks f d₁ d₂ (.member s₁ m) (.member s₂ m) where
  relabel := by simp only [Expr.relabel, hs.relabel]
  current := ⟨nofun, nofun⟩
  isCurrent := by
    rw [Bool.eq_iff_iff, isCurrent_member_iff, isCurrent_member_iff, hs.current, h.flatteningSource]
    simp only [h.sourceMember_eq]

theorem currentExpr : Expr.Looks f d₁ d₂ d₁.currentExpr d₂.currentExpr := by
  unfold Context.currentExpr
  rw [h.flatteningSource]
  cases d₂.flatteningSource with
  | none => exact h.param .current
  | some type =>
    dsimp only
    rw [h.sourceMember_eq]
    exact h.member _ (h.param .current)

theorem resolve {E : Error → Prop} (v : RangeVariable) :
    Follows E (Expr.Looks f d₁ d₂) (d₁.resolve v) (d₂.resolve v) := by
  unfold Context.resolve Context.isFlattened
  simp only [h.flatteningSource, h.root_eq_iff, h.type_eq .current, h.schema]
  split_ifs
  · exact h.currentExpr
  · exact h.currentExpr
  · exact h.param .root
  · rcases eq_none_or_some_of_isSome (h.scope v.name) with ⟨h₁, h₂⟩ | ⟨p₁, p₂, h₁, h₂⟩
    · rw [h₁, h₂]
      exact Follows.error _
    · rw [h₁, h₂]
      exact h.param (.scope h₁ h₂)

end Again

end Context

/-! ## Nodes -/

namespace Expr.Looks

variable {f : String → String} {d₁ d₂ : Context} {e₁ e₂ : Expr} (h : Looks f d₁ d₂ e₁ e₂)
include h

theorem type : e₁.type = e₂.type := type_eq_of_relabel h.relabel

theorem isNullConst : e₁.isNullConst = e₂.isNullConst := by
  rw [← isNullConst_relabel f e₁, h.relabel, isNullConst_relabel]

theorem isNonNullConst : e₁.isNonNullConst = e₂.isNonNullConst := by
  rw [← isNonNullConst_relabel f e₁, h.relabel, isNonNullConst_relabel]

theorem constValue : e₁.constValue? = e₂.constValue? := by
  rw [← constValue?_relabel f e₁, h.relabel, constValue?_relabel]

theorem lambdaType : e₁.lambdaType? = e₂.lambdaType? := by
  rw [← lambdaType?_relabel f e₁, h.relabel, lambdaType?_relabel]

omit h in
/-- Functions of paired parameters. -/
theorem toExpr {c₁ c₂ : Context} {l₁ l₂ : Lambda} (hparam : l₁.param.unnumbered = l₂.param.unnumbered)
    (hbody : Looks f c₁ c₂ l₁.body l₂.body) : Looks f d₁ d₂ l₁.toExpr l₂.toExpr where
  relabel := by
    simp only [Lambda.toExpr, mkLambda, Expr.relabel, List.map_cons, List.map_nil, hparam, hbody.relabel]
  current := ⟨nofun, nofun⟩
  isCurrent := rfl

end Expr.Looks

/-- The errors are the same, or quote expressions that differ in the names of references. -/
inductive Error.Repeats (f : String → String) : Error → Error → Prop
  | same (e : Error) : Repeats f e e
  | renamed {x₁ x₂ : Expr} (method type : String) (h : x₁.relabel f = x₂.relabel f) :
    Repeats f (.aggregationNotSupported method x₁.text type)
      (.aggregationNotSupported method x₂.text type)

namespace Context.Again

variable {f : String → String} {d₁ d₂ : Context} (h : Again f d₁ d₂)
include h

theorem congruence {c₁ c₂ : Context} (hc : d₁.Within d₂ c₁ c₂) :
    Congruence c₁ c₂ (Expr.Looks f d₁ d₂) where
  schema := by rw [hc.left.schema, hc.right.schema, h.schema]
  nullPropagation := by rw [hc.left.settings, hc.right.settings, h.settings]
  type he := he.type
  isNullConst he := he.isNullConst
  constValue he := he.constValue
  lambdaType he := he.lambdaType
  needsGuard {e₁ e₂} he := by
    unfold Context.needsGuard
    rw [hc.left.settings, hc.right.settings, hc.left.isCurrent, hc.right.isCurrent, h.settings,
      he.type, he.isCurrent, he.isNonNullConst]
  const _ _ := ⟨rfl, ⟨nofun, nofun⟩, rfl⟩
  model _ := ⟨rfl, ⟨nofun, nofun⟩, rfl⟩
  member m hs := h.member m hs
  index hs hk := ⟨by simp only [Expr.relabel, hs.relabel, hk.relabel], ⟨nofun, nofun⟩, rfl⟩
  binary op lifted t hl hr := ⟨by simp only [Expr.relabel, hl.relabel, hr.relabel], ⟨nofun, nofun⟩, rfl⟩
  unary op t he := ⟨by simp only [Expr.relabel, he.relabel], ⟨nofun, nofun⟩, rfl⟩
  convert t he := ⟨by simp only [Expr.relabel, he.relabel], ⟨nofun, nofun⟩, rfl⟩
  typeIs t he := ⟨by simp only [Expr.relabel, he.relabel], ⟨nofun, nofun⟩, rfl⟩
  typeAs t he := ⟨by simp only [Expr.relabel, he.relabel], ⟨nofun, nofun⟩, rfl⟩
  cond t hb hx hy :=
    ⟨by simp only [Expr.relabel, hb.relabel, hx.relabel, hy.relabel], ⟨nofun, nofun⟩, rfl⟩
  call {args₁ args₂} m t hargs := by
    have hmap : args₁.map (Expr.relabel f) = args₂.map (Expr.relabel f) := by
      induction hargs with
      | nil => rfl
      | cons he _ ih => rw [List.map_cons, List.map_cons, he.relabel, ih]
    exact ⟨by simp only [Expr.relabel, Expr.relabelArgs_eq_map, hmap], ⟨nofun, nofun⟩, rfl⟩

/-- A literal gets another name on a second run. -/
theorem constant {E : Error → Prop} {Y : Error → Error → Prop} (v : Value) (t : HostType) :
    Relates (d₁.Within d₂) E Y (Expr.Looks f d₁ d₂) (BindM.constant v t) (BindM.constant v t) where
  ok {c₁ c₂ a c₁'} hc hx := by
    have hf₁ := (Keeps.constant v t).frame hx
    have hf₂ := Keeps.constant v t c₂
    have hs : c₁.settings = c₂.settings := by rw [hc.left.settings, hc.right.settings, h.settings]
    obtain ⟨hp, -, h₁, h₂⟩ | ⟨h₁, h₂⟩ := BindM.constant_alike v t c₁ c₂ (congrArg Settings.parameterizeConstants hs)
    · cases hx.symm.trans h₁
      rw [h₂] at hf₂
      have hnames : f ("p" ++ toString c₁.captures) = f ("p" ++ toString c₂.captures) := by
        refine h.references ?_ _ _
        rw [← hc.left.settings]
        exact hp
      refine ⟨_, _, h₂, ⟨?_, ⟨nofun, nofun⟩, rfl⟩, hc.frame hf₁ hf₂⟩
      simp only [Expr.relabel, hnames]
    · cases hx.symm.trans h₁
      exact ⟨_, _, h₂, ⟨rfl, ⟨nofun, nofun⟩, rfl⟩, hc⟩
  error _ hx _ := absurd hx BindM.constant_ne_error

theorem rules {E : Error → Prop} :
    Rules (d₁.Within d₂) E (Error.Repeats f) (Expr.Looks f d₁ d₂) (Expr.Looks f d₁ d₂)
      (fun l₁ l₂ => Expr.Looks f d₁ d₂ l₁.toExpr l₂.toExpr) where
  errors := .same
  congruence hc := (h.congruence hc).toNodeCongruence
  unguarded := id
  guard hc _ hsources hcall :=
    (h.congruence hc).guardCall ((h.congruence hc).filter_needsGuard hsources) hcall
  resolve v hc := by
    rw [hc.left.resolve, hc.right.resolve]
    exact h.resolve v
  constant _ _ := h.constant _ _
  any hc hs hl := (h.congruence hc).mkCollection _ (.cons hs (.cons hl .nil))
  all hc hs hl := (h.congruence hc).mkCollection _ (.cons hs (.cons hl .nil))
  countWhere hc hs hl :=
    (h.congruence hc).mkCollection _
      (.cons ((h.congruence hc).mkCollection _ (.cons hs (.cons hl .nil))) .nil)

/-- The predicate of a quantifier, if its body is bound alike in all contexts of two runs. -/
theorem quantified {E : Error → Prop} {sub : Node → BindM Expr}
    (hsub : ∀ {d₁ d₂} node, Again f d₁ d₂ →
      Relates (d₁.Within d₂) E (Error.Repeats f) (Expr.Looks f d₁ d₂) (sub node) (sub node))
    (name : String) (element : HostType) (body : Node) :
    Relates (d₁.Within d₂) E (Error.Repeats f) (fun l₁ l₂ => Expr.Looks f d₁ d₂ l₁.toExpr l₂.toExpr)
      (BindM.withRangeVariable name element fun p => Bind.predicate sub body p)
      (BindM.withRangeVariable name element fun p => Bind.predicate sub body p) := by
  refine Relates.withRangeVariable name element (fun hc => (h.within hc).scope name) ?_ ?_
  · intro c₁ c₂ p₁ p₂ hc h₁ h₂
    refine ⟨d₁.Within d₂, hc, ?_, id⟩
    refine (h.rules.predicate (hsub body h) p₁ p₂).weaken fun l₁ l₂ ⟨hp₁, hp₂, hbody⟩ => ?_
    refine .toExpr ?_ hbody
    rw [hp₁, hp₂]
    exact (h.within hc).params.unnumbered (.scope h₁ h₂)
  · intro c₁ c₂ hc hnone₁ hnone₂
    have hpush := (h.within hc).push name element
    refine ⟨_, Within.refl hc.depth, ?_, fun ha => ?_⟩
    · refine (hpush.rules.predicate (hsub body hpush) _ _).weaken fun l₁ l₂ ⟨hp₁, hp₂, hbody⟩ => ?_
      refine .toExpr ?_ hbody
      rw [hp₁, hp₂]
      rfl
    · exact ⟨hc.left.pop hnone₁ ha.left, hc.right.pop hnone₂ ha.right, ha.depth⟩

/-- The predicate of a nested clause, if its body is bound alike in all contexts of two runs. -/
theorem nested {E : Error → Prop} {sub : Node → BindM Expr}
    (hsub : ∀ {d₁ d₂} node, Again f d₁ d₂ →
      Relates (d₁.Within d₂) E (Error.Repeats f) (Expr.Looks f d₁ d₂) (sub node) (sub node))
    (element : HostType) (body : Node) :
    Relates (d₁.Within d₂) E (Error.Repeats f) (fun l₁ l₂ => Expr.Looks f d₁ d₂ l₁.toExpr l₂.toExpr)
      (BindM.inChild element (Bind.filterLambda sub body))
      (BindM.inChild element (Bind.filterLambda sub body)) := by
  refine Relates.inChild element element fun {c₁ c₂} hc => ?_
  have hchild := (h.within hc).derive element
  refine ⟨_, Within.refl hc.depth, ?_, fun _ => hc.frame (c₁.frame_absorb _) (c₂.frame_absorb _)⟩
  refine (hchild.rules.filterLambda (hsub body hchild)).weaken fun l₁ l₂ hl => ?_
  obtain ⟨⟨a₁, a₂, ha, hp₁, hp₂⟩, hbody⟩ := hl
  refine .toExpr ?_ hbody
  rw [hp₁, hp₂]
  exact (hchild.within ha).params.unnumbered .current

theorem flattenedRead {c₁ c₂ : Context} (node : Node) (hc : d₁.Within d₂ c₁ c₂) :
    Option.Rel (Expr.Looks f d₁ d₂) (c₁.flattenedRead? node) (c₂.flattenedRead? node) := by
  rw [hc.left.flattenedRead, hc.right.flattenedRead]
  unfold flattenedRead?
  cases node.path? with
  | none => exact .none
  | some path => exact h.reads _

omit h in
/-- **On a second run, a node is bound to what it was bound to before**, but for numbers and names. -/
theorem bindWithin {E : Error → Prop} {d₁ d₂ : Context} (h : Again f d₁ d₂) (node : Node) (levels : Nat) :
    Relates (d₁.Within d₂) E (Error.Repeats f) (Expr.Looks f d₁ d₂) (node.bindWithin levels)
      (node.bindWithin levels) := by
  induction levels generalizing node d₁ d₂ with
  | zero =>
    refine Relates.reads .same fun hc => ?_
    rw [hc.depth, (h.within hc).settings]
    exact Follows.error _
  | succ levels ih =>
    refine Relates.descend .same ?_ (fun hc => hc.depth) (fun hc => by rw [(h.within hc).settings])
      (fun hc => hc.deeper) fun hc => ⟨{ hc.left with }, { hc.right with }, congrArg (· - 1) hc.depth⟩
    exact h.rules.step (fun hc => (h.within hc).computed) (fun node hc => h.flattenedRead node hc)
      (fun node => ih h node)
      (h.quantified fun node hd => ih hd node) (h.nested fun node hd => ih hd node) node

theorem bind (node : Node) {E : Error → Prop} :
    Relates (d₁.Within d₂) E (Error.Repeats f) (Expr.Looks f d₁ d₂) node.bind node.bind :=
  Relates.node (fun hc => by simp only [levelsLeft, hc.depth, (h.within hc).settings])
    fun levels => h.bindWithin node levels

end Context.Again

end TypedQuery
