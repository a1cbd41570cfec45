import TypedQuery.Proofs.Comparisons
import TypedQuery.Proofs.Conversions
import TypedQuery.Proofs.IntegerOperators
import TypedQuery.Proofs.ItemPredicates
import TypedQuery.Proofs.Replacements

/-!
# Two spellings of a value of an enumeration

A value of an enumeration is written as a text next to an operand of that enumeration, or as a literal that names
the enumeration. The text becomes a number when it is bound, the literal is converted to one when it runs; the
test of flags takes both as a value of the enumeration. Either way what is spelled wrong is the same error, and
what is spelled right has the same value, on either side of a comparison and as the flag of a test. The operand
that is tested cannot be a text: a text has no flags.

* `EnumType.Fits`: the values that the integers behind an enumeration hold.
* `Bind.toUnderlying_spellings`, `Context.hasFlag_spellings`: the literals as operands.
* `Node.bind_spellings`: the literals as nodes.
* **`spellings_agree`**: comparisons and tests with the one and with the other.
* `texts_have_no_flags`: the operand that is tested, spelled.
-/

namespace TypedQuery

/-- Whether a value is one of the integers behind an enumeration. -/
def EnumType.Fits (e : EnumType) (n : Int64) : Prop :=
  ∃ w, e.underlying.nonNullable = .int w ∧ w.Holds n.toInt

open TypedQuery.Expr (Replaces IsLiteral)
open NodeCongruence (OperandsRel)

/-! ## Literals next to an operand -/

namespace Bind

variable {V : Env → Prop} {e : EnumType} {t : String} {n : Int64} {text literal x : Expr}

theorem enumLiteral_of_text (htext : text.IsLiteral (.string t) .string) :
    enumLiteral text e =
      match e.parse? t with
      | some value => .ok value
      | none => .error (.invalidEnumValue e.name t) := by
  unfold enumLiteral
  split
  next s hs =>
    cases hs.symm.trans htext.constValue
    cases e.parse? t <;> rfl
  next hother => exact absurd htext.constValue (hother t)

theorem toUnderlying_of_text (htext : text.IsLiteral (.string t) .string) :
    toUnderlying text e = enumLiteral text e >>= fun value =>
      Value.ofInt value.toInt e.underlying >>= fun v => .ok (.const v e.underlying) := by
  unfold toUnderlying
  rw [htext.isNullConst rfl, htext.type]
  rfl

/-- The spelled value as a number: in place, or converted when it runs. -/
theorem toUnderlying_spellings [External] {w : IntWidth} (hparse : e.parse? t = some n)
    (hw : e.underlying.nonNullable = .int w) (hn : w.Holds n.toInt) (htext : text.IsLiteral (.string t) .string)
    (hliteral : literal.IsLiteral (.enum e.name n) (.ofEnum e)) :
    ∃ a b, toUnderlying text e = .ok a ∧ toUnderlying literal e = .ok b ∧ Replaces V a b ∧
      a.type.nonNullable = .int w := by
  have hvalue : Value.ofInt n.toInt e.underlying = .ok (.int ⟨w, n.toInt, hn⟩) := by
    unfold Value.ofInt Value.ofIntegral
    rw [hw]
    dsimp only
    rw [SizedInt.ofInt?, dif_pos hn]
    rfl
  refine ⟨.const (.int ⟨w, n.toInt, hn⟩) e.underlying, .convert literal e.underlying, ?_, ?_, ⟨rfl, rfl, ?_, ?_⟩, hw⟩
  · rw [toUnderlying_of_text htext, enumLiteral_of_text htext, hparse, Outcome.ok_bind, hvalue, Outcome.ok_bind]
  · unfold toUnderlying
    rw [hliteral.isNullConst rfl, hliteral.type]
    rfl
  · intro s
    constructor <;> intro h <;> cases h
  · intro env _
    rw [Expr.eval, Expr.eval, Expr.eval_of_constValue? hliteral.constValue, Outcome.ok_bind,
      Value.convert_integral rfl hw, SizedInt.ofInt?, dif_pos hn]
    rfl

/-- The operand next to them, as a number. -/
theorem exists_toUnderlying (hx : x.type.asEnum? = some e) :
    ∃ a, toUnderlying x e = .ok a ∧ a.type.nonNullable = e.underlying.nonNullable := by
  unfold toUnderlying
  dsimp only
  rw [hx]
  cases x.isNullConst with
  | true => exact ⟨_, rfl, HostType.nonNullable_toNullable _⟩
  | false => exact ⟨_, rfl, HostType.nonNullable_nullableLike e.underlying x.type⟩

theorem unifyEnums_of_left (hx : x.type.asEnum? = some e) (y : Expr) :
    unifyEnums x y = toUnderlying x e >>= fun a => toUnderlying y e >>= fun b => .ok (a, b) := by
  unfold unifyEnums
  rw [hx]
  rfl

theorem unifyEnums_of_right {y : Expr} (hy : y.type.asEnum? = none ∨ y.type.asEnum? = some e)
    (hx : x.type.asEnum? = some e) :
    unifyEnums y x = toUnderlying y e >>= fun a => toUnderlying x e >>= fun b => .ok (a, b) := by
  unfold unifyEnums
  rcases hy with hy | hy
  · rw [hy, hx]
    rfl
  · rw [hy]
    rfl

theorem unifyNulls_int {l r : Expr} {u w : IntWidth} (hl : l.type.nonNullable = .int u)
    (hr : r.type.nonNullable = .int w) :
    (∃ u, (unifyNulls l r).1.type.nonNullable = .int u) ∧ ∃ w, (unifyNulls l r).2.type.nonNullable = .int w := by
  unfold unifyNulls
  split
  · exact ⟨⟨w, (HostType.nonNullable_toNullable _).trans hr⟩, w, hr⟩
  · exact ⟨⟨u, hl⟩, u, (HostType.nonNullable_toNullable _).trans hl⟩
  · exact ⟨⟨u, hl⟩, w, hr⟩

/-- Integers always have a common type. -/
theorem exists_promote_of_int {l r : Expr} {u w : IntWidth} (hl : l.type.nonNullable = .int u)
    (hr : r.type.nonNullable = .int w) : ∃ p, promote l r = .ok p := by
  by_cases hsame : l.type = r.type
  · exact ⟨_, if_pos hsame⟩
  · obtain ⟨_, hp, -⟩ := exists_promote_of_type_ne hl hr hsame
    exact ⟨_, hp⟩

end Bind

namespace Context

variable {V : Env → Prop} {op : QueryOp} {e : EnumType} {t : String} {n : Int64} {text literal x : Expr}

/-- A comparison of numbers does not see which of two expressions stands for one. -/
theorem exists_comparison_of_unified [External] (ctx : Context) (hop : op.isComparison = true)
    {l₁ l₂ r₁ r₂ : Expr}
    {p q : Expr × Expr} (hp : Bind.unifyEnums l₁ r₁ = .ok p) (hq : Bind.unifyEnums l₂ r₂ = .ok q)
    (hpq : OperandsRel (Replaces V) p q) {u w : IntWidth} (hu : p.1.type.nonNullable = .int u)
    (hw : p.2.type.nonNullable = .int w) :
    ∃ a b, ctx.binary op l₁ r₁ = .ok a ∧ ctx.binary op l₂ r₂ = .ok b ∧ Replaces V a b := by
  obtain ⟨bop, hbop⟩ := QueryOp.exists_binaryOp (.inr hop)
  have hcomparison : bop.isComparison = true := (QueryOp.isComparison_binaryOp hbop).trans hop
  have hnulls := Bind.unifyNulls_replaces hpq.1 hpq.2
  obtain ⟨⟨u, hu⟩, w, hw⟩ := Bind.unifyNulls_int hu hw
  have hu' := hu
  have hw' := hw
  rw [hnulls.1.type] at hu'
  rw [hnulls.2.type] at hw'
  rw [ctx.binary_of_isComparison hbop hcomparison, hp, Outcome.ok_bind, comparison_of_int hu hw,
    ctx.binary_of_isComparison hbop hcomparison, hq, Outcome.ok_bind, comparison_of_int hu' hw']
  obtain ⟨a, ha⟩ := Bind.exists_promote_of_int hu hw
  have hoperation := ctx.operation_replaces bop hnulls.1 hnulls.2 (E := fun _ => True)
  rw [ha, Outcome.ok_bind] at hoperation ⊢
  obtain ⟨b, hb, hab⟩ := hoperation.exists_ok
  exact ⟨_, b, rfl, hb, hab⟩

/-- **A comparison with a spelled value**, on either side. -/
theorem spelled_comparison [External] (ctx : Context) (hop : op.isComparison = true)
    (hx : x.type.asEnum? = some e)
    (hparse : e.parse? t = some n) (hfits : e.Fits n) (htext : text.IsLiteral (.string t) .string)
    (hliteral : literal.IsLiteral (.enum e.name n) (.ofEnum e)) :
    (∃ a b, ctx.binary op x text = .ok a ∧ ctx.binary op x literal = .ok b ∧ Replaces V a b) ∧
      ∃ a b, ctx.binary op text x = .ok a ∧ ctx.binary op literal x = .ok b ∧ Replaces V a b := by
  obtain ⟨w, hw, hn⟩ := hfits
  obtain ⟨y, hy, hytype⟩ := Bind.exists_toUnderlying hx
  obtain ⟨a, b, ha, hb, hab, hatype⟩ := Bind.toUnderlying_spellings hparse hw hn htext hliteral
  have hother : text.type.asEnum? = none := by rw [htext.type]; rfl
  have hsame : literal.type.asEnum? = some e := by rw [hliteral.type]; rfl
  constructor
  · refine ctx.exists_comparison_of_unified hop (p := (y, a)) (q := (y, b)) ?_ ?_ ⟨.refl y, hab⟩ (hytype.trans hw)
      hatype
    · rw [Bind.unifyEnums_of_left hx, hy, ha]
      rfl
    · rw [Bind.unifyEnums_of_left hx, hy, hb]
      rfl
  · refine ctx.exists_comparison_of_unified hop (p := (a, y)) (q := (b, y)) ?_ ?_ ⟨hab, .refl y⟩ hatype
      (hytype.trans hw)
    · rw [Bind.unifyEnums_of_right (.inl hother) hx, hy, ha]
      rfl
    · rw [Bind.unifyEnums_of_right (.inr hsame) hx, hy, hb]
      rfl

/-- A text that spells no value fails on either side of a comparison, and as the flag of a test. -/
theorem binary_misspelled (ctx : Context) (hx : x.type.asEnum? = some e) (hparse : e.parse? t = none)
    (htext : text.IsLiteral (.string t) .string) :
    (op.isComparison = true ∨ op = .has → ctx.binary op x text = .error (.invalidEnumValue e.name t)) ∧
      (op.isComparison = true → ctx.binary op text x = .error (.invalidEnumValue e.name t)) := by
  have hliteral : Bind.enumLiteral text e = .error (.invalidEnumValue e.name t) := by
    rw [Bind.enumLiteral_of_text htext, hparse]
  have htoText : Bind.toUnderlying text e = .error (.invalidEnumValue e.name t) := by
    rw [Bind.toUnderlying_of_text htext, hliteral]
    rfl
  obtain ⟨a, ha, -⟩ := Bind.exists_toUnderlying hx
  have htype : text.type.asEnum? = none := by rw [htext.type]; rfl
  have fails {l r : Expr} (hop : op.isComparison = true)
      (h : Bind.unifyEnums l r = .error (.invalidEnumValue e.name t)) :
      ctx.binary op l r = .error (.invalidEnumValue e.name t) := by
    obtain ⟨bop, hbop⟩ := QueryOp.exists_binaryOp (.inr hop)
    rw [ctx.binary_of_isComparison hbop ((QueryOp.isComparison_binaryOp hbop).trans hop), h]
    rfl
  refine ⟨?_, fun hop => fails hop ?_⟩
  · rintro (hop | rfl)
    · refine fails hop ?_
      rw [Bind.unifyEnums_of_left hx, ha, Outcome.ok_bind, htoText]
      rfl
    · show ctx.hasFlag x text = _
      unfold hasFlag
      rw [hx]
      dsimp only
      rw [htype, hliteral]
      rfl
  · rw [Bind.unifyEnums_of_right (.inl htype) hx, htoText]
    rfl

theorem hasFlag_literal (ctx : Context) (hx : x.type.asEnum? = some e)
    (hliteral : literal.IsLiteral (.enum e.name n) (.ofEnum e)) :
    ctx.hasFlag x literal = .ok (ctx.guardIfNeeded x (.mkScalar .hasFlag [x, literal])) := by
  unfold hasFlag
  rw [hx]
  dsimp only
  rw [hliteral.type]
  rfl

/-- The flag of a test: a value of the enumeration either way. -/
theorem hasFlag_spellings [External] (ctx : Context) (hx : x.type.asEnum? = some e)
    (hparse : e.parse? t = some n)
    (htext : text.IsLiteral (.string t) .string) (hliteral : literal.IsLiteral (.enum e.name n) (.ofEnum e)) :
    ∃ a b, ctx.hasFlag x text = .ok a ∧ ctx.hasFlag x literal = .ok b ∧ Replaces V a b := by
  let flag : Expr := .const (.enum e.name n) x.type.nonNullable
  have hcall : Replaces V (.mkScalar .hasFlag [x, flag]) (.mkScalar .hasFlag [x, literal]) := by
    refine Replaces.of_eval rfl rfl rfl fun env _ => ?_
    rw [Expr.eval_mkScalar_pair, Expr.eval_mkScalar_pair, Expr.eval_of_constValue? hliteral.constValue]
    rfl
  refine ⟨_, _, ?_, ctx.hasFlag_literal hx hliteral, hcall.guardIfNeeded ctx x⟩
  unfold hasFlag
  rw [hx]
  dsimp only
  rw [htext.type, Bind.enumLiteral_of_text htext, hparse]
  rfl

end Context

/-! ## Literals as nodes -/

/-- The schema has the type that a literal is declared with, if it is declared with one. -/
def Context.Declares (ctx : Context) (type : Option LogicalType) : Prop := ∃ t, type.mapM ctx.hostType = .ok t

theorem Context.Declares.frame {ctx c : Context} {type : Option LogicalType} (h : ctx.Declares type)
    (hframe : ctx.Frame c) : c.Declares type := by
  have hhost : c.hostType = ctx.hostType := by
    funext t
    rw [hostType, hostType, hframe.schema]
  rwa [Declares, hhost]

theorem Context.Declares.deeper {ctx : Context} {type : Option LogicalType} (h : ctx.Declares type) :
    ctx.deeper.Declares type := h

namespace BindM

/-- A literal leaves the same context behind, whatever it is, unless it is null. -/
theorem constant_after {v w : Value} (hv : v.isNull = false) (hw : w.isNull = false) (t u : HostType) (c : Context) :
    (constant v t c).2 = (constant w u c).2 := by
  unfold constant
  rw [hv, hw]
  split_ifs <;> rfl

end BindM

namespace Node

variable {ctx : Context} {e : EnumType} {t : String} {n : Int64} {type₁ type₂ : Option LogicalType}

/-- A text is bound in any context that has a level left. -/
theorem exists_bind_text (hlt : ctx.depth < ctx.settings.maxDepth) (htype : ctx.Declares type₁) (t : String) :
    ∃ text, (Node.constant (.string t) type₁).bind ctx =
        (.ok text, (BindM.constant (.string t) .string ctx.deeper).2.shallower) ∧
      text.IsLiteral (.string t) .string := by
  obtain ⟨declared, hdeclared⟩ := htype
  obtain ⟨text, htext, hliteral⟩ := BindM.exists_literal (.string t) .string ctx.deeper
  have hconstant : Bind.constant (.string t) type₁ ctx.deeper = BindM.constant (.string t) .string ctx.deeper :=
    BindM.bind_of_ok (Prod.ext hdeclared rfl)
  refine ⟨text, ?_, hliteral⟩
  rw [bind_eq_of_lt _ hlt, Bind.step, hconstant, htext]

theorem bind_enum (hlt : ctx.depth < ctx.settings.maxDepth) (htype : ctx.Declares type₂)
    (he : ctx.schema.enum? e.name = some e) (t : String) :
    (Node.constant (.enum e.name t) type₂).bind ctx =
      match e.parse? t with
      | some n => ((BindM.constant (.enum e.name n) (.ofEnum e) ctx.deeper).1,
          (BindM.constant (.enum e.name n) (.ofEnum e) ctx.deeper).2.shallower)
      | none => (.error (.invalidEnumValue e.name t), ctx.deeper.shallower) := by
  obtain ⟨declared, hdeclared⟩ := htype
  have hhost : ctx.deeper.hostType (.enum e.name false) = .ok (.ofEnum e) := by
    unfold Context.hostType Schema.hostType?
    rw [show ctx.deeper.schema.enum? e.name = some e from he]
    rfl
  have hconstant : Bind.constant (.enum e.name t) type₂ ctx.deeper = Bind.enumConstant e.name t ctx.deeper :=
    BindM.bind_of_ok (Prod.ext hdeclared rfl)
  rw [bind_eq_of_lt _ hlt, Bind.step, hconstant, Bind.enumConstant,
    BindM.bind_of_ok (show BindM.reads (fun c => c.hostType (.enum e.name false)) ctx.deeper = _ from
      Prod.ext hhost rfl)]
  dsimp only [HostType.asEnum?, HostType.ofEnum, HostType.nonNullable]
  cases e.parse? t <;> rfl

/-- **The two literals are bound alike**, and leave the same context behind. -/
theorem bind_spellings (hlt : ctx.depth < ctx.settings.maxDepth) (htype₁ : ctx.Declares type₁)
    (htype₂ : ctx.Declares type₂) (he : ctx.schema.enum? e.name = some e) (hparse : e.parse? t = some n) :
    ∃ text literal c, (Node.constant (.string t) type₁).bind ctx = (.ok text, c) ∧
      (Node.constant (.enum e.name t) type₂).bind ctx = (.ok literal, c) ∧
      text.IsLiteral (.string t) .string ∧ literal.IsLiteral (.enum e.name n) (.ofEnum e) := by
  obtain ⟨text, htext, htextual⟩ := exists_bind_text hlt htype₁ t
  obtain ⟨literal, hliteral, hnamed⟩ := BindM.exists_literal (.enum e.name n) (.ofEnum e) ctx.deeper
  refine ⟨text, literal, _, htext, ?_, htextual, hnamed⟩
  rw [bind_enum hlt htype₂ he, hparse]
  dsimp only
  rw [hliteral, BindM.constant_after (v := .enum e.name n) (w := .string t) rfl rfl]

/-- An operator on a node that is not bound. -/
theorem bind_binary_of_left_error {op : QueryOp} {left : Node} {err : Error}
    (hlt : ctx.depth < ctx.settings.maxDepth) (hl : (left.bind ctx.deeper).1 = .error err) (right : Node) :
    ((Node.binary op left right).bind ctx).1 = .error err := by
  have hleft : left.bindWithin ctx.deeper.levelsLeft ctx.deeper = (.error err, (left.bind ctx.deeper).2) :=
    Prod.ext hl rfl
  rw [bind_of_lt _ hlt, Bind.step, Bind.binary, BindM.bind_of_error hleft]

theorem bind_binary_of_right_error {op : QueryOp} {left right : Node} {l : Expr} {err : Error}
    (hl : (left.bind ctx.deeper).1 = .ok l) (hr : (right.bind (left.bind ctx.deeper).2).1 = .error err) :
    ((Node.binary op left right).bind ctx).1 = .error err := by
  have hlt : ctx.depth < ctx.settings.maxDepth := Nat.lt_of_succ_lt (lt_of_bind_eq_ok hl)
  have hleft : left.bindWithin ctx.deeper.levelsLeft ctx.deeper = (.ok l, (left.bind ctx.deeper).2) :=
    Prod.ext hl rfl
  rw [bind_of_lt _ hlt, Bind.step, Bind.binary, BindM.bind_of_ok hleft,
    BindM.bind_of_error ((bindWithin_after left right).trans (Prod.ext hr rfl))]

/-- The nodes are bound, to expressions with the same values and errors. -/
def SameValues [External] (ctx : Context) (a b : Node) : Prop :=
  ∃ e₁ e₂, (a.bind ctx).1 = .ok e₁ ∧ (b.bind ctx).1 = .ok e₂ ∧ ∀ env, e₁.eval env = e₂.eval env

end Node

/-! ## Literals next to a node -/

section Operand

variable {ctx : Context} {e : EnumType} {operand : Node} {x : Expr} {type₁ type₂ : Option LogicalType} {t : String}
  {n : Int64}

variable (he : ctx.schema.enum? e.name = some e) (hx : (operand.bind ctx.deeper).1 = .ok x)
  (henum : x.type.asEnum? = some e) (htype₁ : ctx.Declares type₁) (htype₂ : ctx.Declares type₂)

include hx in
/-- The operand leaves a level for what stands to the right of it. -/
theorem Node.depth_after : (operand.bind ctx.deeper).2.depth < (operand.bind ctx.deeper).2.settings.maxDepth := by
  have hframe := operand.bind_keeps ctx.deeper
  rw [hframe.depth, hframe.settings]
  exact Node.lt_of_bind_eq_ok hx

include he hx henum htype₁ htype₂

theorem misspelled_right {op : QueryOp} (hop : op.isComparison = true ∨ op = .has) (hparse : e.parse? t = none) :
    ((Node.binary op operand (.constant (.string t) type₁)).bind ctx).1 = .error (.invalidEnumValue e.name t) ∧
      ((Node.binary op operand (.constant (.enum e.name t) type₂)).bind ctx).1 =
        .error (.invalidEnumValue e.name t) := by
  have hframe := operand.bind_keeps ctx.deeper
  have hlt := Node.depth_after hx
  obtain ⟨text, htext, htextual⟩ := Node.exists_bind_text hlt (htype₁.deeper.frame hframe) t
  have hschema : (operand.bind ctx.deeper).2.schema.enum? e.name = some e := by
    rw [hframe.schema]
    exact he
  constructor
  · rw [Node.bind_binary hx (congrArg Prod.fst htext)]
    exact (Context.binary_misspelled _ henum hparse htextual).1 hop
  · refine Node.bind_binary_of_right_error hx ?_
    rw [Node.bind_enum hlt (htype₂.deeper.frame hframe) hschema, hparse]

theorem spelled_right [External] {op : QueryOp} (hop : op.isComparison = true ∨ op = .has)
    (hparse : e.parse? t = some n) (hfits : e.Fits n) :
    Node.SameValues ctx (.binary op operand (.constant (.string t) type₁))
      (.binary op operand (.constant (.enum e.name t) type₂)) := by
  have hframe := operand.bind_keeps ctx.deeper
  have hschema : (operand.bind ctx.deeper).2.schema.enum? e.name = some e := by
    rw [hframe.schema]
    exact he
  obtain ⟨text, literal, c, htext, hliteral, htextual, hnamed⟩ :=
    Node.bind_spellings (Node.depth_after hx) (htype₁.deeper.frame hframe)
      (htype₂.deeper.frame hframe) hschema hparse
  rw [Node.SameValues, Node.bind_binary hx (congrArg Prod.fst htext), Node.bind_binary hx (congrArg Prod.fst hliteral),
    htext, hliteral]
  obtain ⟨a, b, ha, hb, hab⟩ : ∃ a b, c.binary op x text = .ok a ∧ c.binary op x literal = .ok b ∧
      Replaces (fun _ => True) a b := by
    rcases hop with hop | rfl
    · exact (c.spelled_comparison hop henum hparse hfits htextual hnamed).1
    · exact c.hasFlag_spellings henum hparse htextual hnamed
  exact ⟨a, b, ha, hb, fun env => hab.eval env trivial⟩

variable (hctx : ctx.Rebindable)
include hctx

theorem misspelled_left [External] {op : QueryOp} (hop : op.isComparison = true)
    (hparse : e.parse? t = none) :
    ((Node.binary op (.constant (.string t) type₁) operand).bind ctx).1 = .error (.invalidEnumValue e.name t) ∧
      ((Node.binary op (.constant (.enum e.name t) type₂) operand).bind ctx).1 =
        .error (.invalidEnumValue e.name t) := by
  have hlt : ctx.deeper.depth < ctx.deeper.settings.maxDepth := Node.lt_of_bind_eq_ok hx
  obtain ⟨text, htext, htextual⟩ := Node.exists_bind_text hlt htype₁.deeper t
  constructor
  · have hframe := (Node.constant (.string t) type₁).bind_keeps ctx.deeper
    obtain ⟨x', hx', hreplaces⟩ := (hctx.deeper.bind_alike hframe operand).exists_right hx
    rw [Node.bind_binary (congrArg Prod.fst htext) hx']
    exact (Context.binary_misspelled _ (hreplaces.type ▸ henum) hparse htextual).2 hop
  · refine Node.bind_binary_of_left_error (Nat.lt_of_succ_lt hlt) ?_ operand
    rw [Node.bind_enum hlt htype₂.deeper he, hparse]

theorem spelled_left [External] {op : QueryOp} (hop : op.isComparison = true) (hparse : e.parse? t = some n)
    (hfits : e.Fits n) :
    Node.SameValues ctx (.binary op (.constant (.string t) type₁) operand)
      (.binary op (.constant (.enum e.name t) type₂) operand) := by
  have hlt : ctx.deeper.depth < ctx.deeper.settings.maxDepth := Node.lt_of_bind_eq_ok hx
  obtain ⟨text, literal, c, htext, hliteral, htextual, hnamed⟩ :=
    Node.bind_spellings hlt htype₁.deeper htype₂.deeper he hparse
  have hframe := (Node.constant (.string t) type₁).bind_keeps ctx.deeper
  rw [htext] at hframe
  obtain ⟨x', hx', hreplaces⟩ := (hctx.deeper.bind_alike hframe operand).exists_right hx
  have hafter {l : Expr} {left : Node} (hleft : left.bind ctx.deeper = (.ok l, c)) :
      ((Node.binary op left operand).bind ctx).1 = (operand.bind c).2.binary op l x' := by
    rw [Node.bind_binary (congrArg Prod.fst hleft) (by rw [hleft]; exact hx'), hleft]
  rw [Node.SameValues, hafter htext, hafter hliteral]
  obtain ⟨-, a, b, ha, hb, hab⟩ := (operand.bind c).2.spelled_comparison (V := fun _ => True) hop
    (hreplaces.type ▸ henum) hparse hfits htextual hnamed
  exact ⟨a, b, ha, hb, fun env => hab.eval env trivial⟩

end Operand

/-- **The two spellings of a value agree.** In a context in which nodes can be bound again, next to an operand of an
enumeration of the schema: a text and a literal that spell no value are the same error, and a text and a literal
that spell one that the integers behind the enumeration hold are bound to expressions with the same values and
errors in every environment; in every comparison, on either side, and as the flag of a test. -/
theorem spellings_agree [External] {ctx : Context} (hctx : ctx.Rebindable) {e : EnumType}
    (he : ctx.schema.enum? e.name = some e) {operand : Node} {x : Expr} (hx : (operand.bind ctx.deeper).1 = .ok x)
    (henum : x.type.asEnum? = some e) {type₁ type₂ : Option LogicalType} (htype₁ : ctx.Declares type₁)
    (htype₂ : ctx.Declares type₂) (t : String) :
    let text := Node.constant (.string t) type₁
    let literal := Node.constant (.enum e.name t) type₂
    let invalid := Error.invalidEnumValue e.name t
    (∀ op : QueryOp, op.isComparison = true ∨ op = .has →
      (e.parse? t = none → ((Node.binary op operand text).bind ctx).1 = .error invalid ∧
        ((Node.binary op operand literal).bind ctx).1 = .error invalid) ∧
      ∀ n, e.parse? t = some n → e.Fits n →
        Node.SameValues ctx (.binary op operand text) (.binary op operand literal)) ∧
    ∀ op : QueryOp, op.isComparison = true →
      (e.parse? t = none → ((Node.binary op text operand).bind ctx).1 = .error invalid ∧
        ((Node.binary op literal operand).bind ctx).1 = .error invalid) ∧
      ∀ n, e.parse? t = some n → e.Fits n →
        Node.SameValues ctx (.binary op text operand) (.binary op literal operand) :=
  ⟨fun _ hop => ⟨misspelled_right he hx henum htype₁ htype₂ hop,
      fun _ => spelled_right he hx henum htype₁ htype₂ hop⟩,
    fun _ hop => ⟨misspelled_left he hx henum htype₁ htype₂ hctx hop,
      fun _ => spelled_left he hx henum htype₁ htype₂ hctx hop⟩⟩

/-! ### Colors -/

/-- Colors that mix, stored in 32 bits. -/
def colorEnum : EnumType := ⟨"Color", .int .int32, [("Red", 1), ("Green", 2), ("Blue", 4)], true⟩

/-- A schema of colors. -/
def colorSchema : Schema := Schema.empty.addEnum colorEnum

/-- A filter of colors that may be missing. -/
def colorContext : Context := .initial colorSchema {} (HostType.ofEnum colorEnum).toNullable

/-- The color of the clause. -/
def colorNode : Node := .rangeVariable ⟨RangeVariable.itName, .enum "Color" true⟩

/-- Colors next to a color that is spelled right, and to one that is spelled wrong. -/
theorem spellings_agree_for_colors :
    (∃ e₁ e₂, ((Node.binary .lt (.constant (.string "Red, Green") none) colorNode).bind colorContext).1 = .ok e₁ ∧
      ((Node.binary .lt (.constant (.enum "Color" "Red, Green") none) colorNode).bind colorContext).1 = .ok e₂ ∧
      ∀ env, e₁.eval env = e₂.eval env) ∧
    ((Node.binary .has colorNode (.constant (.string "red") none)).bind colorContext).1 =
      .error (.invalidEnumValue "Color" "red") := by
  have hctx : colorContext.Rebindable := Context.initial_rebindable ..
  have hcolor : colorContext.schema.enum? colorEnum.name = some colorEnum := rfl
  have htype : colorContext.Declares none := ⟨none, rfl⟩
  obtain ⟨x, hx, henum⟩ : ∃ x, (colorNode.bind colorContext.deeper).1 = .ok x ∧ x.type.asEnum? = some colorEnum :=
    ⟨_, rfl, rfl⟩
  have agree := fun t => spellings_agree hctx hcolor hx henum htype htype t
  exact ⟨((agree "Red, Green").2 .lt rfl).2 3 (by decide) ⟨.int32, rfl, by decide⟩,
    (((agree "red").1 .has (.inr rfl)).1 (by decide)).1⟩

/-- **A text has no flags**: the operand that is tested is a value of the enumeration as a literal, but not as a
text. -/
theorem texts_have_no_flags :
    colorEnum.parse? "Red" = some 1 ∧ colorEnum.Fits 1 ∧
      ((Node.binary .has (.constant (.string "Red") none) colorNode).bind colorContext).1 =
        .error (.typeMismatch "enum" "String") ∧
      ∃ e, ((Node.binary .has (.constant (.enum "Color" "Red") none) colorNode).bind colorContext).1 = .ok e ∧
        e.eval [(0, .enum "Color" 1)] = .ok (.bool true) :=
  ⟨by decide, ⟨.int32, rfl, by decide⟩, rfl, _, rfl, rfl⟩

end TypedQuery
